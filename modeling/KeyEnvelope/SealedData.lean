import KeyEnvelope.Cipher.Gcm
import KeyEnvelope.Cipher.Key

/-!
# Sealed data

A small text encrypted and authenticated under a 32-byte key, with the nonce it was
sealed under, and its base64 form, in which the nonce stands in front.
-/

namespace KeyEnvelope

/-- The length of keys that data is sealed under. -/
def sealingKeySize : Nat := 32

/-- A key that data is sealed under. -/
abbrev SealingKey := KeyMaterial sealingKeySize

/-- A nonce and the ciphertext, tag included, that was made under it. -/
structure SealedData where
  nonce : Bytes
  ciphertext : Bytes
  deriving DecidableEq, Repr

namespace SealedData

/-! ## Sealing and opening -/

/-- A text sealed under a key and a fresh nonce, bound to associated data. -/
def ofPlaintext (key : SealingKey) (nonce : Nonce) (aad plaintext : Bytes) : SealedData :=
  ⟨nonce.bytes, Gcm.sealText (cipherOf key.bytes) nonce aad plaintext⟩

/-- The text that was sealed under a key and bound to associated data. -/
def plaintext (key : SealingKey) (aad : Bytes) (data : SealedData) :
    Except KeyManagementError Bytes :=
  match Nonce.ofBytes? data.nonce with
  | none => .error (.nonceSize data.nonce.length)
  | some nonce =>
    match Gcm.openText? (cipherOf key.bytes) nonce aad data.ciphertext with
    | none => .error .authentication
    | some text => .ok text

/-- The sealing key that bytes of unknown origin make. -/
def keyOfBytes (bytes : Bytes) : Except ConfigError SealingKey :=
  if h : bytes.length = sealingKeySize then .ok ⟨bytes, h⟩
  else .error (.sealingKeySize bytes.length)

/-- A text sealed under key bytes of unknown origin. -/
def encrypt (key : Bytes) (nonce : Nonce) (aad plaintext : Bytes) :
    Except ConfigError SealedData := do
  return ofPlaintext (← keyOfBytes key) nonce aad plaintext

/-- The text that was sealed under key bytes of unknown origin.  The key is checked before
the data. -/
def decrypt (key aad : Bytes) (data : SealedData) : Except EnvelopeError Bytes := do
  let key ← (keyOfBytes key).mapError .config
  (data.plaintext key aad).mapError .keyManagement

/-! ## Base64 form -/

/-- The nonce and the ciphertext as one base64 text. -/
def toBase64 (data : SealedData) : String :=
  Base64.encodeText (data.nonce ++ data.ciphertext)

/-- The sealed data of a base64 text that has room for a nonce and a tag. -/
def ofBase64 (text : String) : Except KeyManagementError SealedData := do
  let bytes ← (Base64.decode (Utf8.encode text)).mapError .base64
  if bytes.length < nonceSize + Gcm.tagSize then
    throw .sealedDataTooShort
  return ⟨bytes.take nonceSize, bytes.drop nonceSize⟩

end SealedData

end KeyEnvelope
