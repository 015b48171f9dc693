import KeyEnvelope.Error
import KeyEnvelope.Cipher.Aes
import KeyEnvelope.Cipher.Nonce

/-!
# Keys

Key bytes as they are drawn, with a known length, and the checks that a key or a nonce
of unknown origin passes before it is used.
-/

namespace KeyEnvelope

/-- Key bytes of a known length. -/
structure KeyMaterial (length : Nat) where
  bytes : Bytes
  length_eq : bytes.length = length
  deriving DecidableEq

/-- Refuses a key length that the cipher does not have. -/
def checkKeyLength (length : Nat) : Except ConfigError Unit :=
  if Aes.IsKeyLength length then .ok () else .error (.keySize length)

/-- The cipher under a key. -/
def cipherOf (key : Bytes) : Block → Block :=
  Aes.encryptBlock (Aes.Schedule.ofKey key)

/-- The counter block of a nonce that is given as bytes. -/
def baseIv (nonce : Bytes) : Except ConfigError Block :=
  match Nonce.ofBytes? nonce with
  | some nonce => .ok nonce.counterBlock
  | none => .error (.nonceSize nonce.length)

/-- What stands for key bytes in a text for diagnosis. -/
def redactedKey : String := "SecureKey([REDACTED])"

end KeyEnvelope
