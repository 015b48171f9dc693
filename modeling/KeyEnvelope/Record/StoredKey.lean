import KeyEnvelope.Record.Codec
import KeyEnvelope.Text.Quoted

/-!
# Stored keys

The records in which data keys are kept beside the content they encrypt: a key in the
clear, or a key that a key service has wrapped.  The marker of a record tells which it
is.  A content may have several stored keys; they are kept as one list.
-/

namespace KeyEnvelope

/-- A data key in the clear. -/
structure PlainKey where
  algorithm : String := ""
  keyData : Bytes := []
  iv : Bytes := []
  deriving DecidableEq, Repr, Inhabited

/-- A data key wrapped under a key of a key service. -/
structure WrappedKey where
  wrappingAlgorithm : String := ""
  wrappingKeyId : String := ""
  wrappingKeyVersion : String := ""
  dataAlgorithm : String := ""
  encryptedKeyData : Bytes := []
  iv : Bytes := []
  deriving DecidableEq, Repr, Inhabited

/-- A data key as it is kept beside the content. -/
inductive StoredKey
  | plain (key : PlainKey)
  | wrapped (key : WrappedKey)
  deriving DecidableEq, Repr

/-! ## Their records -/

namespace PlainKey

/-- The record of a key in the clear. -/
def codec : RecordCodec PlainKey where
  marker := ⟨'U', by decide⟩
  fields := [
    .of "algorithm" algorithm fun key value => { key with algorithm := value },
    .of "key_data" keyData fun key value => { key with keyData := value },
    .of "iv" iv fun key value => { key with iv := value }]

/-- The written form of a key in the clear. -/
def encode (key : PlainKey) : Except Defect Bytes := codec.encode key

/-- The key in the clear that data is the written form of. -/
def decode (data : Bytes) : Except DecodeFailure (Option PlainKey) := codec.decode data

/-- The text of a key for diagnosis, which shows nothing of its bytes. -/
def redacted (key : PlainKey) : String :=
  let algorithm := Text.quote key.algorithm
  let keyData := Text.quote "[REDACTED]"
  let iv := Bytes.describe key.iv
  "UnencryptedSymmetricDataEncryptionKey " ++
    s!"\x7b algorithm: {algorithm}, key_data: {keyData}, iv: {iv} \x7d"

end PlainKey

namespace WrappedKey

/-- The record of a wrapped key. -/
def codec : RecordCodec WrappedKey where
  marker := ⟨'E', by decide⟩
  fields := [
    .of "wrapping_algorithm" wrappingAlgorithm
      fun key value => { key with wrappingAlgorithm := value },
    .of "wrapping_key_id" wrappingKeyId fun key value => { key with wrappingKeyId := value },
    .of "wrapping_key_version" wrappingKeyVersion
      fun key value => { key with wrappingKeyVersion := value },
    .of "data_encryption_algorithm" dataAlgorithm
      fun key value => { key with dataAlgorithm := value },
    .of "encrypted_key_data" encryptedKeyData
      fun key value => { key with encryptedKeyData := value },
    .of "iv" iv fun key value => { key with iv := value }]

/-- The written form of a wrapped key. -/
def encode (key : WrappedKey) : Except Defect Bytes := codec.encode key

/-- The wrapped key that data is the written form of. -/
def decode (data : Bytes) : Except DecodeFailure (Option WrappedKey) := codec.decode data

end WrappedKey

namespace StoredKey

/-- The marker of a stored key's record. -/
def marker : StoredKey → Marker
  | plain _ => PlainKey.codec.marker
  | wrapped _ => WrappedKey.codec.marker

/-- The counter block that a stored key holds, as bytes. -/
def iv : StoredKey → Bytes
  | plain key => key.iv
  | wrapped key => key.iv

/-- The written form of a stored key. -/
def encode : StoredKey → Except Defect Bytes
  | plain key => key.encode
  | wrapped key => key.encode

/-- The stored key that data is the written form of.  A broken record is refused by the
kind whose marker it bears, and not tried as the other. -/
def decode (data : Bytes) : Except DecodeFailure StoredKey := do
  if let some key ← PlainKey.decode data then
    return plain key
  if let some key ← WrappedKey.decode data then
    return wrapped key
  throw (.malformed (.record .unknownVariant))

/-- The written form of the stored keys of a content. -/
def encodeList (keys : List StoredKey) : Except Defect Bytes := do
  ListCodec.encode (← keys.mapM encode)

/-- The stored keys that data is the written form of. -/
def decodeList (data : Bytes) : Except DecodeFailure (List StoredKey) := do
  match ← (ListCodec.decode data).mapError (.malformed ∘ .record) with
  | none => throw (.malformed (.record .notKeyList))
  | some elements => elements.mapM decode

end StoredKey

end KeyEnvelope
