import KeyEnvelope.Cipher.Key
import KeyEnvelope.Entropy
import KeyEnvelope.KeyService
import KeyEnvelope.Record.StoredKey
import KeyEnvelope.Transit.Ciphertext

/-!
# Key wrappers

How a data key becomes a stored key and comes back.  A wrapper says of a stored key
whether it is of its kind (`WrapperKind`), and makes and opens the keys of its kind with
whatever it has to ask for that (`DataKeyWrapper`).  Two wrappers are given here: one keeps
keys in the clear, the other has them wrapped by a key service under a named key, and both
refuse keys of another kind.
-/

namespace KeyEnvelope

/-- A data key and the counter block that a content starts with. -/
structure ContentParameters where
  key : Bytes
  iv : Block
  deriving DecidableEq

namespace ContentParameters

/-- Parameters for content, drawn anew. -/
def generate (keyLength : Nat) : EStateM ConfigError Entropy ContentParameters := do
  let key ← Entropy.generateKey keyLength
  let iv ← fun entropy =>
    let (iv, entropy) := Entropy.drawIv entropy
    .ok iv entropy
  return ⟨key.bytes, iv⟩

/-- The parameters that a stored key spells, if its parts have the right lengths. -/
def ofStored (key iv : Bytes) : Except EnvelopeError ContentParameters := do
  (checkKeyLength key.length).mapError .config
  match Block.ofBytes? iv with
  | some iv => return ⟨key, iv⟩
  | none => throw (.corruptedContext (.storedIvSize iv.length))

end ContentParameters

/-! ## Ways to keep data keys -/

/-- What tells stored keys of its own kind from others. -/
class WrapperKind (ω : Type) where
  /-- Whether a stored key is of the kind of a wrapper. -/
  supports : ω → StoredKey → Bool

/-- A way to keep data keys, with the states of whatever it asks.  Wrappers of several types
can be used together as wrappers of one type that joins them. -/
class DataKeyWrapper (ω σ : Type) where
  /-- The stored key of a content's parameters. -/
  wrap : ω → ContentParameters → EStateM EnvelopeError σ StoredKey
  /-- The parameters of a content that a stored key holds. -/
  unwrap : ω → StoredKey → EStateM EnvelopeError σ ContentParameters

/-! ## In the clear, or by a key service -/

/-- The ways to keep data keys that need a key service at most. -/
inductive KeyWrapper
  /-- In the clear. -/
  | unencrypted
  /-- Wrapped by a key service under the key of a name. -/
  | transit (keyName : String)
  deriving DecidableEq, Repr

namespace KeyWrapper

/-- What stored keys say of being wrapped by a key service. -/
def transitAlgorithm : String := "vault-transit"

/-- What stored keys say of the cipher that they are keys of. -/
def dataAlgorithm : String := "AES"

/-- Whether a stored key is of the kind of a wrapper. -/
def supports (wrapper : KeyWrapper) (key : StoredKey) : Bool :=
  match wrapper, key with
  | unencrypted, .plain key => key.algorithm = dataAlgorithm
  | transit keyName, .wrapped key =>
    key.wrappingAlgorithm = transitAlgorithm ∧ key.wrappingKeyId = keyName
  | _, _ => false

variable {κ : Type} [KeyService κ]

/-- The stored key of a content's parameters. -/
def wrap (wrapper : KeyWrapper) (parameters : ContentParameters) :
    EStateM EnvelopeError κ StoredKey :=
  match wrapper with
  | unencrypted => pure (.plain {
      algorithm := dataAlgorithm
      keyData := parameters.key
      iv := Block.toBytes parameters.iv })
  | transit keyName => do
    let ciphertext ← KeyService.wrap keyName (Base64.encodeText parameters.key)
    let version ← attempt .keyManagement (TransitCiphertext.parseKeyVersion ciphertext)
    return .wrapped {
      wrappingAlgorithm := transitAlgorithm
      wrappingKeyId := keyName
      wrappingKeyVersion := toString version
      dataAlgorithm := dataAlgorithm
      encryptedKeyData := Utf8.encode ciphertext
      iv := Block.toBytes parameters.iv }

/-- The parameters of a content that a wrapped key holds, by the key of a name. -/
def unwrapTransit (keyName : String) (key : WrappedKey) :
    EStateM EnvelopeError κ ContentParameters := do
  if key.wrappingAlgorithm ≠ transitAlgorithm ∨ key.wrappingKeyId ≠ keyName then
    throw (.keyManagement (.foreignKey key.wrappingAlgorithm key.wrappingKeyId keyName))
  let ciphertext ← attempt (fun _ => .corruptedContext .wrappedKeyNotText)
    (Utf8.decode key.encryptedKeyData)
  let text ← KeyService.unwrap keyName ciphertext
  let bytes ← attempt (.keyManagement ∘ .base64) (Base64.decode (Utf8.encode text))
  attempt id (ContentParameters.ofStored bytes key.iv)

/-- The parameters of a content that a stored key holds. -/
def unwrap (wrapper : KeyWrapper) (key : StoredKey) :
    EStateM EnvelopeError κ ContentParameters :=
  match wrapper, key with
  | unencrypted, .plain key =>
    if key.algorithm = dataAlgorithm then attempt id (ContentParameters.ofStored key.keyData key.iv)
    else throw (.keyManagement .notUnencryptedAes)
  | unencrypted, .wrapped _ => throw (.keyManagement .notUnencryptedAes)
  | transit _, .plain _ => throw (.keyManagement .notWrapped)
  | transit keyName, .wrapped key => unwrapTransit keyName key

@[default_instance] instance : WrapperKind KeyWrapper where
  supports := supports

@[default_instance] instance : DataKeyWrapper KeyWrapper κ where
  wrap := wrap
  unwrap := unwrap

end KeyWrapper

end KeyEnvelope
