import KeyEnvelope.Range
import KeyEnvelope.Reader.Counter
import KeyEnvelope.Reader.Limited
import KeyEnvelope.Reader.Skipping
import KeyEnvelope.Settings.Basic
import KeyEnvelope.Wrapper

/-!
# Envelope encryption of content

Each content is encrypted under a data key of its own, and the data key is kept beside
the content, wrapped by a key service.  Content can be decrypted from any offset on and
in any range: only the blocks that hold it have to be fetched.  Two ways of keeping
keys are offered, a context with one wrapped key, or a list of stored keys of which any
one that a wrapper supports will do.
-/

namespace KeyEnvelope

/-- What encrypts and decrypts content, under settings that have been checked. -/
structure Engine where
  settings : Settings
  valid : settings.validate = .ok ()

/-- A reader of decrypted content from an offset on. -/
abbrev DecryptingReader (ρ : Type) := SkippingReader (CounterReader ρ)

/-- A reader of a range of decrypted content. -/
abbrev RangeReader (ρ : Type) := LimitedReader (DecryptingReader ρ)

namespace Engine

/-- An engine under the given settings, if they are valid. -/
def ofSettings (settings : Settings) : Except ConfigError Engine :=
  match h : settings.validate with
  | .ok () => .ok ⟨settings, h⟩
  | .error cause => .error cause

/-- An engine under the default settings. -/
def withDefaults : Engine := ⟨{}, rfl⟩

/-- A reader from an offset on of content whose ciphertext begins at the block of that
offset. -/
def openAt {ρ : Type} (parameters : ContentParameters) (offset : UInt64) (ciphertext : ρ) :
    Except ConfigError (DecryptingReader ρ) := do
  let stream ← CounterReader.start ciphertext parameters.key (Counter.seek parameters.iv offset)
  return if offset = 0 then .fromStart stream else .fromOffset stream offset

/-! ## Content with a context -/

section

variable {κ ρ : Type} [KeyService κ]

/-- Makes sure that the default key exists. -/
def init (engine : Engine) : EStateM EnvelopeError κ Unit :=
  KeyService.createKey engine.settings.defaultKeyName

/-- The encrypting reader of a content and its context, under a data key and a nonce that
have been drawn for it. -/
def encrypt (engine : Engine) (key : KeyMaterial engine.settings.keyLength) (nonce : Nonce)
    (plaintext : ρ) (keyName : String) : EStateM EnvelopeError κ (CounterReader ρ × Bytes) := do
  KeyService.createKey keyName
  let wrapped ← KeyService.wrap keyName (Base64.encodeText key.bytes)
  let context : Context := ⟨Utf8.encode wrapped, nonce⟩
  let context ← attempt .config (context.encode engine.settings.contextFormat)
  let stream ← attempt .config (CounterReader.start plaintext key.bytes nonce.counterBlock)
  return (stream, context)

/-- The content of a context that has been read, from an offset on. -/
def decryptDecoded (context : Except ContextError Context) (ciphertext : ρ) (offset : UInt64)
    (keyName : String) : EStateM EnvelopeError κ (DecryptingReader ρ) := do
  let context ← attempt .corruptedContext context
  let wrapped ← attempt .corruptedContext context.wrappedKeyText
  let text ← KeyService.unwrap keyName wrapped
  let key ← attempt (.keyManagement ∘ .base64) (Base64.decode (Utf8.encode text))
  attempt .config (openAt ⟨key, context.nonce.counterBlock⟩ offset ciphertext)

/-- The content of a context from an offset on.  The ciphertext has to begin at the block
of the offset. -/
def decrypt (engine : Engine) (context : Bytes) (ciphertext : ρ) (offset : UInt64)
    (keyName : String) : EStateM EnvelopeError κ (DecryptingReader ρ) :=
  decryptDecoded (Context.decode engine.settings.contextFormat context) ciphertext offset keyName

/-- The content of a context from an offset on, or nothing if reading the context stops the
program. -/
def decrypt? (engine : Engine) (overflow : Context.Overflow) (context : Bytes) (ciphertext : ρ)
    (offset : UInt64) (keyName : String) :
    Option (EStateM EnvelopeError κ (DecryptingReader ρ)) :=
  (Context.decode? overflow engine.settings.contextFormat context).map fun context =>
    decryptDecoded context ciphertext offset keyName

/-- Rotates a wrapping key.  What it has wrapped before can still be decrypted. -/
def rotate (keyName : String) : EStateM EnvelopeError κ Unit :=
  KeyService.rotate keyName

end

/-! ## Content with stored keys -/

variable {ω σ ρ : Type}

/-- The encrypting reader of a content and its stored keys, one for each wrapper, under a
data key and a counter block that have been drawn for it. -/
def encryptWithWrappers (engine : Engine) (key : KeyMaterial engine.settings.keyLength)
    (iv : Block) (plaintext : ρ) [DataKeyWrapper ω σ] (wrappers : List ω) :
    EStateM EnvelopeError σ (CounterReader ρ × List StoredKey) := do
  if wrappers.isEmpty then
    throw (.config .noWrappers)
  let keys ← wrappers.mapM fun wrapper => DataKeyWrapper.wrap wrapper ⟨key.bytes, iv⟩
  let stream ← attempt .config (CounterReader.start plaintext key.bytes iv)
  return (stream, keys)

/-- The first wrapper that supports any of the keys, with the first key it supports. -/
def selectKey [WrapperKind ω] (wrappers : List ω) (keys : List StoredKey) :
    Option (ω × StoredKey) :=
  wrappers.findSome? fun wrapper =>
    (keys.find? (WrapperKind.supports wrapper)).map fun key => (wrapper, key)

/-- A step of a wrapper beside some other state. -/
def onService {φ α : Type} (step : EStateM EnvelopeError σ α) :
    EStateM EnvelopeError (σ × φ) α :=
  fun (service, other) =>
    match step service with
    | .ok value service => .ok value (service, other)
    | .error e service => .error e (service, other)

/-- A fetch beside the state of wrappers, its failure a failure of the stream. -/
def onFetch {φ α : Type} (step : EStateM StreamError φ α) :
    EStateM EnvelopeError (σ × φ) α :=
  fun (service, other) =>
    match step other with
    | .ok value other => .ok value (service, other)
    | .error e other => .error (.stream e) (service, other)

/-- A range of a content that has stored keys.  Once a key is unwrapped, `fetch` is asked
for the ciphertext of the range begun at the start of a block. -/
def decryptWithWrappers {φ : Type} [WrapperKind ω] [DataKeyWrapper ω σ]
    (keys : List StoredKey) (wrappers : List ω) (range : ByteRange)
    (fetch : ByteRange → EStateM StreamError φ ρ) :
    EStateM EnvelopeError (σ × φ) (RangeReader ρ) := do
  let some (wrapper, key) := selectKey wrappers keys
    | throw (.keyManagement (.noWrapperSupports wrappers.length keys.length))
  let parameters ← onService (DataKeyWrapper.unwrap wrapper key)
  let ciphertext ← onFetch (fetch range.blockAligned)
  let reader ← attempt .config (openAt parameters range.start ciphertext)
  return ⟨reader, range.limit⟩

end Engine

end KeyEnvelope
