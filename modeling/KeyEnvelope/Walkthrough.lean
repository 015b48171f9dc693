import KeyEnvelope.Engine
import KeyEnvelope.Text.Quoted
import KeyEnvelope.Transit.Client

/-!
# A walk through the library

A text is encrypted, decrypted as a whole and in part, decrypted again after its wrapping
key was rotated, and kept with stored keys.  Each step says what it did in a line.  The
walk is a computation on a transit service and the lines so far, so a failure leaves
the lines that were said before it.
-/

namespace KeyEnvelope.Walkthrough

/-- A step of the walk: on a transit service and the lines so far, the last one first. -/
abbrev Step (α : Type) := EStateM EnvelopeError (TransitClient × List String) α

/-- Says a line. -/
def say (line : String) : Step Unit :=
  fun (client, lines) => .ok () (client, line :: lines)

/-- A step of the transit service. -/
def onClient {α : Type} (step : EStateM EnvelopeError TransitClient α) : Step α :=
  Engine.onService step

/-- The bytes that a reader yields up to its end. -/
def allBytes {ρ : Type} [Reader ρ] (reader : ρ) : Step Bytes :=
  attempt .stream (Reader.toBytes reader)

/-- A long base64 text cut to its beginning and end. -/
def abridged (bytes : Bytes) : String :=
  let symbols := (Base64.encodeText bytes).toList
  if 16 < symbols.length then
    String.ofList (symbols.take 8 ++ "...".toList ++ symbols.drop (symbols.length - 4))
  else String.ofList symbols

/-- Bytes as a text; what is no text shows as a replacement character. -/
def textOf (bytes : Bytes) : String :=
  (Utf8.decode bytes).toOption.getD "\ufffd"

/-- The content that the walk encrypts. -/
def content : Bytes := Utf8.encode "Hello Client-side encryption World!"

/-- The settings of the environment, or the failure that keeps the walk from beginning. -/
def begin (environment : Settings.Environment) : Step Engine := do
  say "=== Envelope Encryption for Stored Content ==="
  say ""
  let settings ← attempt .config (Settings.ofEnvironment environment)
  let engine ← attempt .config (Engine.ofSettings settings)
  onClient engine.init
  say s!"[INIT] Wrapping key: {settings.defaultKeyName}"
  say s!"[INIT] Context layout: {settings.contextFormat.describe}"
  say ""
  return engine

/-- Encrypts the content and decrypts all of it and a part. -/
def walkContext (engine : Engine) : Step (Bytes × Bytes) := do
  let keyName := engine.settings.defaultKeyName
  let key ← onClient (TransitClient.draw (Entropy.drawKey engine.settings.keyLength))
  let nonce ← onClient (TransitClient.draw Entropy.drawNonce)
  let (stream, context) ←
    onClient (engine.encrypt key nonce (Source.ofBytes content) keyName)
  let ciphertext ← allBytes stream
  say s!"[ENCRYPT] Plaintext ({content.length}B): {textOf content}"
  say s!"[ENCRYPT] Ciphertext ({ciphertext.length}B): {abridged ciphertext}"
  say s!"[ENCRYPT] Context ({context.length}B): {abridged context}"
  say ""
  let reader ← onClient (engine.decrypt context (Source.ofBytes ciphertext) 0 keyName)
  say s!"[DECRYPT] Plaintext: {textOf (← allBytes reader)}"
  say ""
  let range ← attempt .invalidRange
    (ByteRange.parse "bytes=18-27" (some (UInt64.ofNat ciphertext.length)))
  let start := (blockStart range.start).toNat
  let reader ← onClient
    (engine.decrypt context (Source.ofBytes (ciphertext.drop start)) range.start keyName)
  let word ← allBytes (LimitedReader.mk reader range.limit)
  say s!"[RANGE] Requested: {range.toHeader}"
  say s!"[RANGE] Fetched ciphertext from byte {start}"
  say s!"[RANGE] Plaintext: {textOf word}"
  say ""
  return (context, ciphertext)

/-- Rotates the wrapping key and decrypts what was encrypted before. -/
def walkRotation (engine : Engine) (context ciphertext : Bytes) : Step Unit := do
  let keyName := engine.settings.defaultKeyName
  say "=== Key Rotation ==="
  say ""
  onClient (Engine.rotate keyName)
  if let some info := (← get).1.store.info? keyName then
    say s!"[ROTATE] Latest version: v{info.latest}"
    say s!"[ROTATE] Retained versions: {info.retained}"
  let reader ← onClient (engine.decrypt context (Source.ofBytes ciphertext) 0 keyName)
  say s!"[ROTATE] Old context still decrypts: {textOf (← allBytes reader)}"
  say ""

/-- The ciphertext of a range, which says what is fetched. -/
def fetch (ciphertext : Bytes) (range : ByteRange) : EStateM StreamError (List String) Source :=
  fun lines =>
    let line := s!"[KEYS] Fetching ciphertext {range.toHeader}"
    .ok (Source.ofBytes (range.slice ciphertext)) (line :: lines)

/-- Encrypts the content with stored keys and decrypts a part of it. -/
def walkStoredKeys (engine : Engine) : Step Unit := do
  let keyName := engine.settings.defaultKeyName
  say "=== Stored Data Keys ==="
  say ""
  let key ← onClient (TransitClient.draw (Entropy.drawKey engine.settings.keyLength))
  let iv ← onClient (TransitClient.draw Entropy.drawIv)
  let (stream, keys) ← onClient
    (engine.encryptWithWrappers key iv (Source.ofBytes content) [.transit keyName, .unencrypted])
  let ciphertext ← allBytes stream
  let stored := (StoredKey.encodeList keys).toOption.getD []
  say s!"[KEYS] {keys.length} stored keys, list blob {stored.length}B: {abridged stored}"
  let keys := (StoredKey.decodeList stored).toOption.getD []
  let range ← attempt .invalidRange (ByteRange.parse "bytes=6-16" none)
  let reader ← Engine.decryptWithWrappers keys [.transit keyName] range (fetch ciphertext)
  say s!"[KEYS] Plaintext {range.toHeader}: {textOf (← allBytes reader)}"

/-- The whole walk. -/
def walk (environment : Settings.Environment) : Step Unit := do
  let engine ← begin environment
  let (context, ciphertext) ← walkContext engine
  walkRotation engine context ciphertext
  walkStoredKeys engine

/-- A failure as the walk reports it: its group and its wording. -/
def describe : EnvelopeError → String
  | .keyManagement cause => s!"KeyManagement({Text.quote cause.message})"
  | .corruptedContext cause => s!"CorruptedContext({Text.quote cause.message})"
  | .config cause => s!"Config({Text.quote cause.message})"
  | .record cause => s!"Codec({Text.quote cause.message})"
  | .invalidRange cause => s!"InvalidRange({Text.quote cause.message})"
  | .stream cause =>
    s!"Io(Custom \x7b kind: {cause.kind.name}, error: {Text.quote cause.message} \x7d)"

/-- The lines of the walk in an environment and the report of its failure, if it fails,
with a transit service that draws from a seed. -/
def transcript (environment : Settings.Environment) (seed : Bytes) :
    List String × Option String :=
  match walk environment (⟨{}, .ofSeed seed, 0⟩, []) with
  | .ok () (_, lines) => (lines.reverse, none)
  | .error cause (_, lines) => (lines.reverse, some s!"Error: {describe cause}")

end KeyEnvelope.Walkthrough
