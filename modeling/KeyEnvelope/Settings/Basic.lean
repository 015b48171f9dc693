import KeyEnvelope.Cipher.Aes
import KeyEnvelope.Context
import KeyEnvelope.Text.Blank

/-!
# Settings

The default key name, the layout of contexts and the size of data keys.  Settings can
come from variables of the environment, read by the rules given here: a variable that is
not set, or holds no text, leaves the default.
-/

namespace KeyEnvelope

/-- How an engine encrypts. -/
structure Settings where
  defaultKeyName : String := "shared-key"
  contextFormat : ContextFormat := .fixed 105
  keySizeBits : Nat := 256
  deriving DecidableEq, Repr

namespace Settings

/-- Refuses key sizes that the cipher does not have, an empty key name and a fixed layout
without room for a wrapped key. -/
def validate (settings : Settings) : Except ConfigError Unit :=
  if settings.keySizeBits ≠ 128 ∧ settings.keySizeBits ≠ 192 ∧ settings.keySizeBits ≠ 256 then
    .error (.unsupportedKeyBits settings.keySizeBits)
  else if settings.defaultKeyName = "" then .error .emptyKeyName
  else if settings.contextFormat = .fixed 0 then .error .zeroWrappedKeyLength
  else .ok ()

/-- The length of data keys in bytes. -/
def keyLength (settings : Settings) : Nat := settings.keySizeBits / 8

end Settings

/-! ## Settings as text -/

/-- The largest number that a setting can hold. -/
def Settings.maxNumber : Nat := UInt64.size - 1

/-- The layout that a text names: `length-prefixed` in any case of letters, or `fixed:`
and a length. -/
def ContextFormat.parse (text : String) : Except ConfigError ContextFormat :=
  let name := Text.trim text.toList
  if name.map Char.toLower = "length-prefixed".toList then .ok .lengthPrefixed
  else
    match Text.after? "fixed:".toList name with
    | some length =>
      match Decimal.read Settings.maxNumber (Text.trim length) with
      | .ok length => .ok (.fixed length)
      | .error cause => .error (.fixedLength (String.ofList length) cause)
    | none => .error (.unknownFormat (String.ofList name))

/-- A layout in the notation of its parts. -/
def ContextFormat.describe : ContextFormat → String
  | fixed length => s!"Fixed \x7b wrapped_key_len: {length} \x7d"
  | lengthPrefixed => "LengthPrefixed"

namespace Settings

/-- The variables that hold settings. -/
inductive Variable
  | keyName
  | contextFormat
  | keyBits
  deriving DecidableEq, Repr

/-- The name of a variable in the environment. -/
def Variable.name : Variable → String
  | keyName => "ENVELOPE_KEY_NAME"
  | contextFormat => "ENVELOPE_CONTEXT_FORMAT"
  | keyBits => "ENVELOPE_KEY_BITS"

/-- The values of the variables that are set. -/
abbrev Environment := Variable → Option Bytes

/-- The environment that is read one variable after the other, each by its name. -/
def readEnvironment {m : Type → Type} [Monad m] (read : String → m (Option Bytes)) :
    m Environment := do
  let keyNameValue ← read Variable.keyName.name
  let contextFormatValue ← read Variable.contextFormat.name
  let keyBitsValue ← read Variable.keyBits.name
  return fun
    | .keyName => keyNameValue
    | .contextFormat => contextFormatValue
    | .keyBits => keyBitsValue

/-- The text that a variable is set to, if it is set to a text. -/
def textOf? (environment : Environment) (name : Variable) : Option String :=
  (environment name).bind fun bytes => (Utf8.decode bytes).toOption

/-- The key size that a text spells. -/
def parseKeyBits (text : String) : Except ConfigError Nat :=
  (Decimal.read maxNumber (Text.trim text.toList)).mapError (.keyBits text)

/-- The settings of an environment. -/
def ofEnvironment (environment : Environment) : Except ConfigError Settings := do
  let defaults : Settings := {}
  let keyName := (textOf? environment .keyName).getD defaults.defaultKeyName
  let format ← match textOf? environment .contextFormat with
    | some text => ContextFormat.parse text
    | none => .ok defaults.contextFormat
  let bits ← match textOf? environment .keyBits with
    | some text => parseKeyBits text
    | none => .ok defaults.keySizeBits
  let settings : Settings := ⟨keyName, format, bits⟩
  settings.validate
  return settings

end Settings

end KeyEnvelope
