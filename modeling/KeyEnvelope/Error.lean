import KeyEnvelope.Text.Utf8
import KeyEnvelope.Text.Base64
import KeyEnvelope.Text.Decimal

/-!
# Causes of failure

Every way in which an operation can fail is a constructor, grouped by the part that
fails; `message` alone knows the wording.  `EnvelopeError` joins the groups.  A key
service outside this library reports its failures in its own words, so each group
also has a constructor that carries a text.
-/

namespace KeyEnvelope

/-! ## Streams -/

/-- The kind of a failure while reading a stream. -/
inductive StreamError.Kind
  | notFound
  | permissionDenied
  | connectionRefused
  | connectionReset
  | connectionAborted
  | notConnected
  | addressInUse
  | addressNotAvailable
  | brokenPipe
  | alreadyExists
  | wouldBlock
  | invalidInput
  | invalidData
  | timedOut
  | writeZero
  | interrupted
  | unsupported
  | unexpectedEnd
  | outOfMemory
  | other
  deriving DecidableEq, Repr

namespace StreamError.Kind

/-- The name of a kind. -/
def name : Kind → String
  | notFound => "NotFound"
  | permissionDenied => "PermissionDenied"
  | connectionRefused => "ConnectionRefused"
  | connectionReset => "ConnectionReset"
  | connectionAborted => "ConnectionAborted"
  | notConnected => "NotConnected"
  | addressInUse => "AddrInUse"
  | addressNotAvailable => "AddrNotAvailable"
  | brokenPipe => "BrokenPipe"
  | alreadyExists => "AlreadyExists"
  | wouldBlock => "WouldBlock"
  | invalidInput => "InvalidInput"
  | invalidData => "InvalidData"
  | timedOut => "TimedOut"
  | writeZero => "WriteZero"
  | interrupted => "Interrupted"
  | unsupported => "Unsupported"
  | unexpectedEnd => "UnexpectedEof"
  | outOfMemory => "OutOfMemory"
  | other => "Other"

/-- All kinds. -/
def all : List Kind := [
  notFound, permissionDenied, connectionRefused, connectionReset, connectionAborted,
  notConnected, addressInUse, addressNotAvailable, brokenPipe, alreadyExists, wouldBlock,
  invalidInput, invalidData, timedOut, writeZero, interrupted, unsupported, unexpectedEnd,
  outOfMemory, other]

/-- The kind of a name. -/
def ofName? (text : String) : Option Kind :=
  all.find? fun kind => kind.name = text

end StreamError.Kind

/-- A failure while reading a stream. -/
structure StreamError where
  kind : StreamError.Kind
  message : String
  deriving DecidableEq, Repr

/-- The stream ended before a buffer was full. -/
def StreamError.endOfStream : StreamError :=
  ⟨.unexpectedEnd, "failed to fill whole buffer"⟩

/-! ## Key management -/

/-- Why keys could not be wrapped, unwrapped or found. -/
inductive KeyManagementError
  | reported (text : String)
  | base64 (cause : Base64.Malformed)
  | sealedDataTooShort
  | nonceSize (actual : Nat)
  | authentication
  | malformedCiphertext
  | scheme (found : String)
  | versionText (found : String)
  | keyNotFound (name : String)
  | minimumOutside (version latest : Nat)
  | versionBelowMinimum (name : String) (version minimum : Nat)
  | versionMissing (name : String) (version : Nat)
  | unwrappedNotText
  | notWrapped
  | foreignKey (algorithm keyId name : String)
  | notUnencryptedAes
  | noWrapperSupports (wrappers keys : Nat)
  deriving DecidableEq, Repr

/-- The wording of a key management failure. -/
def KeyManagementError.message : KeyManagementError → String
  | reported text => text
  | base64 cause => s!"Base64 decode error: {cause.message}"
  | sealedDataTooShort => "Invalid encrypted data length"
  | nonceSize actual => s!"Invalid nonce size: expected 12, got {actual}"
  | authentication => "Decryption failed: authentication error"
  | malformedCiphertext => "Malformed transit ciphertext"
  | scheme found => s!"Unexpected ciphertext prefix '{found}'"
  | versionText found => s!"Invalid key version '{found}'"
  | keyNotFound name => s!"Key not found: {name}"
  | minimumOutside version latest =>
    s!"Minimum decryption version {version} outside 1..={latest}"
  | versionBelowMinimum name version minimum =>
    s!"Key {name} version {version} is below the minimum decryption version {minimum}"
  | versionMissing name version => s!"Key {name} has no version {version}"
  | unwrappedNotText => "Unwrapped key is not valid UTF-8"
  | notWrapped => "Transit wrapper cannot unwrap an unencrypted key"
  | foreignKey algorithm keyId name =>
    s!"Key wrapped by {algorithm}/{keyId} is not handled by transit key {name}"
  | notUnencryptedAes => "Key is not an unencrypted AES key"
  | noWrapperSupports wrappers keys =>
    s!"None of {wrappers} wrappers supports any of {keys} stored keys"

/-! ## Contexts -/

/-- Why stored bytes do not describe how a content is encrypted. -/
inductive ContextError
  | reported (text : String)
  | size (expected actual : Nat)
  | tooShort (actual : Nat)
  | declaredLength (declared total : Nat)
  | emptyWrappedKey
  | wrappedKeyNotText
  | storedIvSize (actual : Nat)
  deriving DecidableEq, Repr

/-- The wording of a context failure. -/
def ContextError.message : ContextError → String
  | reported text => text
  | size expected actual => s!"Expected {expected} bytes, got {actual}"
  | tooShort actual => s!"Context of {actual} bytes is shorter than the minimum 16"
  | declaredLength declared total =>
    s!"Declared wrapped key length {declared} does not fit a {total} byte context"
  | emptyWrappedKey => "Empty wrapped key"
  | wrappedKeyNotText => "Wrapped key is not valid UTF-8"
  | storedIvSize actual => s!"Stored IV is {actual} bytes, expected 16"

/-! ## Configuration -/

/-- Why settings, sizes of keys or layouts do not fit. -/
inductive ConfigError
  | reported (text : String)
  | keySize (actual : Nat)
  | sealingKeySize (actual : Nat)
  | nonceSize (actual : Nat)
  | ivSize (actual : Nat)
  | wrappedKeySize (actual expected : Nat)
  | wrappedKeyTooLarge
  | fixedLength (text : String) (cause : Decimal.Malformed)
  | unknownFormat (text : String)
  | keyBits (text : String) (cause : Decimal.Malformed)
  | unsupportedKeyBits (bits : Nat)
  | emptyKeyName
  | zeroWrappedKeyLength
  | noWrappers
  deriving DecidableEq, Repr

/-- The wording of a configuration failure. -/
def ConfigError.message : ConfigError → String
  | reported text => text
  | keySize actual => s!"Invalid AES key size: {actual} bytes"
  | sealingKeySize actual => s!"Invalid key size: expected 32, got {actual}"
  | nonceSize actual => s!"Invalid nonce size: expected 12, got {actual}"
  | ivSize actual => s!"Invalid IV size: expected 16, got {actual}"
  | wrappedKeySize actual expected =>
    s!"Wrapped key is {actual} bytes but the context layout expects {expected}"
  | wrappedKeyTooLarge => "Wrapped key too large for context"
  | fixedLength text cause => s!"Invalid fixed context length '{text}': {cause.message}"
  | unknownFormat text =>
    s!"Unknown context format '{text}', expected 'fixed:<len>' or 'length-prefixed'"
  | keyBits text cause => s!"Invalid ENVELOPE_KEY_BITS '{text}': {cause.message}"
  | unsupportedKeyBits bits => s!"Unsupported AES key size: {bits} bits"
  | emptyKeyName => "Default key name must not be empty"
  | zeroWrappedKeyLength => "Fixed context layout needs a non-zero wrapped key length"
  | noWrappers => "No data key wrappers given"

/-! ## Records -/

/-- Why bytes are not a record or a list. -/
inductive RecordError
  | reported (text : String)
  | fieldNotText (cause : Utf8.Malformed)
  | fieldCount (marker : Char) (expected declared : Nat)
  | fieldOverrun (name : String) (declared remaining : Nat)
  | trailing (count : Nat) (marker : Char)
  | elementOverrun (declared remaining : Nat)
  | shortMarker
  | shortLength
  | negativeLength (length : Int)
  | unknownVariant
  | notKeyList
  deriving DecidableEq, Repr

/-- The wording of a record failure. -/
def RecordError.message : RecordError → String
  | reported text => text
  | fieldNotText cause => s!"Invalid UTF-8 in string field: {cause.message}"
  | fieldCount marker expected declared =>
    s!"Record '{marker}' has {expected} fields, data declares {declared}"
  | fieldOverrun name declared remaining =>
    s!"Field '{name}' declares {declared} bytes but only {remaining} remain"
  | trailing count marker => s!"{count} trailing bytes after record '{marker}'"
  | elementOverrun declared remaining =>
    s!"List element declares {declared} bytes but only {remaining} remain"
  | shortMarker => "Data too short for a marker"
  | shortLength => "Data too short for a length"
  | negativeLength length => s!"Negative length {length}"
  | unknownVariant => "Data does not match any stored key variant"
  | notKeyList => "Data is not a key list"

/-! ## Ranges -/

/-- What is wrong with a range request. -/
inductive RangeDefect
  | unit
  | severalRanges
  | missingDash
  | suffixWithoutLength
  | endPrecedesStart
  | notDigits
  | tooLarge
  deriving DecidableEq, Repr

/-- The wording of a defect of a range request. -/
def RangeDefect.message : RangeDefect → String
  | unit => "expected a 'bytes=' range"
  | severalRanges => "multiple ranges are not supported"
  | missingDash => "missing '-'"
  | suffixWithoutLength => "suffix range needs the content length"
  | endPrecedesStart => "end precedes start"
  | notDigits => "positions must be decimal digits"
  | tooLarge => "position out of range"

/-- Why there is no range of bytes. -/
inductive RangeError
  | reported (text : String)
  | endPrecedesStart (last start : Nat)
  | request (header : String) (defect : RangeDefect)
  deriving DecidableEq, Repr

/-- The wording of a range failure. -/
def RangeError.message : RangeError → String
  | reported text => text
  | endPrecedesStart last start => s!"Range end {last} precedes start {start}"
  | request header defect => s!"'{header}': {defect.message}"

/-! ## All of them -/

/-- Why an operation on envelopes fails. -/
inductive EnvelopeError
  | keyManagement (cause : KeyManagementError)
  | corruptedContext (cause : ContextError)
  | config (cause : ConfigError)
  | record (cause : RecordError)
  | invalidRange (cause : RangeError)
  | stream (cause : StreamError)
  deriving DecidableEq, Repr

namespace EnvelopeError

/-- The wording of a failure without the name of its group. -/
def detail : EnvelopeError → String
  | keyManagement cause => cause.message
  | corruptedContext cause => cause.message
  | config cause => cause.message
  | record cause => cause.message
  | invalidRange cause => cause.message
  | stream cause => cause.message

/-- The wording of a failure. -/
def message : EnvelopeError → String
  | keyManagement cause => s!"Key management error: {cause.message}"
  | corruptedContext cause => s!"Corrupted encryption context: {cause.message}"
  | config cause => s!"Configuration error: {cause.message}"
  | record cause => s!"Codec error: {cause.message}"
  | invalidRange cause => s!"Invalid range: {cause.message}"
  | stream cause => s!"I/O error: {cause.message}"

/-- A failure as the reader of a stream sees it: a stream's own failure as it is, data
that does not fit as invalid data, a bad range as invalid input. -/
def toStreamError : EnvelopeError → StreamError
  | stream cause => cause
  | error@(corruptedContext _) => ⟨.invalidData, error.message⟩
  | error@(record _) => ⟨.invalidData, error.message⟩
  | error@(invalidRange _) => ⟨.invalidInput, error.message⟩
  | error => ⟨.other, error.message⟩

end EnvelopeError

/-! ## Programming errors -/

/-- A broken promise of the code that calls a codec.  It is no failure of the data and
no operation handles it. -/
inductive Defect
  /-- A field wrote another number of bytes than it declared. -/
  | fieldWrote (name : String) (written declared : Nat)
  /-- A field read another number of bytes than it was given. -/
  | fieldRead (name : String) (taken declared : Nat)
  /-- A record marker beyond the characters of two bytes. -/
  | wideMarker (marker : Char)
  /-- A length that the four-byte form cannot hold. -/
  | lengthTooLarge (length : Nat)
  /-- A field that was asked to read more than there is. -/
  | shortInput
  deriving DecidableEq, Repr

/-- The wording of a defect. -/
def Defect.message : Defect → String
  | fieldWrote name written declared =>
    s!"field '{name}' wrote {written} bytes but declared {declared}"
  | fieldRead name taken declared =>
    s!"field '{name}' read {taken} bytes but declared {declared}"
  | wideMarker marker => s!"marker '{marker}' does not fit in two bytes"
  | lengthTooLarge length => s!"length {length} exceeds the codec's 32-bit limit"
  | shortInput => "field read beyond the end of the data"

end KeyEnvelope
