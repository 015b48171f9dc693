import KeyEnvelope.Cipher.Nonce
import KeyEnvelope.Error

/-!
# Contexts of encryption

What is stored beside a content so that it can be decrypted: the wrapped data key and
the nonce.  There are two layouts.  In a fixed one every wrapped key has the same known
length; otherwise four bytes in front state it.  Only contexts with a wrapped key can be
read back.

Reading works with lengths in words and with cuts at positions of the data (`decode?`).  What
it reads is said without either by `decode`, which is all there is to it as long as a word
holds the length of a context.
-/

namespace KeyEnvelope

/-- How a context is laid out. -/
inductive ContextFormat
  /-- The wrapped key, of a known length, and the nonce. -/
  | fixed (wrappedKeyLength : Nat)
  /-- Four bytes with the length of the wrapped key in front. -/
  | lengthPrefixed
  deriving DecidableEq, Repr

/-- The wrapped data key and the nonce of a content. -/
structure Context where
  wrappedKey : Bytes
  nonce : Nonce
  deriving DecidableEq

namespace Context

/-- The written form of a context. -/
def encode (format : ContextFormat) (context : Context) : Except ConfigError Bytes :=
  let length := context.wrappedKey.length
  match format with
  | .fixed expected =>
    if length = expected then .ok (context.wrappedKey ++ context.nonce.bytes)
    else .error (.wrappedKeySize length expected)
  | .lengthPrefixed =>
    if length < UInt32.size then
      .ok (Bytes.ofNatBE 4 length ++ context.wrappedKey ++ context.nonce.bytes)
    else .error .wrappedKeyTooLarge

/-- The context of a wrapped key and what follows it, which has to be a nonce. -/
def ofParts (wrappedKey rest : Bytes) : Except ContextError Context :=
  if wrappedKey.isEmpty then .error .emptyWrappedKey
  else
    match Nonce.ofBytes? rest with
    | some nonce => .ok ⟨wrappedKey, nonce⟩
    | none => .error (.size (wrappedKey.length + nonceSize) (wrappedKey.length + rest.length))

/-- The context that data is the written form of. -/
def decode (format : ContextFormat) (data : Bytes) : Except ContextError Context :=
  match format with
  | .fixed length =>
    if data.length = length + nonceSize then ofParts (data.take length) (data.drop length)
    else .error (.size (length + nonceSize) data.length)
  | .lengthPrefixed =>
    if data.length < 4 + nonceSize then .error (.tooShort data.length)
    else
      let length := Bytes.toNatBE (data.take 4)
      let rest := data.drop 4
      if rest.length - nonceSize = length then ofParts (rest.take length) (rest.drop length)
      else .error (.declaredLength length data.length)

/-! ## Lengths in words -/

/-- What becomes of a sum of lengths that a word does not hold, which depends on how a program
was built: the program stops, or the sum loses what does not fit. -/
inductive Overflow
  | trapped
  | wrapped
  deriving DecidableEq, Repr

/-- Two lengths together, or nothing if the program stops there. -/
def Overflow.total? (overflow : Overflow) (length other : Nat) : Option Nat :=
  if length + other < UInt64.size then some (length + other)
  else
    match overflow with
    | trapped => none
    | wrapped => some ((length + other) % UInt64.size)

/-- How much longer one length is than another, or nothing if it is shorter. -/
def excess? (length other : Nat) : Option Nat :=
  if other ≤ length then some (length - other) else none

/-- The bytes of data between two positions, or nothing if these are not positions of it in
this order. -/
def cut? (data : Bytes) (first last : Nat) : Option Bytes :=
  if first ≤ last ∧ last ≤ data.length then some ((data.take last).drop first) else none

/-- The context of a wrapped key whose nonce is the end of the data. -/
def ofEnd (wrappedKey data : Bytes) : Option (Except ContextError Context) := do
  if wrappedKey.isEmpty then
    return .error .emptyWrappedKey
  let nonce ← Nonce.ofBytes? (← cut? data (← excess? data.length nonceSize) data.length)
  return .ok ⟨wrappedKey, nonce⟩

/-- The context that data is the written form of, or nothing if the program stops: at a cut
outside the data, or at a length outside a word. -/
def decode? (overflow : Overflow) (format : ContextFormat) (data : Bytes) :
    Option (Except ContextError Context) :=
  match format with
  | .fixed length => do
    let expected ← overflow.total? length nonceSize
    if data.length = expected then
      ofEnd (← cut? data 0 length) data
    else
      return .error (.size expected data.length)
  | .lengthPrefixed =>
    if data.length < 4 + nonceSize then
      return .error (.tooShort data.length)
    else do
      let lead ← cut? data 0 4
      let rest ← cut? data 4 data.length
      if (← excess? rest.length nonceSize) = Bytes.toNatBE lead then
        ofEnd (← cut? rest 0 (Bytes.toNatBE lead)) data
      else
        return .error (.declaredLength (Bytes.toNatBE lead) data.length)

/-! ## Uses -/

/-- The wrapped key as a text, which is what key services take. -/
def wrappedKeyText (context : Context) : Except ContextError String :=
  (Utf8.decode context.wrappedKey).mapError fun _ => .wrappedKeyNotText

/-- The text of a context for diagnosis: the wrapped key shows only its length. -/
def redacted (context : Context) : String :=
  let length := context.wrappedKey.length
  let nonce := Bytes.describe context.nonce.bytes
  s!"EncryptionContext \x7b wrapped_key_len: {length}, nonce: {nonce} \x7d"

end Context

end KeyEnvelope
