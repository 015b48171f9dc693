import KeyEnvelope.Error
import KeyEnvelope.Text.Blank

/-!
# Wrapped texts

The form in which the transit service hands out what it wraps: the name of the scheme,
the version of the key behind a `v`, and the payload, between colons.
-/

namespace KeyEnvelope

/-- What the transit service hands out: a payload and the key version that made it. -/
structure TransitCiphertext where
  version : Nat
  payload : List Char
  deriving DecidableEq, Repr

namespace TransitCiphertext

/-- The first part of every wrapped text. -/
def scheme : List Char := "vault".toList

/-- The largest key version that a wrapped text can name. -/
def maxVersion : Nat := UInt32.size - 1

/-- The written form of a wrapped text. -/
def render (ciphertext : TransitCiphertext) : String :=
  String.ofList (scheme ++ ':' :: 'v' :: (toString ciphertext.version).toList ++
    ':' :: ciphertext.payload)

/-- The version that the middle part of a wrapped text names. -/
def parseVersion (part : List Char) : Except KeyManagementError Nat :=
  match part with
  | 'v' :: number =>
    (Decimal.read maxVersion number).mapError fun _ => .versionText (String.ofList part)
  | _ => .error (.versionText (String.ofList part))

/-- The wrapped text that a text is the written form of. -/
def parse (text : String) : Except KeyManagementError TransitCiphertext := do
  let some (first, rest) := Text.cut? ':' text.toList | throw .malformedCiphertext
  let some (middle, payload) := Text.cut? ':' rest | throw .malformedCiphertext
  if first ≠ scheme then
    throw (.scheme (String.ofList first))
  return ⟨← parseVersion middle, payload⟩

/-- The key version that a wrapped text names. -/
def parseKeyVersion (text : String) : Except KeyManagementError Nat :=
  (parse text).map version

end TransitCiphertext

end KeyEnvelope
