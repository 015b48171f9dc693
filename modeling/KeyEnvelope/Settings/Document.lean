import KeyEnvelope.Settings.Basic
import KeyEnvelope.Text.Double
import KeyEnvelope.Text.Json

/-!
# Settings as JSON

Settings are an object of their fields, or the array of the fields in order; fields that
are missing keep their defaults.  The layout of contexts is an object whose member
`kind` tells which layout it is, or an array that begins with the kind.  Members with
other names do not count, but within a layout they have to be values that a machine can
hold.
-/

namespace KeyEnvelope

/-! ## Values that a machine can hold -/

/-- The number that digits continue, as long as it stays a machine word, and the digits
that are left. -/
def JsonNumber.takeWord : (value : Nat) → (digits : List Nat) → Nat × List Nat
  | value, [] => (value, [])
  | value, digit :: digits =>
    if Settings.maxNumber < value * 10 + digit then (value, digit :: digits)
    else takeWord (value * 10 + digit) digits

/-- Whether a number is too large for a double.  Its significand is a machine word: digits
are taken as long as they make one, first those before the point and then those behind it.
What is left before the point counts as zeros, and what is left behind it not at all. -/
def JsonNumber.overflows (number : JsonNumber) : Bool :=
  let (word, zeros) := takeWord 0 number.whole
  let (significand, dropped) := takeWord word number.fraction
  let places := number.fraction.length - dropped.length
  Double.overflows significand (number.exponent.getD 0 + zeros.length - places)

/-- The unsigned machine word that a number is written as. -/
def JsonNumber.word? (number : JsonNumber) : Option Nat :=
  let value := ofDigits number.whole
  if number.fraction.isEmpty && number.exponent.isNone && !number.negative &&
      value ≤ Settings.maxNumber then
    some value
  else none

namespace Json

mutual

/-- Whether a machine can hold a value whose containers are nested at most `depth` deep. -/
def fits (depth : Nat) (value : Json) : Bool :=
  match value with
  | null => true
  | bool _ => true
  | number value => !value.overflows
  | string text => text.isSome
  | array elements =>
    match depth with
    | 0 => false
    | depth + 1 => elementsFit depth elements
  | object members =>
    match depth with
    | 0 => false
    | depth + 1 => membersFit depth members

/-- Whether a machine can hold all elements of an array. -/
def elementsFit (depth : Nat) (elements : List Json) : Bool :=
  match elements with
  | [] => true
  | element :: elements => element.fits depth && elementsFit depth elements

/-- Whether a machine can hold all members of an object. -/
def membersFit (depth : Nat) (members : List (Option String × Json)) : Bool :=
  match members with
  | [] => true
  | (name, value) :: members => name.isSome && value.fits depth && membersFit depth members

end

/-- The values of the members of a name, in order. -/
def valuesOf (members : List (Option String × Json)) (name : String) : List Json :=
  (members.filter fun member => member.1 = some name).map (·.2)

/-- The value of the member of a name, if there is one; several are refused. -/
def single? (members : List (Option String × Json)) (name : String) :
    Option (Option Json) :=
  match valuesOf members name with
  | [] => some none
  | [value] => some (some value)
  | _ => none

/-- The text of a string. -/
def text? : Json → Option String
  | string text => text
  | _ => none

/-- The machine word of a number. -/
def word? : Json → Option Nat
  | number value => value.word?
  | _ => none

end Json

/-! ## Layouts -/

/-- How deep containers may be nested in a document. -/
def Json.maxDepth : Nat := 127

/-- The layout that a value is, in a document in which containers may still be nested
`depth` deep. -/
def ContextFormat.ofJson? (depth : Nat) (value : Json) : Option ContextFormat := do
  if !value.fits depth then none
  match value with
  | .object members =>
    let kind ← (← Json.single? members "kind").bind Json.text?
    if kind = "fixed" then
      let length ← (← Json.single? members "wrapped_key_len").bind Json.word?
      return .fixed length
    else if kind = "length-prefixed" then return .lengthPrefixed
    else none
  | .array [kind, length] =>
    if kind.text? = some "fixed" then return .fixed (← length.word?) else none
  | .array [kind] => if kind.text? = some "length-prefixed" then return .lengthPrefixed else none
  | _ => none

/-- The layout that a JSON text is. -/
def ContextFormat.parseJson? (text : String) : Option ContextFormat :=
  (Json.parse? text).bind (ContextFormat.ofJson? Json.maxDepth)

/-! ## Settings -/

namespace Settings

/-- The settings of fields of which each may be missing. -/
def ofFields? (keyName format bits : Option Json) : Option Settings := do
  let defaults : Settings := {}
  let keyName ← match keyName with
    | some value => value.text?
    | none => some defaults.defaultKeyName
  let format ← match format with
    | some value => ContextFormat.ofJson? (Json.maxDepth - 1) value
    | none => some defaults.contextFormat
  let bits ← match bits with
    | some value => value.word?
    | none => some defaults.keySizeBits
  return ⟨keyName, format, bits⟩

/-- The settings that a JSON text is.  They are not checked for being valid. -/
def parseJson? (text : String) : Option Settings := do
  match ← Json.parse? text with
  | .object members =>
    if members.any fun member => member.1.isNone then none
    ofFields? (← Json.single? members "default_key_name")
      (← Json.single? members "context_format") (← Json.single? members "key_size_bits")
  | .array fields =>
    if 3 < fields.length then none
    ofFields? fields[0]? fields[1]? fields[2]?
  | _ => none

end Settings

end KeyEnvelope
