import KeyEnvelope.Text.Blank

/-!
# JSON documents

The grammar of JSON, read into a tree that decides nothing about the values yet: a
string whose escapes do not make a text, and a number that no machine word holds, are
kept as such, so that a reader may pass over them where it does not need them.
-/

namespace KeyEnvelope

/-- A number as it is written. -/
structure JsonNumber where
  negative : Bool
  /-- The digits before the point. -/
  whole : List Nat
  /-- The digits behind the point, none if there is no point. -/
  fraction : List Nat
  exponent : Option Int
  deriving DecidableEq, Repr

/-- The number that digits spell. -/
def JsonNumber.ofDigits (digits : List Nat) : Nat :=
  digits.foldl (fun n digit => n * 10 + digit) 0

/-- A value of a JSON document.  Strings, also those that name members, are absent where
escapes name half of a surrogate pair. -/
inductive Json
  | null
  | bool (value : Bool)
  | number (value : JsonNumber)
  | string (text : Option String)
  | array (elements : List Json)
  | object (members : List (Option String × Json))
  deriving Repr

namespace Json

/-! ## Strings -/

/-- The value of a hexadecimal digit. -/
def hexDigit? (c : Char) : Option Nat :=
  if '0' ≤ c ∧ c ≤ '9' then some (c.toNat - '0'.toNat)
  else if 'a' ≤ c ∧ c ≤ 'f' then some (c.toNat - 'a'.toNat + 10)
  else if 'A' ≤ c ∧ c ≤ 'F' then some (c.toNat - 'A'.toNat + 10)
  else none

/-- The code of a one-letter escape. -/
def escape? (c : Char) : Option Nat :=
  match c with
  | '"' => some 0x22
  | '\\' => some 0x5c
  | '/' => some 0x2f
  | 'b' => some 0x8
  | 'f' => some 0xc
  | 'n' => some 0xa
  | 'r' => some 0xd
  | 't' => some 0x9
  | _ => none

/-- The codes of a string up to its closing quote, and what follows.  A code is a code
point, or half of a surrogate pair if it is escaped. -/
def stringCodes : List Char → Option (List Nat × List Char)
  | [] => none
  | '"' :: rest => some ([], rest)
  | '\\' :: 'u' :: a :: b :: c :: d :: rest => do
    let digits ← [a, b, c, d].mapM hexDigit?
    let (codes, rest) ← stringCodes rest
    return (digits.foldl (fun n digit => n * 16 + digit) 0 :: codes, rest)
  | '\\' :: c :: rest => do
    let code ← escape? c
    let (codes, rest) ← stringCodes rest
    return (code :: codes, rest)
  | c :: rest => do
    if c.toNat < 0x20 ∨ c = '\\' then none
    let (codes, rest) ← stringCodes rest
    return (c.toNat :: codes, rest)

/-- The characters of codes, in which surrogates come as pairs. -/
def assemble : List Nat → Option (List Char)
  | [] => some []
  | high :: low :: rest =>
    if 0xd800 ≤ high ∧ high < 0xdc00 then
      if 0xdc00 ≤ low ∧ low < 0xe000 then
        (assemble rest).map
          (Char.ofNat (0x10000 + (high - 0xd800) * 0x400 + (low - 0xdc00)) :: ·)
      else none
    else if 0xdc00 ≤ high ∧ high < 0xe000 then none
    else (assemble (low :: rest)).map (Char.ofNat high :: ·)
  | [code] => if 0xd800 ≤ code ∧ code < 0xe000 then none else some [Char.ofNat code]

/-- A string behind its opening quote, and what follows. -/
def stringBody (input : List Char) : Option (Option String × List Char) :=
  (stringCodes input).map fun (codes, rest) => ((assemble codes).map String.ofList, rest)

/-! ## Numbers -/

/-- The digits at the beginning of the input, at least one, and what follows. -/
def someDigits (input : List Char) : Option (List Nat × List Char) :=
  let digits := (input.takeWhile Char.isDigit).map fun c => c.toNat - '0'.toNat
  if digits.isEmpty then none else some (digits, input.dropWhile Char.isDigit)

/-- The whole part of a number: zero alone, or digits that do not begin with zero. -/
def wholePart (input : List Char) : Option (List Nat × List Char) :=
  match input with
  | '0' :: rest => if (rest.head?.map Char.isDigit).getD false then none else some ([0], rest)
  | _ => someDigits input

/-- The digits behind a decimal point, none if there is no point. -/
def fractionPart (input : List Char) : Option (List Nat × List Char) :=
  match input with
  | '.' :: rest => someDigits rest
  | _ => some ([], input)

/-- The exponent of a number, or nothing if none is written. -/
def exponentPart (input : List Char) : Option (Option Int × List Char) :=
  match input with
  | c :: rest =>
    if c = 'e' ∨ c = 'E' then
      let (sign, rest) : Int × List Char := match rest with
        | '+' :: rest => (1, rest)
        | '-' :: rest => (-1, rest)
        | rest => (1, rest)
      (someDigits rest).map fun (digits, rest) =>
        (some (sign * JsonNumber.ofDigits digits), rest)
    else some (none, input)
  | [] => some (none, [])

/-- A number, and what follows. -/
def numberAt (input : List Char) : Option (JsonNumber × List Char) := do
  let (negative, input) := match input with
    | '-' :: rest => (true, rest)
    | rest => (false, rest)
  let (whole, input) ← wholePart input
  let (fraction, input) ← fractionPart input
  let (exponent, input) ← exponentPart input
  return (⟨negative, whole, fraction, exponent⟩, input)

/-! ## Values -/

/-- The input behind white space, which is narrower in documents than in texts. -/
def skipBlank (input : List Char) : List Char :=
  input.dropWhile fun c => c = ' ' || c = '\n' || c = '\t' || c = '\r'

mutual

/-- The value at the beginning of the input, and what follows.  The fuel bounds the
values, elements and members begun one inside the other. -/
def valueAt (fuel : Nat) (input : List Char) : Option (Json × List Char) :=
  match fuel with
  | 0 => none
  | fuel + 1 =>
    match skipBlank input with
    | '"' :: rest => (stringBody rest).map fun (text, rest) => (.string text, rest)
    | '[' :: rest =>
      match skipBlank rest with
      | ']' :: rest => some (.array [], rest)
      | rest => (elementsAt fuel rest).map fun (elements, rest) => (.array elements, rest)
    | '{' :: rest =>
      match skipBlank rest with
      | '}' :: rest => some (.object [], rest)
      | rest => (membersAt fuel rest).map fun (members, rest) => (.object members, rest)
    | 't' :: rest => (Text.after? "rue".toList rest).map fun rest => (.bool true, rest)
    | 'f' :: rest => (Text.after? "alse".toList rest).map fun rest => (.bool false, rest)
    | 'n' :: rest => (Text.after? "ull".toList rest).map fun rest => (.null, rest)
    | input => (numberAt input).map fun (value, rest) => (.number value, rest)

/-- The elements of an array up to its closing bracket, and what follows. -/
def elementsAt (fuel : Nat) (input : List Char) : Option (List Json × List Char) :=
  match fuel with
  | 0 => none
  | fuel + 1 => do
    let (element, input) ← valueAt fuel input
    match skipBlank input with
    | ']' :: rest => return ([element], rest)
    | ',' :: rest =>
      let (elements, rest) ← elementsAt fuel rest
      return (element :: elements, rest)
    | _ => none

/-- The members of an object up to its closing brace, and what follows. -/
def membersAt (fuel : Nat) (input : List Char) :
    Option (List (Option String × Json) × List Char) :=
  match fuel with
  | 0 => none
  | fuel + 1 =>
    match skipBlank input with
    | '"' :: rest => do
      let (name, rest) ← stringBody rest
      match skipBlank rest with
      | ':' :: rest =>
        let (value, rest) ← valueAt fuel rest
        match skipBlank rest with
        | '}' :: rest => return ([(name, value)], rest)
        | ',' :: rest =>
          let (members, rest) ← membersAt fuel rest
          return ((name, value) :: members, rest)
        | _ => none
      | _ => none
    | _ => none

end

/-- The document that a text is, if it is one. -/
def parse? (text : String) : Option Json :=
  let input := text.toList
  match valueAt (2 * input.length + 1) input with
  | some (value, rest) => if (skipBlank rest).isEmpty then some value else none
  | none => none

end Json

end KeyEnvelope
