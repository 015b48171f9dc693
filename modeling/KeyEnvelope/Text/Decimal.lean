/-!
# Unsigned decimal numbers

The reading of a number that must not exceed a bound: digits after an optional plus
sign.  A defect is reported at the leftmost place where there is one, so a number that
has grown too large is called so even if something else than a digit follows.
-/

namespace KeyEnvelope.Decimal

/-- Why a text is no number in the bound. -/
inductive Malformed
  | empty
  | invalidDigit
  | tooLarge
  deriving DecidableEq, Repr

/-- The wording of a defect. -/
def Malformed.message : Malformed → String
  | empty => "cannot parse integer from empty string"
  | invalidDigit => "invalid digit found in string"
  | tooLarge => "number too large to fit in target type"

/-- The value of a digit. -/
def digit? (c : Char) : Option Nat :=
  if '0' ≤ c ∧ c ≤ '9' then some (c.toNat - '0'.toNat) else none

/-- The number that digits continue, as long as it does not exceed the bound. -/
def readDigits (bound : Nat) : (value : Nat) → List Char → Except Malformed Nat
  | value, [] => .ok value
  | value, c :: rest =>
    match digit? c with
    | none => .error .invalidDigit
    | some d =>
      if bound < value * 10 + d then .error .tooLarge else readDigits bound (value * 10 + d) rest

/-- The number up to `bound` that a text spells. -/
def read (bound : Nat) (text : List Char) : Except Malformed Nat :=
  match text with
  | [] => .error .empty
  | ['+'] => .error .invalidDigit
  | '+' :: digits => readDigits bound 0 digits
  | digits => readDigits bound 0 digits

end KeyEnvelope.Decimal
