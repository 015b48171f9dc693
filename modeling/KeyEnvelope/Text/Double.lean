/-!
# The range of doubles

Whole numbers as doubles hold them, to 53 significant bits, and the products that lie
beyond all doubles.  Everything is computed on natural numbers.
-/

namespace KeyEnvelope.Double

/-- The number of 53 significant bits that is nearest to a number; of two that are equally
near, the one with the even significand. -/
def nearest (n : Nat) : Nat :=
  let unit := Nat.pow 2 (n.log2 - 52)
  let below := n / unit
  let excess := 2 * (n % unit)
  if unit < excess ∨ (excess = unit ∧ below % 2 = 1) then (below + 1) * unit else below * unit

/-- The smallest number that rounds beyond the largest double. -/
def overflowBound : Nat := Nat.pow 2 1024 - Nat.pow 2 970

/-- Whether a significand times a power of ten lies beyond all doubles, when each of the
two is rounded to a double before they are multiplied. -/
def overflows (significand : Nat) (exponent : Int) : Bool :=
  if significand = 0 then false
  else
    match exponent with
    | .negSucc _ => false
    | .ofNat exponent =>
      308 < exponent || overflowBound ≤ nearest significand * nearest (Nat.pow 10 exponent)

end KeyEnvelope.Double
