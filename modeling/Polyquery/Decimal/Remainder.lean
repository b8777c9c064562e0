import Polyquery.Decimal.Binary

/-!
# The Remainder of a Division

The remainder of two floating-point numbers after the quotient has been cut to
a whole number. It bears the sign of the dividend. Over a common power of two
the remainder is one of natural numbers, and it is again a floating-point
number, so nothing is rounded.

## Main definitions

* `remainder`: The remainder of two numbers.
-/

namespace Polyquery.Decimal

/-- The remainder of two magnitudes, as a mantissa and an exponent. -/
def remainderParts (a b : Binary) : Nat × Int :=
  let exponent := min a.exponent b.exponent
  let dividend := a.mantissa * Nat.pow 2 (a.exponent - exponent).toNat
  let divisor := b.mantissa * Nat.pow 2 (b.exponent - exponent).toNat
  (dividend % divisor, exponent)

/-- The remainder of two finite numbers, of which the second one is not zero. -/
def remainder (x y : Float) : Float :=
  match Binary.ofFloat? x, Binary.ofFloat? y with
  | some a, some b =>
    let (mantissa, exponent) := remainderParts a b
    -- The mantissa is below that of the divisor, so both steps are exact.
    let magnitude := Float.scaleB (Float.ofNat mantissa) exponent
    if a.negative then -magnitude else magnitude
  | _, _ => 0.0 / 0.0

end Polyquery.Decimal
