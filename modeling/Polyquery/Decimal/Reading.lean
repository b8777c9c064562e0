/-!
# Floating-Point Numbers from Decimal Parts

A decimal in a text is a significand and a power of ten. The value is one
rounded significand and then one multiplication or division by a rounded power
of ten; a power below the smallest one that can be represented is taken in
steps. This is not the correctly rounded value of the decimal: it may miss it
in the last place, and readers that follow the rule miss it in the same way.

## Main definitions

* `greatestPower`: The greatest power of ten that can be represented.
* `scaleDown`: Division by a power of ten in steps.
* `scaled?`: The value of a significand and a power of ten, if it is finite.
-/

namespace Polyquery.Decimal

/-- The exponent of the greatest power of ten among the finite numbers. -/
def greatestPower : Nat := 308

/-- The power of ten with the given exponent, rounded. -/
def powerOfTen (exponent : Nat) : Float :=
  Float.ofScientific 1 false exponent

/-- Division by `10 ^ exponent`, in steps of the greatest power. A quotient that has
    become zero stays zero, so the remaining steps are left out. -/
def scaleDown (x : Float) (exponent : Nat) : Float :=
  if exponent ≤ greatestPower then x / powerOfTen exponent
  else if x == 0 then x
  else scaleDown (x / powerOfTen greatestPower) (exponent - greatestPower)
termination_by exponent
decreasing_by simp only [greatestPower] at *; omega

/-- The value of `significand * 10 ^ exponent` with a sign, and nothing when it is not finite. -/
def scaled? (negative : Bool) (significand : Nat) (exponent : Int) : Option Float :=
  let base := Float.ofNat significand
  let magnitude : Option Float :=
    if exponent < 0 then some (scaleDown base exponent.natAbs)
    -- Zero stays zero under every power, also one that cannot be represented.
    else if base == 0 then some base
    else if greatestPower < exponent.toNat then none
    else
      let product := base * powerOfTen exponent.toNat
      if product.isInf then none else some product
  magnitude.map fun x => if negative then -x else x

end Polyquery.Decimal
