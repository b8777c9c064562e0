/-!
# Floating-Point Values as Integers Times Powers of Two

A finite floating-point number is a whole number times a power of two. Taken
apart like this its text can be found by exact arithmetic on natural numbers,
and nothing has to be known about the operations on floating-point numbers
themselves.

The reals that round to a value form an interval. It reaches half a unit to
either side, except that below a power of two the values lie twice as dense,
so there the lower half is half as long. The ends belong to the interval when
the mantissa is even, because ties go to even.

## Main definitions

* `Binary`: A magnitude `mantissa * 2 ^ exponent` with a sign.
* `Binary.ofFloat?`: A finite floating-point number taken apart.
* `Interval`: A value with the bounds of its interval over a common
  denominator.
* `Binary.interval`: The interval of reals that round to a value.
-/

namespace Polyquery.Decimal

/-- A finite floating-point number: a sign and the magnitude `mantissa * 2 ^ exponent`. -/
structure Binary where
  negative : Bool
  mantissa : Nat
  exponent : Int
  deriving Repr, DecidableEq

/-- The bit above the 52 bits of a fraction, which all but the smallest numbers have. -/
def hiddenBit : Nat := 0x10000000000000

/-- The parts of a finite number, and nothing for an infinity or for what is not a number. -/
def Binary.ofFloat? (x : Float) : Option Binary :=
  let bits := x.toBits.toNat
  let negative := bits / 0x8000000000000000 = 1
  let biased := bits / hiddenBit % 0x800
  let fraction := bits % hiddenBit
  if biased = 2047 then none
  else if biased = 0 then some ⟨negative, fraction, -1074⟩
  else some ⟨negative, hiddenBit + fraction, Int.ofNat biased - 1075⟩

/-- A positive value and the ends of the interval around it, all over one denominator. -/
structure Interval where
  value : Nat
  lower : Nat
  upper : Nat
  denominator : Nat
  /-- Whether the ends belong to the interval. -/
  closed : Bool
  deriving Repr, DecidableEq

/-- The reals that round to a positive magnitude. The three numbers are taken in
    quarters of the unit in the last place, so that halves of either length are whole. -/
def Binary.interval (b : Binary) : Interval :=
  let quarter : Int := b.exponent - 2
  let scale := Nat.pow 2 quarter.toNat
  -- Below a power of two the next value is half as far away.
  let below := if b.mantissa = hiddenBit ∧ -1074 < b.exponent then 1 else 2
  { value := 4 * b.mantissa * scale
    lower := (4 * b.mantissa - below) * scale
    upper := (4 * b.mantissa + 2) * scale
    denominator := Nat.pow 2 (-quarter).toNat
    closed := b.mantissa % 2 = 0 }

end Polyquery.Decimal
