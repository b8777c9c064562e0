import Polyquery.Decimal.Binary

/-!
# The Shortest Decimal that Reads Back

The text of a floating-point number has the fewest digits that still round to
it. For one digit, then two, and so on up to seventeen, the two neighbours of
the value on the grid of decimals with that many digits are tested against the
interval of the value. The first grid with a hit wins, and of two hits the
nearer one. It is enough to look at the two neighbours: an interval around the
value that holds any point of a grid holds one of them.

When both neighbours are equally near, the `Tie` given by the caller decides.

## Main definitions

* `Tie`: Which of two equally near decimals is taken.
* `Digits`: The digits of a decimal and the power of ten of the first one.
* `digitCount`: The number of decimal digits of a natural number.
* `decimalExponent`: The power of ten of the first digit of a fraction.
* `onGrid?`: The point of a grid that stands for a value, if there is one.
* `shortest`: The fewest digits that read back.
-/

namespace Polyquery.Decimal

/-- Which of two equally near neighbours is taken. -/
inductive Tie where
  /-- The one whose last digit is even. -/
  | toEven
  /-- The larger one. -/
  | up
  deriving Repr, DecidableEq

/-- A positive decimal `d₁.d₂d₃… * 10 ^ exponent`, written without trailing zeros. -/
structure Digits where
  digits : List Char
  exponent : Int
  deriving Repr, DecidableEq

/-- The decimal digits of a natural number, without leading zeros. -/
def digitsOf (n : Nat) : List Char :=
  Nat.toDigits 10 n

/-- The number of decimal digits of a natural number. -/
def digitCount (n : Nat) : Nat :=
  (digitsOf n).length

/-- The power of ten of the first digit of the positive fraction `num / den`. -/
def decimalExponent (num den : Nat) : Int :=
  if den ≤ num then Int.ofNat (digitCount (num / den)) - 1
  else
    -- The quotient fixes the exponent up to one: the fraction lies between two powers of ten.
    let places := digitCount (den / num)
    if den ≤ num * Nat.pow 10 (places - 1) then -Int.ofNat (places - 1) else -Int.ofNat places

/-- The point `k` of the grid of multiples of `10 ^ step` that stands for a value: a
    neighbour of the value that lies in its interval, the nearer one when both do. -/
def onGrid? (tie : Tie) (i : Interval) (step : Int) : Option Nat :=
  let scale := Nat.pow 10 (-step).toNat
  let unit := i.denominator * Nat.pow 10 step.toNat
  let below := i.value * scale / unit
  let above := below + 1
  let inside (k : Nat) : Bool :=
    if i.closed then i.lower * scale ≤ k * unit && k * unit ≤ i.upper * scale
    else i.lower * scale < k * unit && k * unit < i.upper * scale
  -- Distances to the two neighbours, over the same denominator.
  let toBelow := i.value * scale - below * unit
  let toAbove := above * unit - i.value * scale
  match inside below, inside above with
  | false, false => none
  | true, false => some below
  | false, true => some above
  | true, true =>
    if toBelow < toAbove then some below
    else if toAbove < toBelow then some above
    else match tie with
      | .up => some above
      | .toEven => some (if below % 2 = 0 then below else above)

/-- The digits of `k * 10 ^ step`, the trailing zeros left out. -/
def Digits.ofGrid (k : Nat) (step : Int) : Digits :=
  let digits := digitsOf k
  { digits := (digits.reverse.dropWhile (· == '0')).reverse
    exponent := step + Int.ofNat digits.length - 1 }

/-- The hit on the first grid that has one, starting with `count` digits and trying `more` grids. -/
def firstHit (tie : Tie) (i : Interval) (exponent : Int) : (count more : Nat) → Digits
  -- Never needed: seventeen digits always read back.
  | count, 0 => Digits.ofGrid (i.value / i.denominator) (exponent - Int.ofNat count)
  | count, more + 1 =>
    let step := exponent - Int.ofNat count + 1
    match onGrid? tie i step with
    | some k => Digits.ofGrid k step
    | none => firstHit tie i exponent (count + 1) more

/-- The fewest digits that read back as a magnitude. Zero has the single digit zero. -/
def shortest (tie : Tie) (b : Binary) : Digits :=
  if b.mantissa = 0 then ⟨['0'], 0⟩
  else
    let i := b.interval
    firstHit tie i (decimalExponent i.value i.denominator) 1 17

end Polyquery.Decimal
