import Polyquery.Decimal.Shortest

/-!
# The Written Form of a Floating-Point Number

The digits of a number are a matter of `Decimal.Shortest`. A layout holds what
is left to decide: where positional notation ends, whether a whole number
keeps a fraction, and which of two equally near decimals is chosen. Two
layouts are in use, one for JSON text and one for everything else.

## Main definitions

* `Layout`: The decisions of a written form.
* `Layout.json`: The form inside JSON text.
* `Layout.plain`: The form inside statements, expression strings and messages.
* `Layout.write`: The text of a number in a layout.
-/

namespace Polyquery.Decimal

/-- The decisions that the written form of a number leaves open. -/
structure Layout where
  /-- The least and greatest power of ten of the first digit that is written
      positionally, or nothing when every number is. -/
  positional : Option (Int × Int)
  /-- Whether a whole number is written with `.0`. -/
  wholeFraction : Bool
  /-- Which of two equally near decimals is written. -/
  tie : Tie
  /-- The texts for what is not finite. -/
  notANumber : String
  infinity : String
  negativeInfinity : String
  deriving Repr

/-- Inside JSON text a number is positional from `0.00001` up to sixteen places before
    the point, always with a fraction, and has a signed exponent elsewhere. JSON has
    no infinities. -/
def Layout.json : Layout :=
  ⟨some (-5, 15), true, .toEven, "null", "null", "null"⟩

/-- Outside JSON text a number never has an exponent, and a whole number has no fraction. -/
def Layout.plain : Layout :=
  ⟨none, false, .up, "NaN", "inf", "-inf"⟩

/-- Digits written with a point after the place of the units. -/
def Layout.writePositional (l : Layout) (d : Digits) : List Char :=
  if d.exponent < 0 then
    ['0', '.'] ++ List.replicate (-d.exponent - 1).toNat '0' ++ d.digits
  else
    -- The whole part takes as many digits as it has places and is filled with zeros.
    let places := d.exponent.toNat + 1
    let whole := d.digits.take places ++ List.replicate (places - d.digits.length) '0'
    match d.digits.drop places with
    | [] => whole ++ if l.wholeFraction then ['.', '0'] else []
    | fraction => whole ++ '.' :: fraction

/-- Digits written with one place before the point and an exponent. -/
def writeScientific (d : Digits) : List Char :=
  let mantissa := match d.digits with
    | first :: second :: rest => first :: '.' :: second :: rest
    | digits => digits
  let sign := if d.exponent < 0 then '-' else '+'
  mantissa ++ 'e' :: sign :: digitsOf d.exponent.natAbs

/-- Digits written as the layout says. -/
def Layout.writeDigits (l : Layout) (d : Digits) : List Char :=
  match l.positional with
  | none => l.writePositional d
  | some (least, greatest) =>
    if least ≤ d.exponent ∧ d.exponent ≤ greatest then l.writePositional d else writeScientific d

/-- The text of a number. The sign of a negative zero is written. -/
def Layout.write (l : Layout) (x : Float) : String :=
  match Binary.ofFloat? x with
  | some b =>
    let text := l.writeDigits (shortest l.tie b)
    String.ofList (if b.negative then '-' :: text else text)
  | none =>
    if x.isNaN then l.notANumber else if 0 < x then l.infinity else l.negativeInfinity

end Polyquery.Decimal
