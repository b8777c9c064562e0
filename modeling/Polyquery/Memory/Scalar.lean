import Polyquery.Decimal.Remainder
import Polyquery.Json.Printer
import Polyquery.Memory.Order
import Polyquery.Text.Blank
import Polyquery.Text.Case

/-!
# Functions of Values

What the functions of a query yield on values. A function whose arguments are
of a wrong kind, or whose result cannot be represented, yields null. Texts are
counted in characters and positions start with one.

## Main definitions

* `Scalar.absolute`, `Scalar.squareRoot`, `Scalar.modulo`: Numbers.
* `Scalar.concatenate`, `Scalar.substring`, `Scalar.locate`, `Scalar.onText`:
  Texts.
* `Scalar.firstPresent`, `Scalar.nullIfEqual`: Choices between values.
-/

namespace Polyquery.Scalar

/-- A whole number, unless it needs more than 64 signed bits. -/
def wholeOrNull (n : Int) : Json :=
  if minInt64 ≤ n ∧ n ≤ maxInt64 then .ofInt n else .null

/-- The absolute value of a number. -/
def absolute (value : Json) : Json :=
  match value.toInt64?, value.toFloat? with
  | some n, _ => wholeOrNull (Int.ofNat n.natAbs)
  | none, some x => .ofFloat x.abs
  | none, none => .null

/-- The square root of a number that is not negative. -/
def squareRoot (value : Json) : Json :=
  match value.toFloat? with
  | some x => if 0.0 ≤ x then .ofFloat x.sqrt else .null
  | none => .null

/-- The remainder of two numbers after a division that cuts towards zero. Whole
    numbers have a whole remainder, unless the division itself leaves 64 signed bits. -/
def modulo (a b : Json) : Json :=
  match a.toInt64?, b.toInt64? with
  | some i, some j =>
    -- The one quotient of whole numbers that leaves 64 bits.
    if j = 0 ∨ (i = minInt64 ∧ j = -1) then .null else .ofInt (Int.tmod i j)
  | _, _ =>
    match a.toFloat?, b.toFloat? with
    | some x, some y => if y == 0.0 then .null else .ofFloat (Decimal.remainder x y)
    | _, _ => .null

/-- The text of a value inside a longer one. -/
def textOf? : Json → Option String
  | .string s => some s
  | .number n => some n.write
  | .bool b => some (if b then "true" else "false")
  | _ => none

/-- The texts of values one after the other. -/
def concatenate (values : List Json) : Json :=
  match values.mapM textOf? with
  | some texts => .string (String.join texts)
  | none => .null

/-- A function of texts as one of values. -/
def onText (f : List Char → Json) : Json → Json
  | .string s => f s.toList
  | _ => .null

/-- A function from text to text as one of values. -/
def mapText (f : List Char → List Char) : Json → Json :=
  onText fun cs => .string (String.ofList (f cs))

/-- The sum of two integers, held within 64 signed bits. -/
def saturatingSum (a b : Int) : Int :=
  max minInt64 (min maxInt64 (a + b))

/-- The characters of a text from a position on, as many as asked for. Positions
    before the first character use up the length. -/
def slice (start length : Int) (cs : List Char) : List Char :=
  -- A negative length counts as zero.
  let stop := saturatingSum start (max length 0)
  let first := max start 1
  (cs.drop (first - 1).toNat).take (stop - first).toNat

/-- The part of a text that begins at a position and has a length. -/
def substring (source start length : Json) : Json :=
  match source, start.toInt64?, length.toInt64? with
  | .string s, some start, some length => .string (String.ofList (slice start length s.toList))
  | _, _, _ => .null

/-- The position of a text in another one, or zero. -/
def locate (needle hay : Json) : Json :=
  match needle, hay with
  | .string needle, .string hay =>
    match Text.position? needle.toList hay.toList with
    | some index => .ofNat (index + 1)
    | none => .ofNat 0
  | _, _ => .null

/-- The first value that is not null. -/
def firstPresent (values : List Json) : Json :=
  (values.find? fun value => !value.isNull).getD .null

/-- The first value, and null when the second one is equal to it. -/
def nullIfEqual (a b : Json) : Json :=
  if equalValues a b then .null else a

end Polyquery.Scalar
