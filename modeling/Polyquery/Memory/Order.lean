import Polyquery.Json.Basic
import Polyquery.Operator
import Polyquery.Text.Search

/-!
# The Order of Values

Two values can be compared when both are numbers, both are strings or both are
truth values. Anything else, null included, is in no order with anything.
Whole numbers are compared exactly; once a floating-point number or a number
beyond 64 signed bits takes part, the comparison is one of floating-point
numbers. Strings are compared by code points.

Sorting needs an order on all values: there null is greater than every other
value, and values that cannot be compared count as equal.

## Main definitions

* `compareValues`: The order of two values, if they have one.
* `equalValues`: Whether two values are equal in that order.
* `Operator.admits`: Whether an operator holds of two values in some order.
* `sortOrder`: The order for sorting.
* `Operator.matchesText`: The pattern operators on texts.
-/

namespace Polyquery

/-- The order of two floating-point numbers; what is not a number is in no order. -/
def compareFloats (a b : Float) : Option Ordering :=
  if a < b then some .lt
  else if b < a then some .gt
  else if a == b then some .eq
  else none

/-- The order of two numbers. -/
def compareNumbers (a b : Number) : Option Ordering :=
  match a.toInt64?, b.toInt64? with
  | some i, some j => some (compare i j)
  | _, _ => compareFloats a.toFloat b.toFloat

/-- The order of two values of one kind. -/
def compareValues : Json → Json → Option Ordering
  | .number a, .number b => compareNumbers a b
  | .string a, .string b => some (compare a b)
  | .bool a, .bool b => some (compare a b)
  | _, _ => none

/-- Whether two values are of one kind and equal. -/
def equalValues (a b : Json) : Bool :=
  compareValues a b == some .eq

/-- Whether a comparison operator holds of values in the given order. -/
def Operator.admits : Operator → Ordering → Bool
  | .greaterThan, ordering => ordering == .gt
  | .greaterThanEquals, ordering => ordering != .lt
  | .lesserThan, ordering => ordering == .lt
  | .lesserThanEquals, ordering => ordering != .gt
  | _, ordering => ordering == .eq

/-- Whether a comparison operator holds of two values. It holds of no values that are
    in no order. -/
def Operator.compares (op : Operator) (a b : Json) : Bool :=
  match compareValues a b with
  | some ordering => op.admits ordering
  | none => false

/-- The order for sorting: null comes after every other value, and values in no order
    count as equal. -/
def sortOrder (a b : Json) : Ordering :=
  match a.isNull, b.isNull with
  | true, true => .eq
  | true, false => .gt
  | false, true => .lt
  | false, false => (compareValues a b).getD .eq

/-- Whether a text starts with, ends with or contains another one. -/
def Operator.matchesText (op : Operator) (text needle : List Char) : Bool :=
  match op with
  | .startsWith => needle.isPrefixOf text
  | .endsWith => needle.isSuffixOf text
  | _ => Text.contains needle text

end Polyquery
