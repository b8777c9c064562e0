import Polyquery.Memory.Order

/-!
# Aggregates of Values

What the aggregate functions yield on the values of a group, from which nulls
have been removed.

The sum of whole numbers is whole as long as all partial sums fit into 64
signed bits; any other sum and every average is a floating-point number.
Values that are no numbers do not take part in a sum, but they keep it from
being whole. The least and the greatest value are found from left to right,
and a value replaces the best one so far only if it is strictly better.

## Main definitions

* `Aggregate.count`, `Aggregate.sum`, `Aggregate.average`,
  `Aggregate.extreme`: The aggregates.
-/

namespace Polyquery.Aggregate

/-- The number of values. -/
def count (values : List Json) : Json :=
  .ofNat values.length

/-- The sum of whole numbers from left to right, as long as it fits into 64 signed bits. -/
def wholeSum (start : Int) : List Int → Option Int
  | [] => some start
  | n :: rest =>
    let total := start + n
    if minInt64 ≤ total ∧ total ≤ maxInt64 then wholeSum total rest else none

/-- The sum of floating-point numbers from left to right. It starts with the zero that
    changes no number it is added to. -/
def floatSum (values : List Float) : Float :=
  values.foldl (· + ·) (-0.0)

/-- The sum of the numbers among values; of no values it is null. -/
def sum (values : List Json) : Json :=
  if values.isEmpty then .null
  else
    match values.mapM Json.toInt64? with
    -- A whole sum that overflows is summed up again in floating point.
    | some numbers =>
      match wholeSum 0 numbers with
      | some total => .ofInt total
      | none => .ofFloat (floatSum (values.filterMap Json.toFloat?))
    | none => .ofFloat (floatSum (values.filterMap Json.toFloat?))

/-- The mean of the numbers among values. -/
def average (values : List Json) : Json :=
  match values.filterMap Json.toFloat? with
  | [] => .null
  | numbers => .ofFloat (floatSum numbers / Float.ofNat numbers.length)

/-- The better one of two values, where `wanted` is how a better value compares with
    the best one so far. -/
def better (wanted : Ordering) (best value : Json) : Json :=
  if compareValues value best == some wanted then value else best

/-- The least or the greatest of values. -/
def extreme (wanted : Ordering) : List Json → Json
  | [] => .null
  | first :: rest => rest.foldl (better wanted) first

end Polyquery.Aggregate
