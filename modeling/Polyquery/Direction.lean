/-!
# Directions of an Ordering

## Main definitions

* `Direction`: Smallest first or greatest first.
-/

namespace Polyquery

/-- The direction in which rows are put. -/
inductive Direction where
  | ascending
  | descending
  deriving Repr, DecidableEq

namespace Direction

/-- The word for a direction. -/
def name : Direction → String
  | ascending => "ASC"
  | descending => "DESC"

/-- The directions by their words. -/
def choices : List (String × Direction) :=
  [("ASC", ascending), ("DESC", descending)]

/-- An ordering read in a direction. -/
def apply : Direction → Ordering → Ordering
  | ascending, ordering => ordering
  | descending, ordering => ordering.swap

end Direction

end Polyquery
