import Polyquery.Expression
import Polyquery.Native

/-!
# Sort Keys

The keys by which the rows of a result are ordered: an expression with a
direction, or a native piece.

## Main definitions

* `SimpleSort`, `SortKey`: The keys.
* `SimpleSort.ofParts`: A key given by a property name or by an expression.
-/

namespace Polyquery

/-- An expression to sort by. -/
structure SimpleSort where
  expression : Expression
  direction : Direction
  deriving Repr

/-- A key of the order of rows. -/
inductive SortKey where
  | simple (key : SimpleSort)
  | native (piece : Native)
  deriving Repr

/-- The key whose expression is given as a property name or as an expression. -/
def SimpleSort.ofParts (name : Option String) (expression : Option Expression)
    (direction : Direction) : Except ValidationError SimpleSort :=
  (Expression.ofEither .sort name expression).map (⟨·, direction⟩)

namespace SortKey

/-- Equality of keys. -/
def same : SortKey → SortKey → Bool
  | .simple a, .simple b => a.expression.same b.expression && a.direction == b.direction
  | .native a, .native b => a.same b
  | _, _ => false

/-- Equality of two lists of keys. -/
def sameList : List SortKey → List SortKey → Bool
  | [], [] => true
  | a :: as, b :: bs => a.same b && sameList as bs
  | _, _ => false

end SortKey

end Polyquery
