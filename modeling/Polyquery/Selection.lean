import Polyquery.Expression
import Polyquery.Native

/-!
# Selections

The columns of a select and of a group-by: a list of property names and
expressions, names first, or a native piece. A result column is named after
the alias of its expression, and a bare property without an alias after its
path. A call without an alias has no name.

## Main definitions

* `ExpressionList`: Names and expressions.
* `Selection`: A list or a native piece.
* `Selection.expressions`: The expressions that a selection stands for.
* `Selection.columnNames`: The names of the result columns.
-/

namespace Polyquery

/-- Property names and expressions. The names come first. -/
structure ExpressionList where
  names : List String
  expressions : List Expression
  deriving Repr

namespace ExpressionList

/-- The list of names and expressions, unless a name is blank. -/
def of (names : List String) (expressions : List Expression) :
    Except ValidationError ExpressionList :=
  if names.any Text.isBlank then .error .emptyPropertyPath else .ok ⟨names, expressions⟩

/-- Whether a list has no item. -/
def isEmpty (list : ExpressionList) : Bool :=
  list.names.isEmpty && list.expressions.isEmpty

/-- The items as expressions. -/
def effective (list : ExpressionList) : List Expression :=
  list.names.map (.property · none) ++ list.expressions

/-- Equality of lists. -/
def same (a b : ExpressionList) : Bool :=
  a.names == b.names && Expression.sameList a.expressions b.expressions

end ExpressionList

/-- The columns of a select or a group-by. -/
inductive Selection where
  | items (list : ExpressionList)
  | native (piece : Native)
  deriving Repr

/-- The name of the result column of an expression. -/
def Expression.columnName (e : Expression) : Except CompileError String :=
  match e.alias?, e.path? with
  | some label, _ => .ok label
  | none, some path => .ok path
  | none, none => .error (.missingAlias e.text)

namespace Selection

/-- Whether a selection has no columns. -/
def isEmpty : Selection → Bool
  | .items list => list.isEmpty
  | .native _ => false

/-- The expressions of a selection; a native piece has none that can be looked at. -/
def expressions : Selection → List Expression
  | .items list => list.effective
  | .native _ => []

/-- The names of the result columns, in order. -/
def columnNames (selection : Selection) : Except CompileError (List String) :=
  selection.expressions.mapM Expression.columnName

/-- Equality of selections. -/
def same : Selection → Selection → Bool
  | .items a, .items b => a.same b
  | .native a, .native b => a.same b
  | _, _ => false

end Selection

end Polyquery
