import Polyquery.Backend.NativeTable
import Polyquery.Condition.Walk
import Polyquery.Sql.Expression
import Polyquery.Text.Case

/-!
# Conditions in SQL

In SQL a comparison with null is neither true nor false. Where a condition is
to say more about null than that, tests for null are added: an equality is
guarded so that it is false, an inequality is widened so that it is true, and
the contrary of an ordering or a pattern is guarded so that it stays false on
null.

Patterns are matched in lower case on both sides.

## Main definitions

* `Sql.likePattern`: The pattern of a text.
* `Sql.scalarTest`, `Sql.fieldTest`, `Sql.listTest`, `Sql.patternTest`: Single
  comparisons.
* `Sql.interpretation`: Conditions in SQL.
-/

namespace Polyquery.Sql

/-- A character of a pattern that stands for itself. -/
def escapePattern (c : Char) : List Char :=
  if c = '%' ∨ c = '_' ∨ c = '\\' then ['\\', c] else [c]

/-- The pattern of the texts in which a text stands at the place that an operator asks for. -/
def likePattern (op : Operator) (text : String) : String :=
  let escaped := (Text.lowerChars text.toList).flatMap escapePattern
  String.ofList (match op with
    | .startsWith => escaped ++ ['%']
    | .endsWith => '%' :: escaped
    | _ => '%' :: (escaped ++ ['%']))

/-- A comparison operator between two expressions. -/
def comparison (op : Operator) (left right : Expr) : Expr :=
  match op with
  | .greaterThan => .compare .greater left right
  | .greaterThanEquals => .compare .greaterEqual left right
  | .lesserThan => .compare .less left right
  | .lesserThanEquals => .compare .lessEqual left right
  | .notEquals => .compare .notEqual left right
  | _ => .compare .equal left right

/-- A test for null or against it. -/
def nullTest (op : Operator) (left : Expr) : Expr :=
  match op with
  | .isNull => .isNull left
  | _ => .isNotNull left

/-- A test of membership. The contrary holds on null, too. -/
def listTest (op : Operator) (left : Expr) (values : List Literal) : Expr :=
  match op with
  | .isIn => .isIn left values
  | _ => .or (.notIn left values) (.isNull left)

/-- A comparison with another column. -/
def fieldTest (polarity : Polarity) (left right : Expr) : Expr :=
  let present := Expr.and (.isNotNull left) (.isNotNull right)
  match polarity.operator with
  | .equals => .and present (.compare .equal left right)
  | .notEquals => .or (.or (.compare .notEqual left right) (.isNull left)) (.isNull right)
  | op =>
    -- On its own an ordering is not true of null; only its contrary has to be guarded.
    let compared := comparison op left right
    if polarity.wrapped then .and present (.not compared) else compared

/-- A comparison with a constant. -/
def scalarTest (polarity : Polarity) (left : Expr) (literal : Literal) : Expr :=
  let right := Expr.value literal
  match polarity.operator with
  | .equals => .and (.isNotNull left) (.compare .equal left right)
  | .notEquals => .or (.compare .notEqual left right) (.isNull left)
  | op =>
    let compared := comparison op left right
    if polarity.wrapped then .and (.isNotNull left) (.not compared) else compared

/-- A match of a pattern, or the contrary. -/
def patternTest (polarity : Polarity) (left : Expr) (text : String) : Expr :=
  let pattern := likePattern polarity.operator text
  let lowered := Expr.call "LOWER" [left]
  -- A pattern is guarded in either polarity.
  .and (.isNotNull left)
    (if polarity.wrapped then .notLike lowered pattern else .like lowered pattern)

/-- A single comparison in SQL. -/
def leafTest (schema : Schema) (root : String) (leaf : SimpleCondition) (ctx : WalkContext) :
    Except CompileError Expr := do
  let left ← ofExpression schema root leaf.left
  let polarity := Polarity.of leaf.operator ctx.negated
  match leaf.value with
  | none => return nullTest polarity.operator left
  | some (.list values) => return listTest polarity.operator left values
  | some (.field path) =>
    let right ← column schema root path
    return fieldTest polarity left right
  | some (.scalar literal) =>
    if polarity.operator.isPattern then
      match literal.asString? with
      | some text => return patternTest polarity left text
      | none => throw (.typeMismatch (.patternNotString polarity.operator))
    else return scalarTest polarity left literal

/-- The native conditions: pieces of SQL. -/
def nativeFilters : NativeTable Expr :=
  (NativeTable.empty backendName).accept Payload.asSqlText? Expr.raw

/-- The condition that always holds. -/
def always : Expr := .value (.boolean true)

/-- Conditions joined from left to right. -/
def combine (connective : Connective) : List Expr → Expr
  | [] => always
  | first :: rest =>
    match connective with
    | .and => rest.foldl .and first
    | .or => rest.foldl .or first

/-- Conditions in SQL. -/
def interpretation (schema : Schema) (root : String) : Interpretation Expr where
  simple := leafTest schema root
  native := nativeFilters.resolve
  combine := combine
  matchAll := always

end Polyquery.Sql
