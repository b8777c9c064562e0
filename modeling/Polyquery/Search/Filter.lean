import Polyquery.Backend.NativeTable
import Polyquery.Condition.Walk
import Polyquery.Search.Syntax

/-!
# Conditions in a Search Engine

Only bare properties can be searched, and only for constants. Since a clause
does not match a missing value, the contrary of one does; where null is to be
kept out of the contrary, the field is required to have a value.

## Main definitions

* `Search.wildcardPattern`: The pattern of a text.
* `Search.leafClause`: A single comparison.
* `Search.interpretation`: Conditions as clauses.
-/

namespace Polyquery.Search

/-- The name of the search backend in messages. -/
def backendName : String := "search"

/-- A character of a pattern that stands for itself. -/
def escapeWildcard (c : Char) : List Char :=
  if c = '*' ∨ c = '?' ∨ c = '\\' then ['\\', c] else [c]

/-- The pattern of the texts in which a text stands at the place that an operator asks for. -/
def wildcardPattern (op : Operator) (text : String) : String :=
  let escaped := text.toList.flatMap escapeWildcard
  String.ofList (match op with
    | .startsWith => escaped ++ ['*']
    | .endsWith => '*' :: escaped
    | _ => '*' :: (escaped ++ ['*']))

/-- The bound of an ordering. -/
def boundOf : Operator → Bound
  | .greaterThan => .above
  | .greaterThanEquals => .atLeast
  | .lesserThan => .below
  | _ => .atMost

/-- The field of an expression. No call can be searched. -/
def fieldOf : Expression → Except CompileError String
  | .property path _ => .ok path
  | .call function _ _ => .error (.unsupportedFunction backendName function)

/-- An ordering or a pattern. -/
def positiveClause (op : Operator) (field : String) (literal : Literal) :
    Except CompileError Clause :=
  if op.isPattern then
    match literal.asString? with
    | some text => .ok (.wildcard field (wildcardPattern op text))
    | none => .error (.typeMismatch (.patternNotString op))
  else .ok (.range field (boundOf op) literal)

/-- A comparison of a field with a value. -/
def fieldClause (polarity : Polarity) (field : String) (value : Option ConditionValue) :
    Except CompileError Clause :=
  match polarity.operator, value with
  -- Another field is refused under every operator.
  | _, some (.field _) => .error (.unsupportedByBackend backendName .fieldComparison)
  | .isNull, _ => .ok (.not (.present field))
  | .isNotNull, _ => .ok (.present field)
  | .isIn, some (.list values) => .ok (.terms field values)
  | .notIn, some (.list values) => .ok (.not (.terms field values))
  | .equals, some (.scalar literal) => .ok (.term field literal)
  | .notEquals, some (.scalar literal) => .ok (.not (.term field literal))
  | op, some (.scalar literal) => do
    let positive ← positiveClause op field literal
    return if polarity.wrapped then .presentExcept field positive else positive
  | op, _ => .error (.typeMismatch (.valueMissing op))

/-- A single comparison. -/
def leafClause (leaf : SimpleCondition) (ctx : WalkContext) : Except CompileError Clause := do
  let field ← fieldOf leaf.left
  fieldClause (Polarity.of leaf.operator ctx.negated) field leaf.value

/-- The native pieces: JSON documents, taken as they are. -/
def natives : NativeTable Json :=
  (NativeTable.empty backendName).accept Payload.asJson? id

/-- Conditions as clauses. -/
def interpretation : Interpretation Clause where
  simple := leafClause
  native piece := (natives.resolve piece).map .native
  combine
    | .and, parts => .every parts
    | .or, parts => .any parts
  matchAll := .all

end Polyquery.Search
