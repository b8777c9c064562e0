import Polyquery.Backend.NativeTable
import Polyquery.Condition.Walk
import Polyquery.Mongo.Expression

/-!
# Conditions in Mongo

A comparison of a field of the document with a constant is a clause on that
field. Every other comparison is one of expressions, in which null has to be
kept out by a guard, because there it stands below every other value.

## Main definitions

* `Mongo.regexPattern`: The regular expression of a text.
* `Mongo.clause`: A comparison of a field.
* `Mongo.condition`: A comparison of expressions.
* `Mongo.interpretation`: Conditions in a scope.
-/

namespace Polyquery.Mongo

/-- The characters that have a meaning in a regular expression. -/
def regexMeta : List Char :=
  ['\\', '^', '$', '.', '|', '?', '*', '+', '(', ')', '[', ']', '\x7b', '\x7d']

/-- A character of a regular expression that stands for itself. -/
def escapeRegex (c : Char) : List Char :=
  if regexMeta.contains c then ['\\', c] else [c]

/-- The regular expression of the texts in which a text stands at the place that an
    operator asks for. -/
def regexPattern (op : Operator) (text : String) : String :=
  let escaped := text.toList.flatMap escapeRegex
  String.ofList (match op with
    | .startsWith => '^' :: escaped
    | .endsWith => escaped ++ ['$']
    | _ => escaped)

/-- The comparison of an operator. -/
def comparisonOf : Operator → Comparison
  | .notEquals => .notEqual
  | .greaterThan => .greater
  | .greaterThanEquals => .greaterEqual
  | .lesserThan => .less
  | .lesserThanEquals => .lessEqual
  | _ => .equal

/-- The text of a pattern. -/
def patternText (op : Operator) (literal : Literal) : Except CompileError String :=
  match literal.asString? with
  | some text => .ok text
  | none => .error (.typeMismatch (.patternNotString op))

/-- The clause of an operator and a value. -/
def plainClause (op : Operator) (value : Option ConditionValue) : Except CompileError Clause :=
  match op, value with
  | .isNull, _ => .ok .isNull
  | .isNotNull, _ => .ok .isNotNull
  | .isIn, some (.list values) => .ok (.isIn values)
  | .notIn, some (.list values) => .ok (.notIn values)
  | op, some (.scalar literal) =>
    if op.isPattern then (patternText op literal).map fun text => .regex (regexPattern op text)
    else .ok (.compare (comparisonOf op) literal)
  | op, _ => .error (.typeMismatch (.valueMissing op))

/-- The clause of a comparison of a field with a constant. -/
def clause (polarity : Polarity) (value : Option ConditionValue) : Except CompileError Clause := do
  let plain ← plainClause polarity.operator value
  return if polarity.wrapped then .exceptNull plain else plain

/-- The contrary of an expression, where one is asked for. -/
def negateIf (negated : Bool) (e : Expr) : Expr :=
  if negated then .not e else e

/-- A comparison of two expressions that are both guarded against null. -/
def guardedComparison (polarity : Polarity) (left right : Expr) : Expr :=
  let guard := Expr.and [present left, present right]
  let equal := Expr.and [guard, .compare .equal left right]
  match polarity.operator with
  | .equals => equal
  -- The guard is turned around as well, so that null is unequal to everything.
  | .notEquals => .not equal
  | op => .and [guard, negateIf polarity.wrapped (.compare (comparisonOf op) left right)]

/-- The right side of a comparison that is neither a list nor a pattern. -/
def rightSide (scope : Scope) : ConditionValue → Except CompileError Expr
  | .field path => do
    let property ← (Expression.ofPath path).mapError fun e => .typeMismatch (.reference e)
    ofExpression scope property
  | .scalar literal => .ok (.constant literal)
  | .list _ => .ok .null

/-- A comparison of expressions. -/
def condition (scope : Scope) (leaf : SimpleCondition) (polarity : Polarity) :
    Except CompileError Expr := do
  let left ← ofExpression scope leaf.left
  match leaf.value with
  | none =>
    -- Null and a missing value are the only ones not above null.
    return if polarity.operator == .isNull then .compare .lessEqual left .null else present left
  | some (.list values) =>
    return if polarity.operator == .isIn then .and [present left, .isIn left values]
      else .not (.isIn left values)
  | some (.scalar literal) =>
    if polarity.operator.isPattern then
      let text ← patternText polarity.operator literal
      let found := Expr.regexMatch left (regexPattern polarity.operator text)
      return .and [present left, negateIf polarity.wrapped found]
    else return guardedComparison polarity left (.constant literal)
  | some (.field path) =>
    let right ← rightSide scope (.field path)
    return guardedComparison polarity left right

/-- The field of the document that a comparison can test with a clause. -/
def clauseField? (scope : Scope) (leaf : SimpleCondition) : Option String :=
  match scope, leaf.value with
  | .grouped _, _ => none
  | .document, some (.field _) => none
  | .document, _ => leaf.left.path?

/-- A single comparison in a scope. -/
def leafFilter (scope : Scope) (leaf : SimpleCondition) (ctx : WalkContext) :
    Except CompileError Filter :=
  let polarity := Polarity.of leaf.operator ctx.negated
  match clauseField? scope leaf with
  | some path => (clause polarity leaf.value).map (.field path)
  | none => (condition scope leaf polarity).map .expr

/-- The native pieces: JSON documents, taken as they are. -/
def natives : NativeTable Json :=
  (NativeTable.empty backendName).accept Payload.asJson? id

/-- Conditions in a scope. -/
def interpretation (scope : Scope) : Interpretation Filter where
  simple := leafFilter scope
  native piece := (natives.resolve piece).map .native
  combine
    | .and, parts => .and parts
    | .or, parts => .or parts
  matchAll := .all

end Polyquery.Mongo
