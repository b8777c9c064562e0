import Polyquery.Document.Form
import Polyquery.Query.Basic

/-!
# Queries from Documents

A document becomes a query by the same functions that make queries elsewhere,
so a document that is accepted is a query that keeps the rules. There are
three ways to read a text: as a plain query, as an advanced query, and as
whichever of the two it looks like. A text looks like an advanced query when
it has a select, a group-by or a having.

## Main definitions

* `ExpressionForm.toExpression`, `ConditionForm.toCondition`: Parts of a
  query.
* `QueryForm.toQuery`, `QueryForm.toAdvanced`: Whole queries.
* `parseQuery`, `parseAdvanced`, `parseAny`: The three readings of a text.
-/

namespace Polyquery

/-- A literal argument or value. -/
def literalOf (value : Json) : Except ValidationError Literal :=
  match Literal.ofJson? value with
  | some literal => .ok literal
  | none => .error (.literalType value)

mutual

/-- The expression that a form describes. -/
def ExpressionForm.toExpression : ExpressionForm → Except ValidationError Expression
  | ⟨name, function, arguments, label⟩ =>
    match name, function with
    | some _, some _ => .error (.nameAndExpression .expression)
    | none, none => .error (.missingNameOrExpression .expression)
    | some path, none =>
      match arguments with
      | [] => (Expression.checkPath path).map fun path => .property path label
      | _ :: _ => .error (.document (.argumentsOfProperty path))
    | none, some name =>
      match Function.ofName? name with
      | none => .error (.document (.unknownFunction name))
      | some function => do
        let arguments ← ArgumentForm.toArguments arguments
        let call ← Expression.ofCall function arguments
        match label with
        | some label => return call.withAlias label
        | none => return call

/-- The arguments that forms describe. -/
def ArgumentForm.toArguments : List ArgumentForm → Except ValidationError (List Argument)
  | [] => .ok []
  | .expression form :: rest => do
    let value ← form.toExpression
    let values ← ArgumentForm.toArguments rest
    return .expression value :: values
  | .literal value :: rest => do
    let value ← literalOf value
    let values ← ArgumentForm.toArguments rest
    return .literal value :: values

end

/-- The value that a condition compares with. An array is a list, an object names
    another property, and anything else is a literal. -/
def conditionValueOf : Json → Except ValidationError ConditionValue
  | .array items => (items.mapM literalOf).map .list
  | .object [("field", .string path)] => ConditionValue.ofField path
  | .object _ => .error (.document .objectValue)
  | scalar => (literalOf scalar).map .scalar

/-- The operator that a name stands for; without a name it is equality. -/
def operatorOf : Option String → Except ValidationError Operator
  | none => .ok .equals
  | some name =>
    match Operator.ofName? name with
    | some operator => .ok operator
    | none => .error (.document (.unknownOperator name))

/-- The comparison that a form describes. -/
def SimpleForm.toCondition (form : SimpleForm) : Except ValidationError SimpleCondition := do
  let operator ← operatorOf form.operator
  let expression ← form.expression.mapM ExpressionForm.toExpression
  let value ← form.value.mapM conditionValueOf
  SimpleCondition.ofParts form.name expression operator value

mutual

/-- The condition that a form describes. -/
def ConditionForm.toCondition : ConditionForm → Except ValidationError Condition
  | .and children => (ConditionForm.toConditions children).map .and
  | .or children => (ConditionForm.toConditions children).map .or
  | .not child => do
    let child ← child.toCondition
    Condition.negation child
  | .simple form => form.toCondition.map .simple

/-- The conditions that forms describe. -/
def ConditionForm.toConditions : List ConditionForm → Except ValidationError (List Condition)
  | [] => .ok []
  | form :: rest => do
    let condition ← form.toCondition
    let conditions ← ConditionForm.toConditions rest
    return condition :: conditions

end

/-- The sort key that a form describes. -/
def SortForm.toSortKey (form : SortForm) : Except ValidationError SortKey := do
  let expression ← form.expression.mapM ExpressionForm.toExpression
  (SimpleSort.ofParts form.name expression form.direction).map .simple

/-- The columns that a form describes. -/
def ListForm.toSelection (form : ListForm) : Except ValidationError Selection := do
  let expressions ← form.expressions.mapM ExpressionForm.toExpression
  (ExpressionList.of form.names expressions).map .items

/-- The plain query that a form describes, whatever it says about groups. -/
def QueryForm.toQuery (form : QueryForm) : Except ValidationError Query := do
  let sorts ← form.sorts.mapM SortForm.toSortKey
  let filter ← form.filter.mapM ConditionForm.toCondition
  let pagination ← form.pagination.mapM fun page => Pagination.of page.page page.size
  let select ← form.select.mapM ListForm.toSelection
  return {
    filter := filter
    sorts := sorts
    pagination := pagination
    distinct := form.distinct
    select := select }

/-- The advanced query that a form describes. -/
def QueryForm.toAdvanced (form : QueryForm) : Except ValidationError AdvancedQuery := do
  let sorts ← form.sorts.mapM SortForm.toSortKey
  let filter ← form.filter.mapM ConditionForm.toCondition
  let pagination ← form.pagination.mapM fun page => Pagination.of page.page page.size
  let select ← form.select.mapM ListForm.toSelection
  let groupBy ← form.groupBy.mapM ListForm.toSelection
  let having ← form.having.mapM ConditionForm.toCondition
  AdvancedQuery.checked {
    filter := filter
    sorts := sorts
    pagination := pagination
    distinct := form.distinct
    select := select
    groupBy := groupBy
    having := having }

/-- Whether a form says anything about groups. -/
def QueryForm.hasGrouping (form : QueryForm) : Bool :=
  form.groupBy.isSome || form.having.isSome

/-- The form of a text. -/
def formOf (text : JsonText) : Except ValidationError QueryForm :=
  (QueryForm.decode text).mapError fun error => .document (.unreadable error)

/-- A text read as a plain query. -/
def parseQuery (text : JsonText) : Except ValidationError Query := do
  let form ← formOf text
  if form.hasGrouping then throw (.document .groupingInPlainQuery)
  form.toQuery

/-- A text read as an advanced query. -/
def parseAdvanced (text : JsonText) : Except ValidationError AdvancedQuery := do
  let form ← formOf text
  form.toAdvanced

/-- A text read as the kind of query it looks like. -/
def parseAny (text : JsonText) : Except ValidationError AnyQuery := do
  let form ← formOf text
  if form.select.isSome || form.hasGrouping then form.toAdvanced.map .advanced
  else form.toQuery.map .plain

end Polyquery
