import Polyquery.Condition.Collector
import Polyquery.Query.Preprocess

/-!
# Preparing a Query

What every backend does before it compiles a query: the preprocessors run, and
rules are checked that the parts of a query cannot check by themselves. A
filter and a sort key hold no aggregate, because they look at single records.
A list operator compares with a list and a pattern operator with a string.

The filter is checked for aggregates as a whole before its values are looked
at, then the sort keys, and last the values in the filter of groups.

## Main definitions

* `checkAggregates`, `checkValues`, `checkSorts`: The rules.
* `Query.prepare`, `AdvancedQuery.prepare`: A query ready to be compiled.

## Theorems

* `leavesOf_some`: The simple conditions that the rules are checked on.
-/

namespace Polyquery

/-- No comparison of a filter has an aggregate on its left side. -/
def checkAggregates : List SimpleCondition → Except CompileError Unit
  | [] => .ok ()
  | leaf :: rest =>
    match leaf.left.aggregate? with
    | some function => .error (.aggregateNotAllowed function .filter)
    | none => checkAggregates rest

/-- The value of a comparison suits its operator. -/
def checkValue (leaf : SimpleCondition) : Except CompileError Unit :=
  match leaf.value with
  | some (.scalar literal) =>
    if leaf.operator.takesList then .error (.typeMismatch (.listRequired leaf.operator))
    else if leaf.operator.isPattern && literal.asString?.isNone then
      .error (.typeMismatch (.stringRequired leaf.operator literal))
    else .ok ()
  | _ => .ok ()

/-- The values of all comparisons suit their operators. -/
def checkValues : List SimpleCondition → Except CompileError Unit
  | [] => .ok ()
  | leaf :: rest => do
    checkValue leaf
    checkValues rest

/-- No sort key holds an aggregate. -/
def checkSorts : List SortKey → Except CompileError Unit
  | [] => .ok ()
  | .simple key :: rest =>
    match key.expression.aggregate? with
    | some function => .error (.aggregateNotAllowed function .sort)
    | none => checkSorts rest
  | .native _ :: rest => checkSorts rest

/-- The simple conditions of an optional condition, from left to right. -/
def leavesOf (condition : Option Condition) : List SimpleCondition :=
  match condition with
  | some c => c.collectLeaves
  | none => []

theorem leavesOf_some (c : Condition) : leavesOf (some c) = c.leaves :=
  c.collectLeaves_eq

/-- The rules of a filter and of sort keys. -/
def Query.check (q : Query) : Except CompileError Unit := do
  let leaves := leavesOf q.filter
  checkAggregates leaves
  checkValues leaves
  checkSorts q.sorts

/-- A plain query ready to be compiled. -/
def Query.prepare (q : Query) : Except CompileError Query := do
  let q := q.preprocess
  q.check
  return q

/-- An advanced query ready to be compiled. -/
def AdvancedQuery.prepare (q : AdvancedQuery) : Except CompileError AdvancedQuery := do
  let q := q.preprocess
  q.check
  checkValues (leavesOf q.having)
  return q

end Polyquery
