import Polyquery.Condition.Collector
import Polyquery.Query.Basic

/-!
# The Parts of a Query that Have an Effect

A backend looks at both kinds of query in the same way: at their parts, where
a part that restricts or selects nothing is absent.

What a query returns is its projection. With a select it returns the selected
columns; a grouped query without a select returns its group keys; any other
query returns whole records.

## Main definitions

* `QueryParts`: The parts, with `QueryParts.ofQuery` and
  `QueryParts.ofAdvanced`.
* `Projection`: What a query returns.
* `QueryParts.projection`: The projection of a query.
* `QueryParts.leaves`: The comparisons in the filter and in the filter of
  groups.
-/

namespace Polyquery

/-- The parts of a query that have an effect. -/
structure QueryParts where
  filter : Option Condition
  sorts : List SortKey
  pagination : Option Pagination
  distinct : Bool
  select : Option Selection
  groupBy : Option Selection
  having : Option Condition
  customizers : List Native
  deriving Repr

/-- What a query returns. -/
inductive Projection where
  | entity
  /-- Columns, each with its name. -/
  | items (columns : List (String × Expression))
  | native (piece : Native)
  deriving Repr

/-- The columns of a selection with their names. -/
def Selection.named (selection : Selection) : Except CompileError (List (String × Expression)) := do
  let names ← selection.columnNames
  return names.zip selection.expressions

namespace QueryParts

/-- The parts of a plain query. -/
def ofQuery (q : Query) : QueryParts where
  filter := effectiveCondition q.filter
  sorts := q.sorts
  pagination := q.pagination
  distinct := q.distinct
  select := effectiveSelection q.select
  groupBy := none
  having := none
  customizers := q.customizers

/-- The parts of an advanced query. -/
def ofAdvanced (q : AdvancedQuery) : QueryParts :=
  { ofQuery q.toQuery with
    groupBy := effectiveSelection q.groupBy
    having := effectiveCondition q.having }

/-- What a query returns. -/
def projection (parts : QueryParts) : Except CompileError Projection :=
  match parts.select, parts.groupBy with
  | some (.native piece), _ => .ok (.native piece)
  | some select, _ => select.named.map .items
  | none, some (.items list) => (Selection.items list).named.map .items
  | none, _ => .ok .entity

/-- The comparisons in the filter and then those in the filter of groups. -/
def leaves (parts : QueryParts) : List SimpleCondition :=
  (parts.filter.toList ++ parts.having.toList).flatMap Condition.collectLeaves

end QueryParts

end Polyquery
