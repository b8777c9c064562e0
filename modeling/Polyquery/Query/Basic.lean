import Polyquery.Query.Edit

/-!
# Queries

A plain query returns records, narrowed to selected columns if it has a
select. An advanced query returns rows of columns and may also group records
and filter the groups. The parts they share are those of `Query`.

A part that is there but restricts or selects nothing counts as absent: the
`has…` functions say whether a part has an effect. An advanced query that
filters groups has to group first; this is checked whenever one is built.

## Main definitions

* `Query`, `AdvancedQuery`: The two kinds of query.
* `AdvancedQuery.checked`: The rule of an advanced query.
* `AdvancedQuery.ofQuery`: A plain query as an advanced one.
* `AnyQuery`: A query of either kind.
* `Query.same`, `AdvancedQuery.same`, `AnyQuery.same`: Equality.
-/

namespace Polyquery

/-- A query for records. -/
structure Query where
  filter : Option Condition := none
  sorts : List SortKey := []
  pagination : Option Pagination := none
  distinct : Bool := false
  select : Option Selection := none
  preprocessors : List Preprocessor := []
  customizers : List Native := []
  deriving Repr, Inhabited

/-- A query for rows of columns. -/
structure AdvancedQuery extends Query where
  groupBy : Option Selection := none
  having : Option Condition := none
  deriving Repr, Inhabited

/-- A condition that restricts something. -/
def effectiveCondition (condition : Option Condition) : Option Condition :=
  condition.filter fun c => !c.isEmpty

/-- A selection that has columns. -/
def effectiveSelection (selection : Option Selection) : Option Selection :=
  selection.filter fun s => !s.isEmpty

/-- Equality of two optional parts. -/
def samePart {α : Type} (same : α → α → Bool) : Option α → Option α → Bool
  | some a, some b => same a b
  | none, none => true
  | _, _ => false

/-- Equality of two lists of parts. -/
def sameParts {α : Type} (same : α → α → Bool) : List α → List α → Bool
  | [], [] => true
  | a :: as, b :: bs => same a b && sameParts same as bs
  | _, _ => false

namespace Query

/-- Whether the filter restricts something. -/
def hasFilter (q : Query) : Bool :=
  (effectiveCondition q.filter).isSome

/-- Whether rows are sorted. -/
def hasSort (q : Query) : Bool :=
  !q.sorts.isEmpty

/-- Whether a page is asked for. -/
def hasPagination (q : Query) : Bool :=
  q.pagination.isSome

/-- Whether the select has columns. -/
def hasSelect (q : Query) : Bool :=
  (effectiveSelection q.select).isSome

/-- Equality of plain queries. -/
def same (a b : Query) : Bool :=
  samePart Condition.same a.filter b.filter &&
  SortKey.sameList a.sorts b.sorts &&
  a.pagination == b.pagination &&
  a.distinct == b.distinct &&
  samePart Selection.same a.select b.select &&
  sameParts Preprocessor.same a.preprocessors b.preprocessors &&
  sameParts Native.same a.customizers b.customizers

end Query

namespace AdvancedQuery

/-- Whether the group-by has columns. -/
def hasGroupBy (q : AdvancedQuery) : Bool :=
  (effectiveSelection q.groupBy).isSome

/-- Whether the filter of groups restricts something. -/
def hasHaving (q : AdvancedQuery) : Bool :=
  (effectiveCondition q.having).isSome

/-- The query itself, unless it filters groups and has none. -/
def checked (q : AdvancedQuery) : Except ValidationError AdvancedQuery :=
  if q.hasHaving && !q.hasGroupBy then .error .havingWithoutGroupBy else .ok q

/-- A plain query as an advanced one. The preprocessors of a plain query stay behind,
    since they edit plain queries. -/
def ofQuery (q : Query) : AdvancedQuery :=
  { q with preprocessors := [], groupBy := none, having := none }

/-- Equality of advanced queries. -/
def same (a b : AdvancedQuery) : Bool :=
  a.toQuery.same b.toQuery &&
  samePart Selection.same a.groupBy b.groupBy &&
  samePart Condition.same a.having b.having

end AdvancedQuery

/-- A query of either kind. -/
inductive AnyQuery where
  | plain (query : Query)
  | advanced (query : AdvancedQuery)
  deriving Repr

namespace AnyQuery

/-- Equality of queries. A plain query never equals an advanced one. -/
def same : AnyQuery → AnyQuery → Bool
  | .plain a, .plain b => a.same b
  | .advanced a, .advanced b => a.same b
  | _, _ => false

/-- A query as an advanced one. -/
def lift : AnyQuery → AdvancedQuery
  | .plain q => .ofQuery q
  | .advanced q => q

end AnyQuery

end Polyquery
