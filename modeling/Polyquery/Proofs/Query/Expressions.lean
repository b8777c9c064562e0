import Polyquery.Proofs.Condition.Comparison
import Polyquery.Proofs.Expression.Parts
import Polyquery.Proofs.Query.Portable

/-!
# The Expressions of a Query

The parts of a query hold expressions in several places: on the left side of
comparisons, in the select and in the group-by, and in sort keys. A comparison
with another property counts as one more expression. Which of them a statement
is about depends on what it says: all of them for what a query reads, or only
those that are read after records have been grouped.

## Main definitions

* `QueryParts.Valid`, `QueryParts.Checked`: Parts that can be made, and parts
  that pass the checks.
* `QueryParts.keys`, `QueryParts.calls`, `QueryParts.sortExpressions`: The
  expressions that a query groups and sorts by, and its aggregate calls.
* `QueryParts.read`, `QueryParts.later`: All expressions, and those after the
  grouping.
* `QueryParts.literals`, `QueryParts.listed`: The constants, and the items of
  lists among the values.

## Theorems

* `QueryParts.Valid.returned` and its siblings: The expressions of parts that
  can be made.
* `mem_leaves`, `mem_keys`, `mem_returned`: Where an expression comes from.
* `returned_mem_read` and its siblings: What is read.
* `call_part`: An aggregate call is part of an expression that is read.
* `checked_of_prepares`: The parts of a query that passes the checks.
-/

namespace Polyquery

/-- Parts in which every expression and every comparison can be made. -/
structure QueryParts.Valid (parts : QueryParts) : Prop where
  filter : ∀ leaf ∈ leavesOf parts.filter, leaf.Valid
  sorts : ∀ key, .simple key ∈ parts.sorts → key.expression.valid = true
  select : ∀ columns, parts.select = some columns → ∀ x ∈ columns.expressions, x.valid = true
  groupBy : ∀ columns, parts.groupBy = some columns → ∀ x ∈ columns.expressions, x.valid = true
  having : ∀ leaf ∈ leavesOf parts.having, leaf.Valid

/-- Parts that pass the checks of a prepared query: values suit their operators, and sort keys
    hold no aggregate. -/
structure QueryParts.Checked (parts : QueryParts) : Prop where
  filter : ∀ leaf ∈ leavesOf parts.filter, checkValue leaf = .ok ()
  sorts : ∀ key, .simple key ∈ parts.sorts → key.expression.aggregate? = none
  having : ∀ leaf ∈ leavesOf parts.having, checkValue leaf = .ok ()

/-- The two sides of a comparison, of which the right one may be another property. -/
def SimpleCondition.expressions (leaf : SimpleCondition) : List Expression :=
  leaf.left :: leaf.field?.toList.map fun path => .property path none

/-- The items of the list that a comparison is made with. -/
def SimpleCondition.items (leaf : SimpleCondition) : List Literal :=
  match leaf.value with
  | some (.list values) => values
  | _ => []

/-- The constant that a comparison is made with. -/
def SimpleCondition.scalar (leaf : SimpleCondition) : List Literal :=
  match leaf.value with
  | some (.scalar literal) => [literal]
  | _ => []

/-- The expression of a sort key. -/
def SortKey.expressions : SortKey → List Expression
  | .simple key => [key.expression]
  | .native _ => []

namespace QueryParts

/-- The expressions that a query groups by. -/
def keys (parts : QueryParts) : List Expression :=
  match parts.groupBy with
  | some keys => keys.expressions
  | none => []

/-- The outermost aggregate calls in what a query returns and in its filter of groups. -/
def calls (parts : QueryParts) : List Expression :=
  parts.returned.flatMap Expression.aggregateCalls ++
    (leavesOf parts.having).flatMap fun leaf => leaf.left.aggregateCalls

/-- The expressions that a query sorts by. -/
def sortExpressions (parts : QueryParts) : List Expression :=
  parts.sorts.flatMap SortKey.expressions

/-- The expressions that are read after records have been grouped. -/
def later (parts : QueryParts) : List Expression :=
  parts.returned ++ (leavesOf parts.having).flatMap SimpleCondition.expressions ++
    parts.sortExpressions

/-- The expressions of a query, with the other properties of comparisons. -/
def read (parts : QueryParts) : List Expression :=
  parts.leaves.flatMap SimpleCondition.expressions ++ parts.keys ++ parts.returned ++
    parts.sortExpressions

/-- The constants of a query. -/
def literals (parts : QueryParts) : List Literal :=
  parts.read.flatMap Expression.literals ++ parts.leaves.flatMap SimpleCondition.scalar

/-- The items of the lists of a query. -/
def listed (parts : QueryParts) : List Literal :=
  parts.leaves.flatMap SimpleCondition.items

end QueryParts

section Membership

variable (parts : QueryParts)

theorem mem_sortExpressions (x : Expression) :
    x ∈ parts.sortExpressions ↔ ∃ key, .simple key ∈ parts.sorts ∧ x = key.expression := by
  unfold QueryParts.sortExpressions
  rw [List.mem_flatMap]
  constructor
  · rintro ⟨key, hkey, hx⟩
    cases key with
    | simple key => exact ⟨key, hkey, List.mem_singleton.mp hx⟩
    | native piece => exact absurd hx List.not_mem_nil
  · rintro ⟨key, hkey, rfl⟩
    exact ⟨.simple key, hkey, List.mem_singleton.mpr rfl⟩

theorem field_mem_expressions (leaf : SimpleCondition) (path : String)
    (h : leaf.value = some (.field path)) : .property path none ∈ leaf.expressions := by
  refine List.mem_cons_of_mem _ ?_
  simp only [SimpleCondition.field?, h, Option.toList_some, List.map_cons, List.map_nil,
    List.mem_singleton]

theorem mem_leaves (leaf : SimpleCondition) :
    leaf ∈ parts.leaves ↔ leaf ∈ leavesOf parts.filter ∨ leaf ∈ leavesOf parts.having := by
  unfold QueryParts.leaves
  rw [List.flatMap_append, List.mem_append]
  cases parts.filter <;> cases parts.having <;>
    simp only [leavesOf, Option.toList_none, Option.toList_some, List.flatMap_nil,
      List.flatMap_cons, List.append_nil, List.not_mem_nil]

theorem filter_mem_leaves (leaf : SimpleCondition) (h : leaf ∈ leavesOf parts.filter) :
    leaf ∈ parts.leaves :=
  (mem_leaves parts leaf).mpr (.inl h)

theorem having_mem_leaves (leaf : SimpleCondition) (h : leaf ∈ leavesOf parts.having) :
    leaf ∈ parts.leaves :=
  (mem_leaves parts leaf).mpr (.inr h)

/-- A group key is an expression of the group-by. -/
theorem mem_keys (x : Expression) (h : x ∈ parts.keys) :
    ∃ columns, parts.groupBy = some columns ∧ x ∈ columns.expressions := by
  unfold QueryParts.keys at h
  cases hgroup : parts.groupBy with
  | some columns =>
      rw [hgroup] at h
      exact ⟨columns, rfl, h⟩
  | none =>
      rw [hgroup] at h
      exact absurd h List.not_mem_nil

/-- What a query returns is an expression of the select or of the group-by. -/
theorem mem_returned (x : Expression) (h : x ∈ parts.returned) :
    ∃ columns, (parts.select = some columns ∨ parts.groupBy = some columns) ∧
      x ∈ columns.expressions := by
  unfold QueryParts.returned at h
  cases hselect : parts.select with
  | some columns =>
      rw [hselect] at h
      exact ⟨columns, .inl rfl, h⟩
  | none =>
      rw [hselect] at h
      cases hgroup : parts.groupBy with
      | some columns =>
          rw [hgroup] at h
          exact ⟨columns, .inr rfl, h⟩
      | none =>
          rw [hgroup] at h
          exact absurd h List.not_mem_nil

theorem leaf_mem_read (leaf : SimpleCondition) (h : leaf ∈ parts.leaves) (x : Expression)
    (hx : x ∈ leaf.expressions) : x ∈ parts.read := by
  unfold QueryParts.read
  simp only [List.mem_append]
  exact .inl (.inl (.inl (List.mem_flatMap.mpr ⟨leaf, h, hx⟩)))

theorem key_mem_read (x : Expression) (h : x ∈ parts.keys) : x ∈ parts.read := by
  unfold QueryParts.read
  simp only [List.mem_append]
  exact .inl (.inl (.inr h))

theorem returned_mem_read (x : Expression) (h : x ∈ parts.returned) : x ∈ parts.read := by
  unfold QueryParts.read
  simp only [List.mem_append]
  exact .inl (.inr h)

theorem sort_mem_read (x : Expression) (h : x ∈ parts.sortExpressions) : x ∈ parts.read := by
  unfold QueryParts.read
  simp only [List.mem_append]
  exact .inr h

theorem returned_subset_later : parts.returned ⊆ parts.later :=
  fun _ hx => List.mem_append_left _ (List.mem_append_left _ hx)

theorem having_mem_later (leaf : SimpleCondition) (h : leaf ∈ leavesOf parts.having)
    (x : Expression) (hx : x ∈ leaf.expressions) : x ∈ parts.later :=
  List.mem_append_left _ (List.mem_append_right _ (List.mem_flatMap.mpr ⟨leaf, h, hx⟩))

theorem sort_subset_later : parts.sortExpressions ⊆ parts.later :=
  fun _ hx => List.mem_append_right _ hx

/-- What is read after the grouping is read. -/
theorem later_mem_read (x : Expression) (h : x ∈ parts.later) : x ∈ parts.read := by
  unfold QueryParts.later at h
  simp only [List.mem_append] at h
  rcases h with (hreturned | hhaving) | hsort
  · exact returned_mem_read parts x hreturned
  · rcases List.mem_flatMap.mp hhaving with ⟨leaf, hleaf, hx⟩
    exact leaf_mem_read parts leaf (having_mem_leaves parts leaf hleaf) x hx
  · exact sort_mem_read parts x hsort

/-- An aggregate call is part of an expression of the query. -/
theorem call_part (x : Expression) (h : x ∈ parts.calls) :
    ∃ y ∈ parts.read, Expression.PartOf x y := by
  rcases List.mem_append.mp h with hreturned | hhaving
  · rcases List.mem_flatMap.mp hreturned with ⟨y, hy, hcall⟩
    exact ⟨y, returned_mem_read parts y hy, Expression.aggregateCalls_partOf y x hcall⟩
  · rcases List.mem_flatMap.mp hhaving with ⟨leaf, hleaf, hcall⟩
    exact ⟨leaf.left,
      leaf_mem_read parts leaf (having_mem_leaves parts leaf hleaf) _ List.mem_cons_self,
      Expression.aggregateCalls_partOf leaf.left x hcall⟩

end Membership

namespace QueryParts.Valid

variable {parts : QueryParts} (h : parts.Valid)

include h

/-- What a query returns can be made. -/
theorem returned : ∀ x ∈ parts.returned, x.valid = true := by
  intro x hx
  rcases mem_returned parts x hx with ⟨columns, hselect | hgroup, hmem⟩
  · exact h.select columns hselect x hmem
  · exact h.groupBy columns hgroup x hmem

/-- What a query groups by can be made. -/
theorem keys : ∀ x ∈ parts.keys, x.valid = true := by
  intro x hx
  rcases mem_keys parts x hx with ⟨columns, hgroup, hmem⟩
  exact h.groupBy columns hgroup x hmem

/-- What a query sorts by can be made. -/
theorem sortExpressions : ∀ x ∈ parts.sortExpressions, x.valid = true := by
  intro x hx
  rcases (mem_sortExpressions parts x).mp hx with ⟨key, hkey, rfl⟩
  exact h.sorts key hkey

/-- So can the aggregate calls of a query. -/
theorem calls : ∀ x ∈ parts.calls, x.valid = true := by
  intro x hx
  rcases List.mem_append.mp hx with hreturned | hhaving
  · rcases List.mem_flatMap.mp hreturned with ⟨column, hcolumn, hcall⟩
    exact (Expression.aggregateCalls_partOf column x hcall).valid (h.returned column hcolumn)
  · rcases List.mem_flatMap.mp hhaving with ⟨leaf, hleaf, hcall⟩
    exact (Expression.aggregateCalls_partOf leaf.left x hcall).valid (h.having leaf hleaf).left

end QueryParts.Valid

theorem plain_of_checkSorts (keys : List SortKey) (h : checkSorts keys = .ok ()) :
    ∀ key, .simple key ∈ keys → key.expression.aggregate? = none := by
  induction keys with
  | nil => exact fun key hmem => absurd hmem List.not_mem_nil
  | cons first rest ih =>
      intro key hmem
      cases first with
      | native piece =>
          -- A native key is not looked at, and it is not the key in question.
          rcases List.mem_cons.mp hmem with heq | htail
          · exact absurd heq (by simp only [reduceCtorEq, not_false_eq_true])
          · exact ih h key htail
      | simple head =>
          simp only [checkSorts] at h
          cases hhead : head.expression.aggregate? with
          | some function =>
              -- The first key would have been refused.
              rw [hhead] at h
              exact absurd h (by simp only [reduceCtorEq, not_false_eq_true])
          | none =>
              rw [hhead] at h
              rcases List.mem_cons.mp hmem with heq | htail
              · rw [SortKey.simple.inj heq]
                exact hhead
              · exact ih h key htail

/-- A portable query that passes the checks does so as it is. -/
theorem checked_of_prepares (q : AnyQuery) (hportable : q.Portable) (h : q.Prepares) :
    q.effective.Checked := by
  -- The checks of a query cover the comparisons of both filters and the sort keys.
  have hadvanced : ∀ p : AdvancedQuery, p.check = .ok () →
      checkValues (leavesOf p.having) = .ok () → (QueryParts.ofAdvanced p).Checked := by
    intro p hcheck hhaving
    rcases bind_eq_ok.mp hcheck with ⟨_, _, hcheck⟩
    rcases bind_eq_ok.mp hcheck with ⟨_, hfilter, hsorts⟩
    constructor
    case filter =>
      simp only [QueryParts.ofAdvanced, QueryParts.ofQuery, leavesOf_effective]
      exact checkValue_of_checkValues _ hfilter
    case sorts => exact plain_of_checkSorts p.sorts hsorts
    case having =>
      simp only [QueryParts.ofAdvanced, leavesOf_effective]
      exact checkValue_of_checkValues _ hhaving
  cases q with
  | plain q =>
      -- A plain query has no filter of groups, so there is nothing more to check.
      rcases h with ⟨p, hp⟩
      rw [prepare_plain q hportable.preprocessors] at hp
      rcases bind_eq_ok.mp hp with ⟨_, hcheck, _⟩
      exact hadvanced (.ofQuery q) hcheck rfl
  | advanced q =>
      rcases h with ⟨p, hp⟩
      rw [prepareAdvanced_plain q hportable.query.preprocessors] at hp
      rcases bind_eq_ok.mp hp with ⟨_, hcheck, hp⟩
      rcases bind_eq_ok.mp hp with ⟨_, hhaving, _⟩
      exact hadvanced q hcheck hhaving

end Polyquery
