import Mathlib.Data.Option.Basic
import Polyquery.Memory.Store
import Polyquery.Mongo.Pipeline
import Polyquery.Proofs.Condition.Alike
import Polyquery.Proofs.Outcome
import Polyquery.Search.Request
import Polyquery.Sql.Select

/-!
# Empty Conditions in Queries

Queries whose conditions are alike have the same answers. A backend looks at
the filter and at the filter of groups of a query in a few ways only: it asks
whether they are there and have an effect, collects their simple conditions,
and compiles them. Each of these comes out the same for conditions that are
alike, and the lemmas on optional conditions below say so one by one. What is
left is to go through the backends and see that they use no other way.

An empty condition that is added somewhere in a filter is the case that
matters. It imposes no restriction, but it must not turn a connective into one
that nothing or everything passes either, and emptiness is asked about in many
places: when an advanced query is made, when its parts are taken, when the
filter is compiled, at every connective, and when leaves are collected.

Preprocessors may look at a query in any way they like, so the queries here
have none.

## Main definitions

* `AlikePart`: Optional conditions that nothing tells apart.
* `Query.Indistinguishable`, `AdvancedQuery.Indistinguishable`: Queries with
  the same answers everywhere.

## Theorems

* `filter_alike`, `leavesOf_alike`, `effectiveCondition_alike`: The ways in
  which a backend looks at a condition.
* `prepared_alike`, `preparedAdvanced_alike`: Preparing a query.
* `indistinguishable_of_alike`, `indistinguishableAdvanced_of_alike`: Queries
  whose conditions are alike.
* `emptyChild_invisible`: Queries with one more empty condition.
-/

namespace Polyquery

/-- Two optional conditions that nothing tells apart. -/
def AlikePart (new old : Option Condition) : Prop :=
  Option.Rel Condition.Alike new old

theorem AlikePart.refl (part : Option Condition) : AlikePart part part := by
  cases part with
  | none => exact .none
  | some c => exact .some (.refl c)

section Parts

variable {new old : Option Condition}

theorem isSome_alike (h : AlikePart new old) : new.isSome = old.isSome := by
  cases h <;> rfl

theorem leavesOf_alike (h : AlikePart new old) : leavesOf new = leavesOf old := by
  cases h with
  | none => rfl
  | some halike => rw [leavesOf_some, leavesOf_some, halike.leaves]

/-- A part has an effect if the one that is like it has, and the effective parts are
    alike. -/
theorem effectiveCondition_alike (h : AlikePart new old) :
    AlikePart (effectiveCondition new) (effectiveCondition old) := by
  cases h with
  | none => exact .none
  | some halike =>
      simp only [effectiveCondition, Option.filter, halike.isEmpty]
      split
      · exact .some halike
      · exact .none

theorem filter_alike {φ : Type} (t : Interpretation φ) (h : AlikePart new old)
    (maxDepth : Nat) : t.filter new maxDepth = t.filter old maxDepth := by
  cases h with
  | none => rfl
  | some halike =>
      simp only [Interpretation.filter, halike.isEmpty, halike.compiles]

end Parts

section Backends

variable (parts : QueryParts) {filter having : Option Condition}

/-- What a query returns does not depend on its conditions. -/
theorem projection_replaced (filter having : Option Condition) :
    QueryParts.projection { parts with filter := filter, having := having } =
      parts.projection := rfl

theorem Sql.compileParts_alike (schema : Schema) (root : String)
    (hfilter : AlikePart filter parts.filter) (hhaving : AlikePart having parts.having) :
    Sql.compileParts schema root { parts with filter := filter, having := having } =
      Sql.compileParts schema root parts := by
  have hpaths : Sql.pathUses { parts with filter := filter, having := having } =
      Sql.pathUses parts := by
    simp only [Sql.pathUses, leavesOf_alike hfilter, leavesOf_alike hhaving]
  simp only [Sql.compileParts, hpaths, projection_replaced, filter_alike _ hfilter,
    filter_alike _ hhaving]

/-- The filter of groups has a part in the groups, because its aggregates are computed with
    them. -/
theorem Mongo.pipeline_alike (compiled : Option Mongo.Filter) (projection : Projection)
    (maxDepth : Nat) (hhaving : AlikePart having parts.having) :
    Mongo.pipeline compiled { parts with filter := filter, having := having } projection
        maxDepth =
      Mongo.pipeline compiled parts projection maxDepth := by
  have hgroup : Mongo.groupStage { parts with filter := filter, having := having } projection =
      Mongo.groupStage parts projection := by
    simp only [Mongo.groupStage, Mongo.aggregateCalls, leavesOf_alike hhaving]
  have hstages : ∀ scope, Mongo.havingStages scope having maxDepth =
      Mongo.havingStages scope parts.having maxDepth := by
    intro scope
    simp only [Mongo.havingStages, filter_alike _ hhaving]
  simp only [Mongo.pipeline, hgroup, hstages]

theorem Mongo.compileParts_alike (schema : Schema) (root : String)
    (hfilter : AlikePart filter parts.filter) (hhaving : AlikePart having parts.having) :
    Mongo.compileParts schema root { parts with filter := filter, having := having } =
      Mongo.compileParts schema root parts := by
  have hfind : ∀ compiled,
      Mongo.findCommand compiled { parts with filter := filter, having := having } =
        Mongo.findCommand compiled parts := fun _ => rfl
  simp only [Mongo.compileParts, projection_replaced, hfind, filter_alike _ hfilter,
    Mongo.pipeline_alike parts _ _ _ hhaving]

theorem Search.compileParts_alike (schema : Schema) (root : String)
    (hfilter : AlikePart filter parts.filter) (hhaving : AlikePart having parts.having) :
    Search.compileParts schema root { parts with filter := filter, having := having } =
      Search.compileParts schema root parts := by
  simp only [Search.compileParts, projection_replaced, isSome_alike hhaving, filter_alike _ hfilter]

/-- A filter of groups makes one group of all records, whether or not it restricts them. -/
theorem groupRecords_alike (clock : Clock) (records : List Record)
    (hhaving : AlikePart having parts.having) :
    Store.groupRecords clock { parts with filter := filter, having := having } records =
      Store.groupRecords clock parts records := by
  -- That it is there is all that counts for an aggregation.
  have haggregated : QueryParts.isAggregated { parts with filter := filter, having := having } =
      parts.isAggregated := by
    simp only [QueryParts.isAggregated, isSome_alike hhaving]
  simp only [Store.groupRecords, haggregated]

end Backends

/-- A plain query without preprocessors is itself once it has been checked. -/
theorem prepare_plain (q : Query) (h : q.preprocessors = []) :
    q.prepare = (do
      q.check
      return q) := by
  simp only [Query.prepare, Query.preprocess, h, List.foldl_nil]

theorem prepareAdvanced_plain (q : AdvancedQuery) (h : q.preprocessors = []) :
    q.prepare = (do
      q.check
      checkValues (leavesOf q.having)
      return q) := by
  simp only [AdvancedQuery.prepare, AdvancedQuery.preprocess, h, List.foldl_nil]

/-- What is done with a prepared query is done with the query whose filter is alike, if it
    makes no difference afterwards. -/
theorem prepared_alike {α : Type} (q : Query) (hplain : q.preprocessors = [])
    {filter : Option Condition} (hfilter : AlikePart filter q.filter)
    (run : Query → Except CompileError α) (hrun : run { q with filter := filter } = run q) :
    (Query.prepare { q with filter := filter } >>= run) = (q.prepare >>= run) := by
  -- The checks see nothing of a filter but its leaves.
  have hcheck : Query.check { q with filter := filter } = q.check := by
    simp only [Query.check, leavesOf_alike hfilter]
  rw [prepare_plain q hplain, prepare_plain { q with filter := filter } hplain, hcheck]
  cases q.check with
  | error e => rfl
  | ok _ => exact hrun

/-- The same for an advanced query and both of its filters. -/
theorem preparedAdvanced_alike {α : Type} (q : AdvancedQuery) (hplain : q.preprocessors = [])
    {filter having : Option Condition} (hfilter : AlikePart filter q.filter)
    (hhaving : AlikePart having q.having) (run : AdvancedQuery → Except CompileError α)
    (hrun : run { q with filter := filter, having := having } = run q) :
    (AdvancedQuery.prepare { q with filter := filter, having := having } >>= run) =
      (q.prepare >>= run) := by
  have hcheck : Query.check { q.toQuery with filter := filter } = q.check := by
    simp only [Query.check, leavesOf_alike hfilter]
  rw [prepareAdvanced_plain q hplain,
    prepareAdvanced_plain { q with filter := filter, having := having } hplain, hcheck,
    leavesOf_alike hhaving]
  -- The filter of groups is checked last, so the error of the other check comes first.
  cases q.check with
  | error e => rfl
  | ok _ =>
      cases checkValues (leavesOf q.having) with
      | error e => rfl
      | ok _ => exact hrun

/-- Two plain queries with the same answers from every backend. -/
structure Query.Indistinguishable (new old : Query) : Prop where
  sql : ∀ schema root, Sql.compileQuery schema root new = Sql.compileQuery schema root old
  mongo : ∀ schema root, Mongo.compileQuery schema root new = Mongo.compileQuery schema root old
  search : ∀ schema root,
    Search.compileQuery schema root new = Search.compileQuery schema root old
  records : ∀ (store : Store) clock, store.findAll clock new = store.findAll clock old
  count : ∀ (store : Store) clock, store.count clock new = store.count clock old

/-- Two advanced queries that are both accepted or both refused when they are made, and have
    the same answers from every backend. -/
structure AdvancedQuery.Indistinguishable (new old : AdvancedQuery) : Prop where
  accepted : new.checked.map (fun _ => ()) = old.checked.map (fun _ => ())
  sql : ∀ schema root,
    Sql.compileAdvanced schema root new = Sql.compileAdvanced schema root old
  mongo : ∀ schema root,
    Mongo.compileAdvanced schema root new = Mongo.compileAdvanced schema root old
  search : ∀ schema root,
    Search.compileAdvanced schema root new = Search.compileAdvanced schema root old
  rows : ∀ (store : Store) clock, store.findRows clock new = store.findRows clock old

/-- A plain query without preprocessors and the query whose filter is alike. -/
theorem indistinguishable_of_alike (q : Query) (hplain : q.preprocessors = [])
    {filter : Option Condition} (hfilter : AlikePart filter q.filter) :
    Query.Indistinguishable { q with filter := filter } q := by
  have hparts : AlikePart (effectiveCondition filter) (QueryParts.ofQuery q).filter :=
    effectiveCondition_alike hfilter
  constructor
  case sql =>
    intro schema root
    exact prepared_alike q hplain hfilter (fun q => Sql.compileParts schema root (.ofQuery q))
      (Sql.compileParts_alike (.ofQuery q) schema root hparts (.refl none))
  case mongo =>
    intro schema root
    exact prepared_alike q hplain hfilter (fun q => Mongo.compileParts schema root (.ofQuery q))
      (Mongo.compileParts_alike (.ofQuery q) schema root hparts (.refl none))
  case search =>
    intro schema root
    exact prepared_alike q hplain hfilter (fun q => Search.compileParts schema root (.ofQuery q))
      (Search.compileParts_alike (.ofQuery q) schema root hparts (.refl none))
  case records =>
    intro store clock
    refine prepared_alike q hplain hfilter _ ?_
    -- Beyond its filter a plain query is read through parts that are as they were.
    have hreplaced : QueryParts.ofQuery { q with filter := filter } =
        { QueryParts.ofQuery q with filter := effectiveCondition filter, having := none } := rfl
    simp only [hreplaced, projection_replaced, filter_alike _ hparts]
  case count =>
    intro store clock
    refine prepared_alike q hplain hfilter _ ?_
    -- Counting takes the filter of the query and not that of its parts.
    simp only [filter_alike _ hfilter]

/-- An advanced query without preprocessors and the query whose filters are alike. -/
theorem indistinguishableAdvanced_of_alike (q : AdvancedQuery) (hplain : q.preprocessors = [])
    {filter having : Option Condition} (hfilter : AlikePart filter q.filter)
    (hhaving : AlikePart having q.having) :
    AdvancedQuery.Indistinguishable { q with filter := filter, having := having } q := by
  have hparts : AlikePart (effectiveCondition filter) (QueryParts.ofAdvanced q).filter :=
    effectiveCondition_alike hfilter
  have hgroups : AlikePart (effectiveCondition having) (QueryParts.ofAdvanced q).having :=
    effectiveCondition_alike hhaving
  constructor
  case accepted =>
    -- Whether there is a filter of groups is the same, and the grouping is untouched.
    have hneeds : AdvancedQuery.hasHaving { q with filter := filter, having := having } =
        q.hasHaving := isSome_alike hgroups
    have hgroup : AdvancedQuery.hasGroupBy { q with filter := filter, having := having } =
        q.hasGroupBy := rfl
    rw [AdvancedQuery.checked, AdvancedQuery.checked, hneeds, hgroup]
    split <;> rfl
  case sql =>
    intro schema root
    exact preparedAdvanced_alike q hplain hfilter hhaving
      (fun q => Sql.compileParts schema root (.ofAdvanced q))
      (Sql.compileParts_alike (.ofAdvanced q) schema root hparts hgroups)
  case mongo =>
    intro schema root
    exact preparedAdvanced_alike q hplain hfilter hhaving
      (fun q => Mongo.compileParts schema root (.ofAdvanced q))
      (Mongo.compileParts_alike (.ofAdvanced q) schema root hparts hgroups)
  case search =>
    intro schema root
    exact preparedAdvanced_alike q hplain hfilter hhaving
      (fun q => Search.compileParts schema root (.ofAdvanced q))
      (Search.compileParts_alike (.ofAdvanced q) schema root hparts hgroups)
  case rows =>
    intro store clock
    refine preparedAdvanced_alike q hplain hfilter hhaving _ ?_
    -- The rows use the two conditions only for their tests, which are alike.
    have hreplaced : QueryParts.ofAdvanced { q with filter := filter, having := having } =
        { QueryParts.ofAdvanced q with
          filter := effectiveCondition filter, having := effectiveCondition having } := rfl
    simp only [hreplaced, projection_replaced, filter_alike _ hparts, filter_alike _ hgroups,
      groupRecords_alike _ clock _ hgroups]

/-- One more empty condition below a connective, anywhere in the filter or in the filter of
    groups of a query: the condition restricts as much as before, an advanced query is
    accepted as before, and every backend has the same answer. -/
theorem emptyChild_invisible {old new : Condition} (h : old.InsertsEmpty new) :
    new.isEmpty = old.isEmpty ∧
    (∀ q : Query, q.preprocessors = [] → q.filter = some old →
      Query.Indistinguishable { q with filter := some new } q) ∧
    (∀ q : AdvancedQuery, q.preprocessors = [] → q.filter = some old →
      AdvancedQuery.Indistinguishable { q with filter := some new } q) ∧
    (∀ q : AdvancedQuery, q.preprocessors = [] → q.having = some old →
      AdvancedQuery.Indistinguishable { q with having := some new } q) := by
  have halike := alike_of_insertsEmpty h
  refine ⟨halike.isEmpty, ?_, ?_, ?_⟩
  · intro q hplain hfilter
    exact indistinguishable_of_alike q hplain (hfilter ▸ .some halike)
  · intro q hplain hfilter
    exact indistinguishableAdvanced_of_alike q hplain (hfilter ▸ .some halike) (.refl q.having)
  · intro q hplain hhaving
    exact indistinguishableAdvanced_of_alike q hplain (.refl q.filter) (hhaving ▸ .some halike)

/-- A negated empty disjunction as the last child of a negated disjunction, in a filter of
    records and in a filter of groups. -/
theorem emptyChild_invisible_sample :
    Query.Indistinguishable
        { filter := some (.not (.or [sampleCondition, .not (.or [])])) }
        { filter := some (.not (.or [sampleCondition])) } ∧
      AdvancedQuery.Indistinguishable
        { having := some (.not (.or [sampleCondition, .not (.or [])])) }
        { having := some (.not (.or [sampleCondition])) } := by
  have h := emptyChild_invisible
    (.insert [.not] .or [sampleCondition] [] (.not (.or [])) (by decide))
  exact ⟨h.2.1 { filter := some (.not (.or [sampleCondition])) } rfl rfl,
    h.2.2.2 { having := some (.not (.or [sampleCondition])) } rfl rfl⟩

end Polyquery
