import Polyquery.Proofs.Memory.Found

/-!
# Lifted Queries in Memory

A plain query that selects columns can be lifted to an advanced one, which asks for
the same columns of the same records. No compiler sees a difference, since the parts
of the two are the same (`compileGrouped_lifted`). A store has a way of its own to
answer each kind of query, and there the two come apart in one place. A plain query
makes a row of each record. The lifted one does so only as long as no column has an
aggregate, and otherwise folds the records that match into a single group.

So both answers are `QueryParts.resultOn` of the same parts, on the records one by
one and on what `ExpressionList.liftedOn` makes of them, and they fail together
(`recordsOf_alike`). They are the same without aggregates, or when a single record
matches, and in general not otherwise: the number of rows tells them apart.

## Main definitions

* `ExpressionList.Folds`, `ExpressionList.liftedOn`: What rows are made from once a
  query is lifted.
* `QueryParts.resultOn`: The rows that are made of it.
* `Store.Lifts`: Both answers.

## Theorems

* `compileGrouped_lifted`: Backends compile a query and its lifted form alike.
* `recordsOf_alike`, `findAll_alike`: Both answers of a store.
* `length_resultOn`: The number of rows.
* `lifting_folds`: What lifting does to an answer.
-/

namespace Polyquery

/-- Some column has an aggregate. -/
def ExpressionList.Folds (list : ExpressionList) : Prop :=
  ∃ x ∈ list.effective, x.aggregate?.isSome = true

instance (list : ExpressionList) : Decidable list.Folds :=
  inferInstanceAs (Decidable (∃ x ∈ list.effective, x.aggregate?.isSome = true))

/-- What the rows of a lifted query are made from: all records at once if some column has an
    aggregate, or else each record by itself. -/
def ExpressionList.liftedOn (list : ExpressionList) (records : List Record) : List Rows :=
  if list.Folds then [.ofGroup records] else records.map .single

/-- The rows that are made of what a query finds. -/
def QueryParts.resultOn (clock : Clock) (parts : QueryParts) (plan : SortPlan)
    (found : List Rows) : List Record :=
  resultRows plan parts.distinct parts.pagination parts.customizers
    (found.map fun on => ⟨on.current, plan.values on, parts.outputOn clock on⟩)

section Compiling

variable {α : Type} (compile : QueryParts → Except CompileError α) (q : Query)

/-- What is compiled from its parts is compiled as before once it is lifted. -/
theorem compileGrouped_lifted (hplain : q.preprocessors = []) :
    compileGrouped compile (.ofQuery q) = compilePlain compile q := by
  have hplainly := handle_plain compile (.plain q) hplain
  have hlifted := handle_plain compile (.advanced (.ofQuery q)) rfl
  have hcheck : (AnyQuery.advanced (.ofQuery q)).check = (AnyQuery.plain q).check := by
    change (q.check >>= fun _ => .ok ()) = q.check
    cases q.check <;> rfl
  rw [hcheck] at hlifted
  exact hlifted.trans hplainly.symm

end Compiling

section Answers

variable (store : Store) (clock : Clock) (parts : QueryParts) {list : ExpressionList}

theorem liftedOn_single (record : Record) : list.liftedOn [record] = [.single record] := by
  unfold ExpressionList.liftedOn
  split <;> rfl

/-- The number of rows, as long as nothing takes some away. -/
theorem length_resultOn (plan : SortPlan) (found : List Rows) (hdistinct : parts.distinct = false)
    (hpage : parts.pagination = none) (hcustomizers : parts.customizers = []) :
    (parts.resultOn clock plan found).length = found.length := by
  rw [QueryParts.resultOn, hdistinct, hpage, hcustomizers]
  change ((insertionSort plan.precedes (found.map _)).map _).length = _
  rw [List.length_map, (insertionSort_perm plan.precedes _).length_eq, List.length_map]

variable (hselect : parts.select = some (.items list)) (hgroupBy : parts.groupBy = none)
  (hhaving : parts.having = none)

include hselect hgroupBy hhaving

/-- Without a group-by there is a single group or one for each record. -/
theorem groupRecords_lifted (records : List Record) : ∃ groups,
    Store.groupRecords clock parts records = .ok groups ∧
      (groups.map Rows.ofGroup).filter (passes none) = list.liftedOn records := by
  have hpass (groups : List Rows) : groups.filter (passes none) = groups :=
    List.filter_eq_self.mpr fun _ _ => rfl
  have haggregated : parts.isAggregated = true ↔ list.Folds := by
    rw [QueryParts.isAggregated, hhaving, hselect, Option.isSome_none, Bool.false_or,
      Option.any_some, List.any_eq_true]
    rfl
  simp only [Store.groupRecords, hgroupBy, hpass, ExpressionList.liftedOn, haggregated]
  split
  · exact ⟨[records], rfl, rfl⟩
  · refine ⟨records.map fun record => [record], rfl, ?_⟩
    rw [List.map_map]
    rfl

/-- The parts of a query are answered alike in both ways, on what each of them finds. -/
theorem recordsOf_alike :
    Alike (fun rows lifted => ∃ filter plan,
        (rowInterpretation clock).filter parts.filter store.maxDepth = .ok filter ∧
        SortPlan.ofKeys clock parts.sorts = .ok plan ∧
        rows = parts.resultOn clock plan ((store.matching filter).map .single) ∧
        lifted = parts.resultOn clock plan (list.liftedOn (store.matching filter)))
      (store.recordsOf clock parts) (store.rowsOf clock parts) := by
  unfold Store.recordsOf Store.rowsOf
  refine .bind _ fun projection hprojection => ?_
  rcases named_of_projection parts list (.inl hselect) projection hprojection with
    ⟨names, hnamed, rfl⟩
  simp only [Store.recordColumns, Store.rowColumns]
  cases hcolumns : columnEvaluators clock (names.zip list.effective) with
  | error e => exact .error e
  | ok columns =>
      -- The same columns are put out by both, over records in the one case and groups in the other.
      have houtput (on : Rows) : outputRow columns on = parts.outputOn clock on :=
        (outputRow_eq clock list names hnamed columns hcolumns on).trans
          (outputOn_lists parts list (.inl hselect) names hnamed on).symm
      -- So a row is sorted by the same values and has the same output.
      have hcandidates (plan : SortPlan) : plan.row columns =
          fun on => ⟨on.current, plan.values on, parts.outputOn clock on⟩ := by
        funext on
        rw [SortPlan.row, houtput]
      change Alike _ ((rowInterpretation clock).filter _ _ >>= _)
        ((rowInterpretation clock).filter _ _ >>= _)
      refine .bind _ fun filter hfilter => ?_
      rcases groupRecords_lifted clock parts hselect hgroupBy hhaving (store.matching filter) with
        ⟨groups, hgroups, hlifted⟩
      rw [hgroups, hhaving]
      refine .bind _ fun plan hplan => .ok _ _ ⟨filter, plan, hfilter, hplan, ?_, ?_⟩
      · rw [QueryParts.resultOn, List.map_map, ← hcandidates]
        rfl
      · rw [QueryParts.resultOn, ← hcandidates, ← hlifted]

end Answers

/-- The answers to a query with columns and to its lifted form, made from the same records. -/
def Store.Lifts (store : Store) (clock : Clock) (q : Query) (list : ExpressionList)
    (rows lifted : List Record) : Prop :=
  ∃ records plan, store.Found clock (.plain q) (records.map .single) ∧
    store.Found clock (.advanced (.ofQuery q)) (list.liftedOn records) ∧
    SortPlan.ofKeys clock q.sorts = .ok plan ∧
    rows = (QueryParts.ofQuery q).resultOn clock plan (records.map .single) ∧
    lifted = (QueryParts.ofQuery q).resultOn clock plan (list.liftedOn records)

section Queries

variable (store : Store) (clock : Clock) {q : Query} {list : ExpressionList}
  (hplain : q.preprocessors = []) (hselect : effectiveSelection q.select = some (.items list))

include hplain hselect

theorem findAll_alike :
    Alike (store.Lifts clock q list) (store.findAll clock q)
      (store.findRows clock (.ofQuery q)) := by
  rw [store.findAll_eq, store.findRows_eq, compileGrouped_lifted _ q hplain]
  have hhandle (answer : QueryParts → Except CompileError (List Record)) :
      compilePlain answer q = q.check >>= fun _ => answer (.ofQuery q) :=
    handle_plain answer (.plain q) hplain
  rw [hhandle, hhandle]
  refine .bind _ fun _ _ => (recordsOf_alike store clock (.ofQuery q) hselect rfl rfl).mono ?_
  rintro rows lifted ⟨filter, plan, hfilter, hplan, hrows, hlifted⟩
  rcases groupRecords_lifted clock (.ofQuery q) hselect rfl rfl (store.matching filter)
    with ⟨groups, hgroups, hgroup⟩
  exact ⟨store.matching filter, plan, ⟨filter, hfilter, rfl⟩,
    ⟨filter, hfilter, groups, none, hgroups, rfl, hgroup.symm⟩, hplan, hrows, hlifted⟩

end Queries

/-- Lifting a query that selects columns changes nothing in what is compiled, nor whether and
    how a store fails to answer. Where there is an answer, the lifted query gives what the query
    gives, but on the records folded into one group once a column has an aggregate. So the
    answers are the same without aggregates, and otherwise when a single record matches. When
    nothing takes rows away, that is the only case. -/
theorem lifting_folds (q : Query) (list : ExpressionList) (hplain : q.preprocessors = [])
    (hselect : effectiveSelection q.select = some (.items list)) :
    (∀ schema root, Sql.compileAdvanced schema root (.ofQuery q) = Sql.compileQuery schema root q) ∧
    (∀ schema root,
      Mongo.compileAdvanced schema root (.ofQuery q) = Mongo.compileQuery schema root q) ∧
    (∀ schema root,
      Search.compileAdvanced schema root (.ofQuery q) = Search.compileQuery schema root q) ∧
    ∀ (store : Store) clock,
      Alike (store.Lifts clock q list) (store.findAll clock q)
        (store.findRows clock (.ofQuery q)) ∧
      (¬ list.Folds → store.findRows clock (.ofQuery q) = store.findAll clock q) ∧
      (∀ on, store.Found clock (.plain q) [on] →
        store.findRows clock (.ofQuery q) = store.findAll clock q) ∧
      (list.Folds → q.distinct = false → q.pagination = none → q.customizers = [] →
        ∀ rows, store.findAll clock q = .ok rows → ∃ found, store.Found clock (.plain q) found ∧
          rows.length = found.length ∧ ∃ row, store.findRows clock (.ofQuery q) = .ok [row] ∧
            (rows = [row] ↔ found.length = 1)) := by
  refine ⟨fun schema root => compileGrouped_lifted (Sql.compileParts schema root) q hplain,
    fun schema root => compileGrouped_lifted (Mongo.compileParts schema root) q hplain,
    fun schema root => compileGrouped_lifted (Search.compileParts schema root) q hplain,
    fun store clock => ?_⟩
  have halike := findAll_alike store clock hplain hselect
  refine ⟨halike, fun hfolds => ?_, fun on hon => ?_, fun hfolds hdistinct hpage hcustomizers
    rows hrows => ?_⟩
  · refine (halike.eq_of ?_).symm
    -- Nothing folds, so the lifted query ranges over the same records.
    rintro rows lifted ⟨records, plan, -, -, -, rfl, rfl⟩
    rw [ExpressionList.liftedOn, if_neg hfolds]
  · refine (halike.eq_of ?_).symm
    rintro rows lifted ⟨records, plan, hfound, -, -, rfl, rfl⟩
    -- There is one record, and the group of it alone has the values of the record.
    rcases List.map_eq_singleton_iff.mp (found_unique hfound hon) with ⟨record, rfl, -⟩
    rw [liftedOn_single]
    rfl
  · rcases halike.exists_ok hrows with ⟨lifted, hlifted, records, plan, hfound, -, -, rfl, rfl⟩
    -- No row is dropped or cut off, so there are as many rows as records.
    have hlength (found : List Rows) := length_resultOn clock (.ofQuery q) plan found
      hdistinct hpage hcustomizers
    rw [ExpressionList.liftedOn, if_pos hfolds] at hlifted
    rcases List.length_eq_one_iff.mp (hlength [.ofGroup records]) with ⟨row, hrow⟩
    rw [hrow] at hlifted
    refine ⟨records.map .single, hfound, hlength _, row, hlifted, fun h => ?_, fun h => ?_⟩
    · rw [← hlength, h, List.length_singleton]
    · -- A record by itself and the group of it alone are the same.
      rcases List.length_eq_one_iff.mp h with ⟨on, hon⟩
      rcases List.map_eq_singleton_iff.mp hon with ⟨record, rfl, -⟩
      exact hrow

/-- The number of records. -/
def sampleTotal : ExpressionList where
  names := []
  expressions := [.call .count [.expression (.property "id" none)] (some "total")]

/-- Two records. -/
def samplePair : Store where
  records := [[("id", .ofInt 1)], [("id", .ofInt 2)]]

/-- Two records are counted one by one, and together once the query is lifted. -/
theorem lifting_folds_sample :
    effectiveSelection (some (.items sampleTotal)) = some (.items sampleTotal) ∧
    sampleTotal.Folds ∧ ∃ found row,
      samplePair.Found ⟨"", "", ""⟩ (.plain { select := some (.items sampleTotal) }) found ∧
      found.length = 2 ∧
      samplePair.findAll ⟨"", "", ""⟩ { select := some (.items sampleTotal) } =
        .ok [[("total", .ofNat 1)], [("total", .ofNat 1)]] ∧
      samplePair.findRows ⟨"", "", ""⟩ (.ofQuery { select := some (.items sampleTotal) }) =
        .ok [row] := by
  have hfolds : sampleTotal.Folds := by decide
  have hrows : samplePair.findAll ⟨"", "", ""⟩ { select := some (.items sampleTotal) } =
      .ok [[("total", .ofNat 1)], [("total", .ofNat 1)]] := rfl
  rcases ((lifting_folds { select := some (.items sampleTotal) } sampleTotal rfl rfl).2.2.2
    samplePair ⟨"", "", ""⟩).2.2.2 hfolds rfl rfl rfl _ hrows with
    ⟨found, hfound, hlength, row, hrow, _⟩
  exact ⟨rfl, hfolds, found, row, hfound, hlength.symm, hrows, hrow⟩

end Polyquery
