import Polyquery.Proofs.Memory.Contract

/-!
# What an Answer Is Made From

A plain query makes a row of each record that matches, an advanced one of each group
that is left. `Rows` covers both, so that from here on an answer of either kind is
told by the rows it is made from: they are found by the filters, each of them has an
output and is sorted by what the sort expressions yield on it.

## Main definitions

* `Store.Found`: What an answer is made from.
* `QueryParts.outputOn`: The row that is made of it.
* `Candidate.MadeFrom`: The same row before it is sorted.

## Theorems

* `found_unique`: A query finds one list.
* `answer_found`: The candidates of an answer.
-/

namespace Polyquery

/-- The row that is made of some records: the columns of the query, or the record itself. -/
def QueryParts.outputOn (clock : Clock) (parts : QueryParts) (on : Rows) : Record :=
  match parts.select, parts.groupBy with
  | some (.items list), _ | none, some (.items list) =>
    insertAll (list.effective.map fun x => (x.label?.getD "", x.valueOn clock on))
  | _, _ => on.current

/-- A candidate is made from some records. It is compared by the record that stands for them and by
    what the sort expressions yield, and it is output as their row. -/
structure Candidate.MadeFrom (clock : Clock) (parts : QueryParts) (plan : SortPlan) (on : Rows)
    (candidate : Candidate) : Prop where
  current : candidate.current = on.current
  keys : candidate.keys = plan.values on
  output : candidate.output = parts.outputOn clock on

/-- What a query finds in a store: the records that match, or the groups that are made of them
    and pass the filter of groups. -/
def Store.Found (store : Store) (clock : Clock) (q : AnyQuery) (found : List Rows) : Prop :=
  ∃ filter, (rowInterpretation clock).filter q.effective.filter store.maxDepth = .ok filter ∧
    q.handle (fun _ => found = (store.matching filter).map .single)
      (fun _ => ∃ groups having,
        Store.groupRecords clock q.effective (store.matching filter) = .ok groups ∧
        (rowInterpretation clock).filter q.effective.having store.maxDepth = .ok having ∧
        found = (groups.map Rows.ofGroup).filter (passes having))

section Found

variable {store : Store} {clock : Clock}

theorem found_unique {q : AnyQuery} {found others : List Rows} (h : store.Found clock q found)
    (hothers : store.Found clock q others) : found = others := by
  rcases h with ⟨filter, hfilter, h⟩
  rcases hothers with ⟨other, hother, hothers⟩
  rw [hfilter] at hother
  rw [← Except.ok.inj hother] at hothers
  cases q with
  | plain p => exact Eq.trans h (Eq.symm hothers)
  | advanced p =>
      rcases h with ⟨groups, having, hgroups, hhaving, rfl⟩
      rcases hothers with ⟨_, _, hsame, hpasses, rfl⟩
      rw [hgroups] at hsame
      rw [hhaving] at hpasses
      rw [Except.ok.inj hsame, Except.ok.inj hpasses]

theorem outputOn_lists (parts : QueryParts) (list : ExpressionList) (hlists : parts.Lists list)
    (names : List String) (hnamed : list.Named names) (on : Rows) :
    parts.outputOn clock on =
      insertAll (names.zip (list.effective.map (·.valueOn clock on))) := by
  rw [hnamed.eq_map, List.zip_map']
  rcases hlists with hselect | ⟨hselect, hgroupBy⟩
  · rw [QueryParts.outputOn, hselect]
  · rw [QueryParts.outputOn, hselect, hgroupBy]

theorem outputOn_plain (q : Query) (record : Record) :
    (QueryParts.ofQuery q).outputOn clock (.single record) = q.outputOf clock record := by
  have hselect : (QueryParts.ofQuery q).select = effectiveSelection q.select := rfl
  have hgroupBy : (QueryParts.ofQuery q).groupBy = none := rfl
  rw [QueryParts.outputOn, Query.outputOf, hselect, hgroupBy]
  rcases effectiveSelection q.select with _ | list | piece <;> rfl

/-- An answer with columns has the columns of a list. -/
theorem lists_of_rowColumns {parts : QueryParts} {projection : Projection}
    {columns : List (String × Evaluator)} (hprojection : parts.projection = .ok projection)
    (hcolumns : Store.rowColumns clock projection = .ok columns) : ∃ list, parts.Lists list := by
  unfold QueryParts.projection at hprojection
  -- Rows have columns from a list, which is the select or the group-by.
  cases hselect : parts.select with
  | some selection =>
      cases selection with
      | items list => exact ⟨list, .inl hselect⟩
      | native piece =>
          rw [hselect] at hprojection
          rw [← Except.ok.inj hprojection] at hcolumns
          exact absurd hcolumns (by rintro ⟨⟩)
  | none =>
      cases hgroupBy : parts.groupBy with
      | some selection =>
          cases selection with
          | items list => exact ⟨list, .inr ⟨hselect, hgroupBy⟩⟩
          | native piece =>
              rw [hselect, hgroupBy] at hprojection
              rw [← Except.ok.inj hprojection] at hcolumns
              exact absurd hcolumns (by rintro ⟨⟩)
      | none =>
          rw [hselect, hgroupBy] at hprojection
          rw [← Except.ok.inj hprojection] at hcolumns
          exact absurd hcolumns (by rintro ⟨⟩)

/-- An answer is the result of candidates, one for each list of records that is found. -/
theorem answer_found (q : AnyQuery) (hplain : q.preprocessors = []) (rows : List Record)
    (h : q.handle (store.findAll clock) (store.findRows clock) = .ok rows) :
    ∃ found plan, ∃ candidate : Rows → Candidate, store.Found clock q found ∧
      SortPlan.ofKeys clock q.effective.sorts = .ok plan ∧
      (∀ on ∈ found, (candidate on).MadeFrom clock q.effective plan on) ∧
      rows = resultRows plan q.effective.distinct q.effective.pagination q.effective.customizers
        (found.map candidate) := by
  cases q with
  | plain p =>
      -- A plain query ranges over its records, each by itself.
      have hrows := compiled_parts (store.recordsOf clock) (.plain p) hplain rows
        ((store.findAll_eq clock p).symm.trans h)
      rcases Store.found_of_recordsOf hrows with
        ⟨projection, columns, filter, plan, hfound, hresult⟩
      refine ⟨(store.matching filter).map .single, plan,
        fun on => plan.record columns on.current, ⟨filter, hfound.filters, rfl⟩, hfound.sorts,
        fun on hon => ?_, ?_⟩
      · rcases List.mem_map.mp hon with ⟨record, _, rfl⟩
        exact ⟨rfl, rfl, (record_output clock p store projection columns filter plan hfound record).trans
          (outputOn_plain p record).symm⟩
      · rw [hresult, List.map_map]
        rfl
  | advanced p =>
      -- An advanced query ranges over its groups, and always returns columns.
      have hrows := compiled_parts (store.rowsOf clock) (.advanced p) hplain rows
        ((store.findRows_eq clock p).symm.trans h)
      rcases Store.found_of_rowsOf hrows with
        ⟨projection, columns, filter, having, groups, plan, hfound, hresult⟩
      rcases lists_of_rowColumns hfound.projects hfound.evaluates with ⟨list, hlists⟩
      rcases named_of_projection _ list hlists projection hfound.projects with
        ⟨names, hnamed, rfl⟩
      refine ⟨_, plan, plan.row columns, ⟨filter, hfound.filters, groups, having, hfound.groups,
        hfound.grouped, rfl⟩, hfound.sorts, fun on _ => ⟨rfl, rfl, ?_⟩, hresult⟩
      exact (outputRow_eq clock list names hnamed columns hfound.evaluates on).trans
        (outputOn_lists _ list hlists names hnamed on).symm

end Found

end Polyquery
