import Mathlib
import Polyquery.Proofs.Memory.Found
import Polyquery.Proofs.Memory.Partition

/-!
# Rows of Groups

A query with a group-by makes a row of every group of equal records that passes the
filter of groups. The groups are a partition of the records that match, whatever the
query returns of them. Its rows can be traced back to them: without distinct rows and
pages a row stands for each group that passes, and sorting only moves the rows.

Counting is what shows that no record is lost or taken twice. The number of values of
an argument on a group counts those records of it on which the argument is not null,
so over all groups these numbers add up to the number of such records (`sum_counts`).

## Main definitions

* `rowsOfGroup`: What the row of a group is made from.
* `Argument.hasValue`: Whether an argument is not null.
* `Store.GroupedBy`: The groups of a query.

## Theorems

* `resultRows_all`: Rows of which none is taken away.
* `counts_ofGroup`, `sum_counts`: Counting by groups.
* `found_groups`: What is found is the groups that are kept.
* `grouping_partitions`: Groups and rows of a query.
-/

namespace Polyquery

/-- What the row of a group is made from. -/
def rowsOfGroup (group : List (Record × Nat)) : Rows :=
  .ofGroup (group.map Prod.fst)

section Rows

/-- What nothing comes before stays as it is. -/
theorem insertionSort_eq_self {α : Type} (precedes : α → α → Bool)
    (h : ∀ a b, precedes a b = false) (as : List α) : insertionSort precedes as = as := by
  induction as using List.reverseRecOn with
  | nil => rfl
  | append_singleton as a ih =>
      have hstays (sorted : List α) : insertReversed precedes a sorted = a :: sorted := by
        cases sorted with
        | nil => rfl
        | cons b rest => rw [insertReversed, h, if_neg Bool.false_ne_true]
      rw [insertionSort_concat, ih, hstays, List.reverse_cons, List.reverse_reverse]

/-- When rows are neither distinct nor on a page there is one for each candidate. Without sort keys
    they keep their order. -/
theorem resultRows_all {α : Type} (plan : SortPlan) (f : α → Candidate) (as : List α) :
    ∃ order, order.Perm as ∧ (plan.orders = [] → order = as) ∧
      resultRows plan false none [] (as.map f) = order.map fun a => (f a).output := by
  refine ⟨insertionSort (fun a b => plan.precedes (f a) (f b)) as, insertionSort_perm _ as,
    fun hnone => insertionSort_eq_self _ (fun a b => ?_) as, ?_⟩
  · rw [SortPlan.precedes, hnone]
    rfl
  · change (insertionSort plan.precedes (as.map f)).map (·.output) = _
    rw [insertionSort_map, List.map_map]
    rfl

end Rows

section Counting

variable (clock : Clock) (argument : Argument)

/-- Whether an argument has a value on a record. -/
def Argument.hasValue (record : Record) : Bool :=
  !(argument.valueOn clock (.single record)).isNull

theorem counts_ofGroup (hvalid : Expression.validArguments [argument] = true)
    (label : Option String) (on : Rows) :
    (Expression.call .count [argument] label).valueOn clock on =
      .ofNat (on.group.countP (argument.hasValue clock)) := by
  rw [Expression.valueOn_aggregate clock .count Aggregate.count rfl argument hvalid label on,
    Aggregate.count, Argument.presentOn, ← List.countP_eq_length_filter, List.countP_map]
  rfl

/-- What is counted on the groups is what is counted on all records. -/
theorem sum_counts {same : Record → Record → Bool} {docs : List Record}
    {groups : List (List (Record × Nat))} (h : PartitionedBy same docs groups) :
    (groups.map fun group => (rowsOfGroup group).group.countP (argument.hasValue clock)).sum =
      docs.countP (argument.hasValue clock) := by
  have hcount (group : List (Record × Nat)) :
      (rowsOfGroup group).group.countP (argument.hasValue clock) =
        group.countP fun place => argument.hasValue clock place.1 :=
    List.countP_map
  simp only [hcount]
  rw [← List.countP_flatten, h.covers.countP_eq]
  calc docs.zipIdx.countP (fun place => argument.hasValue clock place.1)
      _ = (docs.zipIdx.map Prod.fst).countP (argument.hasValue clock) := by
        rw [List.countP_map]
        rfl
      _ = docs.countP (argument.hasValue clock) := by rw [List.zipIdx_map_fst]

end Counting

/-- The records that match a query with a group-by, the groups that are made of them, and the
    groups that pass its filter of groups. -/
structure Store.GroupedBy (store : Store) (clock : Clock) (q : AdvancedQuery)
    (list : ExpressionList) (docs : List Record) (groups kept : List (List (Record × Nat))) :
    Prop where
  matching : store.Matching clock q.toQuery docs
  partition : PartitionedBy (list.sameKey clock) docs groups
  keeps : ∃ having, (rowInterpretation clock).filter (effectiveCondition q.having) store.maxDepth =
    .ok having ∧ kept = groups.filter fun group => passes having (rowsOfGroup group)

section Groups

variable {store : Store} {clock : Clock} {q : AdvancedQuery} {list : ExpressionList}

/-- Without a filter of groups all of them are kept. -/
theorem Store.GroupedBy.kept_eq {docs : List Record} {groups kept : List (List (Record × Nat))}
    (h : store.GroupedBy clock q list docs groups kept)
    (hnone : effectiveCondition q.having = none) :
    kept = groups := by
  rcases h.keeps with ⟨having, hhaving, rfl⟩
  rw [hnone] at hhaving
  rw [← Except.ok.inj hhaving]
  exact List.filter_eq_self.mpr fun _ _ => rfl

/-- What a query with a group-by finds are the groups that pass its filter of groups. -/
theorem found_groups (hgroupBy : effectiveSelection q.groupBy = some (.items list))
    (hproper : ∀ record ∈ store.records, (Json.object record).Proper) (found : List Rows)
    (h : store.Found clock (.advanced q) found) :
    ∃ docs groups kept, store.GroupedBy clock q list docs groups kept ∧
      found = kept.map rowsOfGroup := by
  rcases h with ⟨test, htest, groups, having, hgroups, hhaving, rfl⟩
  have hdocs : ∀ record ∈ store.matching test, (Json.object record).Proper :=
    fun record hrecord => hproper record (List.mem_filter.mp hrecord).1
  have hequivalence := equivalenceOn_sameKey clock list (store.matching test) hdocs
  refine ⟨store.matching test, groupsOf (list.sameKey clock) (store.matching test), _,
    ⟨⟨test, htest, rfl⟩, partitionedBy_groupsOf hequivalence, having, hhaving, rfl⟩, ?_⟩
  rw [groupRecords_eq clock list _ hgroupBy (store.matching test) hdocs groups hgroups,
    List.map_map, List.filter_map]
  rfl

end Groups

/-- A query with a group-by makes its rows from a partition of the records that match it. The
    groups are kept or left out as a whole by the filter of groups. Every row is made from one that
    is kept, and one row from each of them if rows are neither distinct nor on a page. The numbers
    of values that an argument has on the groups add up to the number of matching records on which
    it has a value, and so do the counts in the rows if all groups are kept. -/
theorem grouping_partitions (store : Store) (clock : Clock) (q : AdvancedQuery)
    (list : ExpressionList) (hgroupBy : effectiveSelection q.groupBy = some (.items list))
    (hplain : q.preprocessors = []) (hcustomizers : q.customizers = [])
    (hproper : ∀ record ∈ store.records, (Json.object record).Proper) (rows : List Record)
    (h : store.findRows clock q = .ok rows) :
    ∃ docs groups kept, store.GroupedBy clock q list docs groups kept ∧
      (∀ row ∈ rows, ∃ group ∈ kept,
        row = (QueryParts.ofAdvanced q).outputOn clock (rowsOfGroup group)) ∧
      (q.distinct = false → q.pagination = none → ∃ order, order.Perm kept ∧
        (q.sorts = [] → order = kept) ∧ rows = order.map fun group =>
          (QueryParts.ofAdvanced q).outputOn clock (rowsOfGroup group)) ∧
      ∀ argument, Expression.validArguments [argument] = true →
        (∃ counts : List Nat, counts.sum = docs.countP (argument.hasValue clock) ∧
          ∀ label, groups.map (fun group =>
            (Expression.call .count [argument] label).valueOn clock (rowsOfGroup group)) =
              counts.map Json.ofNat) ∧
        (effectiveCondition q.having = none → q.distinct = false → q.pagination = none →
          ∀ columns before after name, (QueryParts.ofAdvanced q).Lists columns →
            columns.effective = before ++ .call .count [argument] (some name) :: after →
            (∀ x ∈ after, x.label? ≠ some name) →
            ∃ counts : List Nat, counts.sum = docs.countP (argument.hasValue clock) ∧
              rows.map (List.lookup name) = counts.map fun n => some (.ofNat n)) := by
  rcases answer_found (.advanced q) hplain rows h with
    ⟨found, plan, candidate, hfound, hplan, heach, hrows⟩
  rcases found_groups hgroupBy hproper found hfound with ⟨docs, groups, kept, hgrouped, rfl⟩
  have hresult : rows = resultRows plan q.distinct q.pagination []
      (kept.map fun group => candidate (rowsOfGroup group)) := by
    rw [hrows, List.map_map, ← hcustomizers]
    rfl
  have houtput : ∀ group ∈ kept, (candidate (rowsOfGroup group)).output =
      (QueryParts.ofAdvanced q).outputOn clock (rowsOfGroup group) :=
    fun group hgroup => (heach _ (List.mem_map_of_mem hgroup)).output
  have hall : q.distinct = false → q.pagination = none → ∃ order, order.Perm kept ∧
      (q.sorts = [] → order = kept) ∧ rows = order.map fun group =>
        (QueryParts.ofAdvanced q).outputOn clock (rowsOfGroup group) := by
    intro hdistinct hpage
    rcases resultRows_all plan (fun group => candidate (rowsOfGroup group)) kept with
      ⟨order, hperm, hself, hmap⟩
    refine ⟨order, hperm, fun hsorts => hself ?_, ?_⟩
    · have hkeys : SortPlan.ofKeys clock q.sorts = .ok plan := hplan
      rw [hsorts] at hkeys
      rw [← Except.ok.inj hkeys]
    · rw [hresult, hdistinct, hpage, hmap]
      exact List.map_congr_left fun group hgroup => houtput group (hperm.mem_iff.mp hgroup)
  refine ⟨docs, groups, kept, hgrouped, fun row hrow => ?_, hall, fun argument hvalid =>
    ⟨⟨_, sum_counts clock argument hgrouped.partition, fun label => ?_⟩, ?_⟩⟩
  · rw [hresult] at hrow
    rcases mem_resultRows plan _ _ _ row hrow with ⟨c, hc, rfl⟩
    rcases List.mem_map.mp hc with ⟨group, hgroup, rfl⟩
    exact ⟨group, hgroup, houtput group hgroup⟩
  · rw [List.map_map]
    exact List.map_congr_left fun group _ => counts_ofGroup clock argument hvalid label _
  · intro hnone hdistinct hpage columns before after name hlists hcolumns hlast
    rcases rows_columns (.advanced q) columns hlists hplain hcustomizers store clock rows h with
      ⟨names, hnamed, _⟩
    -- There is a row for every group, in whatever order, and the order plays no part in a sum.
    rcases hall hdistinct hpage with ⟨order, hperm, _, horder⟩
    rw [hgrouped.kept_eq hnone] at hperm
    refine ⟨order.map fun group => (rowsOfGroup group).group.countP (argument.hasValue clock),
      ?_, ?_⟩
    · rw [(hperm.map _).sum_eq]
      exact sum_counts clock argument hgrouped.partition
    · rw [horder, List.map_map, List.map_map]
      refine List.map_congr_left fun group _ => ?_
      have hof := rowOf_insertAll clock columns names hnamed (rowsOfGroup group)
      rw [← outputOn_lists _ columns hlists names hnamed] at hof
      exact (hof.values before _ after name hcolumns rfl hlast).trans
        (congrArg some (counts_ofGroup clock argument hvalid (some name) _))

/-- The number of values of `n` beside the key. -/
def sampleCounts : ExpressionList where
  names := ["k"]
  expressions := [.call .count [.expression (.property "n" none)] (some "count")]

/-- Three records with two keys. -/
def sampleKeyed : Store where
  records := [[("k", .ofInt 1), ("n", .ofInt 5)], [("k", .ofInt 2)], [("k", .ofInt 1)]]

/-- A query that counts by key. -/
def sampleByKey : AdvancedQuery where
  select := some (.items sampleCounts)
  groupBy := some (.items ⟨["k"], []⟩)

/-- The three records are in two groups, and of the one value that is there the first group has one
    and the second none. -/
theorem grouping_partitions_sample :
    ∃ docs groups kept, sampleKeyed.GroupedBy ⟨"", "", ""⟩ sampleByKey ⟨["k"], []⟩ docs groups
        kept ∧
      ∃ counts : List Nat,
        counts.sum =
          docs.countP (Argument.hasValue ⟨"", "", ""⟩ (.expression (.property "n" none))) ∧
        [some (.ofNat 1), some (.ofNat 0)] = counts.map fun n => some (Json.ofNat n) := by
  have hproper : ∀ record ∈ sampleKeyed.records, (Json.object record).Proper := by
    simp only [sampleKeyed, List.forall_mem_cons, List.not_mem_nil, false_implies, forall_const,
      and_true]
    refine ⟨.object _ (by decide) ?_, .object _ (by decide) ?_, .object _ (by decide) ?_⟩
    all_goals simp only [List.forall_mem_cons, List.not_mem_nil, false_implies, forall_const,
      and_true]
    · exact ⟨.int _, .int _⟩
    · exact .int _
    · exact .int _
  rcases grouping_partitions sampleKeyed ⟨"", "", ""⟩ sampleByKey ⟨["k"], []⟩ rfl rfl rfl hproper
    [[("k", .ofInt 1), ("count", .ofNat 1)], [("k", .ofInt 2), ("count", .ofNat 0)]] rfl with
    ⟨docs, groups, kept, hgrouped, _, _, hcounts⟩
  rcases (hcounts (.expression (.property "n" none)) rfl).2 rfl rfl rfl sampleCounts
    [.property "k" none] [] "count" (.inl rfl) rfl (fun _ h => absurd h List.not_mem_nil) with
    ⟨counts, hsum, hrows⟩
  exact ⟨docs, groups, kept, hgrouped, counts, hsum, hrows⟩

end Polyquery
