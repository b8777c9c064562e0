import Polyquery.Proofs.Memory.Contract
import Polyquery.Proofs.Memory.Preorder
import Polyquery.Proofs.Query.Pages

/-!
# Counting Records

A store counts the records that match a query without making rows of them. It prepares
the query and compiles the filter once more for this, on a way of its own, so it has to
be shown that a page of an answer and the number beside it speak of the same records.

They do, because both ways look at the same parts: the number depends on the filter,
and on nothing else as long as the query passes the checks (`count_eq`). From there on
an answer only loses rows in two places, first when equal ones are dropped and then
when it is cut to a page. The first of several equal rows always stays, so dropping
them never leaves an answer empty (`Deduplicates.eq_nil_iff`). Only a page that starts
behind the last row does.

Equality of rows need not be an equivalence for any of this.

## Main definitions

* `rowsOnPage`: The number of rows that a page has of a total.
* `Deduplicates`: Rows without those that are equal to one that is kept.

## Theorems

* `length_window`, `length_resultRows`, `rowsOnPage_mono`, `rowsOnPage_eq_zero_iff`: Rows on a
  page.
* `Deduplicates.eq_nil_iff`: Dropping equal rows never drops all of them.
* `count_eq`: What is counted.
* `Deduplicates.concat`, `distinctOutputs_deduplicates`: Distinct rows are deduplicated.
* `findAll_arranged`, `check_of_findAll`: An answer is a page of the rows that are kept.
* `count_agrees`: The number of records and the number of rows.
-/

namespace Polyquery

/-- The number of rows that a page has of a total, or the total without a page. -/
def rowsOnPage : Option Pagination → Nat → Nat
  | none, total => total
  | some page, total => min page.size (total - (page.page - 1) * page.size)

/-- What is kept of rows when those are dropped that are equal to one that is kept. -/
structure Deduplicates (rows kept : List Record) : Prop where
  sublist : kept.Sublist rows
  different : kept.Pairwise fun a b => (Json.object a).same (.object b) = false
  covers : ∀ row ∈ rows, row ∈ kept ∨
    ∃ other ∈ kept, (Json.object other).same (.object row) = true

section Pages

theorem length_window (page : Pagination) (rows : List Record) :
    (page.window rows).length = rowsOnPage (some page) rows.length := by
  rw [Pagination.window, offset_eq, List.length_take, List.length_drop, rowsOnPage]

/-- More rows in total are no fewer rows on a page. -/
theorem rowsOnPage_mono (page : Option Pagination) {m n : Nat} (h : m ≤ n) :
    rowsOnPage page m ≤ rowsOnPage page n := by
  cases page with
  | none => exact h
  | some page =>
      simp only [rowsOnPage]
      omega

/-- The rows of a result are counted before they are cut to a page. -/
theorem length_resultRows (plan : SortPlan) (distinct : Bool) (page : Option Pagination)
    (rows : List Candidate) :
    (resultRows plan distinct page [] rows).length =
      rowsOnPage page ((insertionSort plan.precedes
        (if distinct then distinctOutputs rows else rows)).map (·.output)).length := by
  cases page with
  | none => rfl
  | some page => exact length_window page _

/-- A page is empty if it starts behind the rows, since it has room for one at least. -/
theorem rowsOnPage_eq_zero_iff (page : Option Pagination) (total : Nat) :
    rowsOnPage page total = 0 ↔
      total = 0 ∨ ∃ p, page = some p ∧ total ≤ (p.page - 1) * p.size := by
  cases page with
  | none => simp only [rowsOnPage, reduceCtorEq, false_and, exists_false, or_false]
  | some page =>
      have hsize := page.one_le_size
      simp only [rowsOnPage, Option.some.injEq, exists_eq_left']
      omega

end Pages

section Distinct

/-- Nothing is left exactly if there was nothing. -/
theorem Deduplicates.eq_nil_iff {rows kept : List Record} (h : Deduplicates rows kept) :
    kept = [] ↔ rows = [] := by
  constructor
  · rintro rfl
    rw [List.eq_nil_iff_forall_not_mem]
    intro row hrow
    rcases h.covers row hrow with hmem | ⟨other, hother, _⟩
    · exact List.not_mem_nil hmem
    · exact List.not_mem_nil hother
  · rintro rfl
    exact List.sublist_nil.mp h.sublist

/-- One more row is kept unless it is equal to one that is kept already. -/
theorem Deduplicates.concat {rows kept : List Record} (h : Deduplicates rows kept) (row : Record) :
    Deduplicates (rows ++ [row])
      (if kept.any fun other => (Json.object other).same (.object row) then kept
        else kept ++ [row]) := by
  split
  case isTrue hequal =>
    -- A row like it has been kept before.
    refine ⟨h.sublist.trans (List.sublist_append_left rows [row]), h.different, ?_⟩
    rw [List.forall_mem_append, List.forall_mem_singleton]
    exact ⟨h.covers, .inr (List.any_eq_true.mp hequal)⟩
  case isFalse hnone =>
    -- The row is a new one, and it differs from all that were kept.
    rw [Bool.not_eq_true, List.any_eq_false] at hnone
    refine ⟨h.sublist.append (.refl [row]), ?_, ?_⟩
    · refine List.pairwise_append.mpr ⟨h.different, List.pairwise_singleton _ row, ?_⟩
      intro other hother last hlast
      rw [List.mem_singleton.mp hlast]
      exact eq_false_of_ne_true (hnone other hother)
    · rw [List.forall_mem_append, List.forall_mem_singleton]
      refine ⟨fun old hold => ?_, .inl List.mem_concat_self⟩
      rcases h.covers old hold with hkept | ⟨other, hother, hsame⟩
      · exact .inl (List.mem_append_left [row] hkept)
      · exact .inr ⟨other, List.mem_append_left [row] hother, hsame⟩

/-- The outputs of distinct rows are those of all rows, deduplicated. -/
theorem distinctOutputs_deduplicates (rows : List Candidate) :
    Deduplicates (rows.map (·.output)) ((distinctOutputs rows).map (·.output)) := by
  induction rows using List.reverseRecOn with
  | nil => exact ⟨.slnil, .nil, fun row hrow => absurd hrow List.not_mem_nil⟩
  | append_singleton rows c ih =>
      have hstep := ih.concat c.output
      rw [List.any_map] at hstep
      rw [List.map_append, List.map_singleton, distinctOutputs_concat, apply_ite (List.map _),
        List.map_append, List.map_singleton]
      exact hstep

end Distinct

section Counts

variable (store : Store) (clock : Clock)

/-- A query without preprocessors counts the records that match its filter, once the checks of
    the filter are passed. Of its other parts only the sort keys are looked at, and only to
    check them. -/
theorem count_eq (q : Query) (hplain : q.preprocessors = []) (docs : List Record)
    (hmatching : store.Matching clock q docs)
    (haggregates : checkAggregates (leavesOf q.filter) = .ok ())
    (hvalues : checkValues (leavesOf q.filter) = .ok ()) :
    store.count clock q = (checkSorts q.sorts).map fun _ => docs.length := by
  rcases hmatching with ⟨test, htest, rfl⟩
  rw [filter_effective] at htest
  rw [Store.count, prepare_plain q hplain, Query.check, haggregates, hvalues]
  cases checkSorts q.sorts with
  | error e => rfl
  | ok _ =>
      change ((rowInterpretation clock).filter q.filter store.maxDepth >>= fun filter =>
        .ok (store.matching filter).length) = _
      rw [htest]
      rfl

/-- An answer to a query without preprocessors and customizers is a page of the outputs of the
    records that match, or of those that are kept of them, in some order. -/
theorem findAll_arranged (q : Query) (hplain : q.preprocessors = [])
    (hcustomizers : q.customizers = []) (rows : List Record)
    (h : store.findAll clock q = .ok rows) :
    ∃ docs kept arranged : List Record, store.Matching clock q docs ∧ arranged.Perm kept ∧
      rows.length = rowsOnPage q.pagination arranged.length ∧
      (q.distinct = false → kept = docs.map (q.outputOf clock)) ∧
      (q.distinct = true → Deduplicates (docs.map (q.outputOf clock)) kept) := by
  have hrows : store.recordsOf clock (.ofQuery q) = .ok rows :=
    compiled_parts (store.recordsOf clock) (.plain q) hplain rows
      ((store.findAll_eq clock q).symm.trans h)
  rcases Store.found_of_recordsOf hrows with ⟨projection, columns, test, plan, hfound, hresult⟩
  have houtput := record_output clock q store projection columns test plan hfound
  generalize hcandidates : (store.matching test).map (plan.record columns) = candidates at hresult
  -- The candidates have the outputs of the matching records, in the same order.
  have houtputs : candidates.map (·.output) = (store.matching test).map (q.outputOf clock) := by
    rw [← hcandidates, List.map_map]
    exact List.map_congr_left fun record _ => houtput record
  refine ⟨store.matching test,
    (if q.distinct then distinctOutputs candidates else candidates).map (·.output),
    (insertionSort plan.precedes
      (if q.distinct then distinctOutputs candidates else candidates)).map (·.output),
    ⟨test, hfound.filters, rfl⟩, (insertionSort_perm plan.precedes _).map _, ?_, ?_, ?_⟩
  · rw [hresult, show (QueryParts.ofQuery q).customizers = [] from hcustomizers]
    exact length_resultRows plan q.distinct q.pagination candidates
  · intro hdistinct
    rw [hdistinct, if_neg Bool.false_ne_true, houtputs]
  · intro hdistinct
    rw [hdistinct, if_pos rfl, ← houtputs]
    exact distinctOutputs_deduplicates candidates

/-- A query that is answered passes the checks. -/
theorem check_of_findAll (q : Query) (hplain : q.preprocessors = []) (rows : List Record)
    (h : store.findAll clock q = .ok rows) : checkAggregates (leavesOf q.filter) = .ok () ∧
      checkValues (leavesOf q.filter) = .ok () ∧ checkSorts q.sorts = .ok () := by
  have hhandle : store.findAll clock q = q.check >>= fun _ => store.recordsOf clock (.ofQuery q) :=
    (store.findAll_eq clock q).trans (handle_plain (store.recordsOf clock) (.plain q) hplain)
  rw [hhandle] at h
  rcases bind_eq_ok.mp h with ⟨_, hcheck, _⟩
  rcases bind_eq_ok.mp hcheck with ⟨_, haggregates, hcheck⟩
  rcases bind_eq_ok.mp hcheck with ⟨_, hvalues, hsorts⟩
  exact ⟨haggregates, hvalues, hsorts⟩

end Counts

/-- Whenever a store answers a query without preprocessors and customizers, it counts the records
    that match, and the answer has as many rows as a page has of that number. With distinct it is
    a page of the outputs that are kept. These are no more, and without a row only if no record
    matches or the page starts behind them. The number is the same for every query with this
    filter, whatever it sorts by, selects, drops and cuts, unless its sort keys do not pass the
    check. -/
theorem count_agrees (store : Store) (clock : Clock) (q : Query) (rows : List Record)
    (hplain : q.preprocessors = []) (hcustomizers : q.customizers = [])
    (h : store.findAll clock q = .ok rows) :
    ∃ docs, store.Matching clock q docs ∧ store.count clock q = .ok docs.length ∧
      (∀ other : Query, other.preprocessors = [] → other.filter = q.filter →
        store.count clock other = (checkSorts other.sorts).map fun _ => docs.length) ∧
      (q.distinct = false → rows.length = rowsOnPage q.pagination docs.length) ∧
      (q.distinct = true → ∃ kept, Deduplicates (docs.map (q.outputOf clock)) kept ∧
        rows.length = rowsOnPage q.pagination kept.length ∧
        rows.length ≤ rowsOnPage q.pagination docs.length ∧
        (rows = [] ↔ docs.length = 0 ∨
          ∃ page, q.pagination = some page ∧ kept.length ≤ (page.page - 1) * page.size)) := by
  rcases check_of_findAll store clock q hplain rows h with ⟨haggregates, hvalues, hsorts⟩
  rcases findAll_arranged store clock q hplain hcustomizers rows h with
    ⟨docs, kept, arranged, hmatching, hperm, hlength, hall, hdistinct⟩
  -- Counting looks at the filter alone, once the checks are passed.
  have hcount : ∀ other : Query, other.preprocessors = [] → other.filter = q.filter →
      store.count clock other = (checkSorts other.sorts).map fun _ => docs.length := by
    intro other hother hfilter
    refine count_eq store clock other hother docs ?_ (hfilter ▸ haggregates) (hfilter ▸ hvalues)
    rw [Store.Matching, hfilter]
    exact hmatching
  rw [hperm.length_eq] at hlength
  refine ⟨docs, hmatching, ?_, hcount, fun hfalse => ?_, fun htrue => ?_⟩
  · rw [hcount q hplain rfl, hsorts]
    rfl
  · rw [hlength, hall hfalse, List.length_map]
  · -- Of the outputs one of each kind is kept: not more than there are, and none only of none.
    have hkept := hdistinct htrue
    have hfewer : kept.length ≤ docs.length :=
      Nat.le_trans hkept.sublist.length_le (Nat.le_of_eq (List.length_map _))
    have hempty : kept.length = 0 ↔ docs.length = 0 := by
      rw [List.length_eq_zero_iff, List.length_eq_zero_iff, hkept.eq_nil_iff, List.map_eq_nil_iff]
    refine ⟨kept, hkept, hlength, hlength ▸ rowsOnPage_mono q.pagination hfewer, ?_⟩
    rw [← List.length_eq_zero_iff, hlength, rowsOnPage_eq_zero_iff, hempty]

/-- The last page of two different names. -/
def sampleCounted : Query :=
  { sampleDistinct with pagination := some samplePage }

/-- Of four records one is on the second page of two, so three different names are kept. -/
theorem count_agrees_sample :
    sampleDocuments.findAll ⟨"", "", ""⟩ sampleCounted = .ok [[("name", .string "b")]] ∧
    sampleDocuments.count ⟨"", "", ""⟩ sampleCounted = .ok 4 ∧
    ∃ docs kept : List Record, Deduplicates (docs.map (sampleCounted.outputOf ⟨"", "", ""⟩)) kept ∧
      docs.length = 4 ∧ kept.length = 3 := by
  have hrows : sampleDocuments.findAll ⟨"", "", ""⟩ sampleCounted =
      .ok [[("name", .string "b")]] := rfl
  have hfour : sampleDocuments.count ⟨"", "", ""⟩ sampleCounted = .ok 4 := rfl
  rcases count_agrees sampleDocuments ⟨"", "", ""⟩ sampleCounted _ rfl rfl hrows with
    ⟨docs, _, hcount, _, _, hdistinct⟩
  rcases hdistinct rfl with ⟨kept, hkept, hlength, _, _⟩
  refine ⟨hrows, hfour, docs, kept, hkept, Except.ok.inj (hcount.symm.trans hfour), ?_⟩
  -- One row is left of the second page, whose first place is the third.
  have hone : 1 = min 2 (kept.length - 2) := hlength
  omega

end Polyquery
