import Polyquery.Proofs.Backend.Columns
import Polyquery.Proofs.Memory.Distinct
import Polyquery.Proofs.Memory.Order
import Polyquery.Proofs.Memory.Proper

/-!
# The Contract of Plain Answers

What a plain query returns is said here in terms of the records that match it and
of the values of its expressions on them, without evaluators, candidates or plans.
A record contributes its output, which is the record or its selected columns. What
it is sorted by need not be part of the output: of several records with equal
outputs the first one in the store decides where the output stands.

Records are followed by their places in the list of those that match. In this way
it can be said at once that nothing is lost, that rows are in order, and that rows
with the same sort values keep the order of the store. The last of these would be
lost if only rows were compared.

Equality of outputs has to be an equivalence for the first of several equal ones to
stand for all of them. It is one on what can be written as JSON, so the records have
to be such when rows are to be distinct.

## Main definitions

* `Store.Matching`: The records that match a query.
* `Query.outputOf`, `Query.sameOutput`: What a record contributes.
* `Query.InOrder`: The order of two records with their places.
* `Query.SortsByKind`: Sort keys with values of one kind each.
* `Query.AnsweredBy`: The contract.

## Theorems

* `record_output`: The output of a candidate.
* `pairwise_sorted`: Sorted records are in order.
* `findAll_contract`: Every answer keeps the contract.
-/

namespace Polyquery

/-- The records of a store that match the filter of a query. -/
def Store.Matching (store : Store) (clock : Clock) (q : Query) (docs : List Record) : Prop :=
  ∃ test, (rowInterpretation clock).filter (effectiveCondition q.filter) store.maxDepth =
    .ok test ∧ docs = store.matching test

namespace Query

variable (clock : Clock) (q : Query)

/-- What a record contributes: its selected columns, or else the record itself. -/
def outputOf (record : Record) : Record :=
  match effectiveSelection q.select with
  | some (.items list) => insertAll (list.effective.map fun x =>
      (x.label?.getD "", x.valueOn clock (.single record)))
  | _ => record

/-- Whether two records contribute equal outputs. -/
def sameOutput (a b : Record) : Bool :=
  (Json.object (q.outputOf clock a)).same (.object (q.outputOf clock b))

/-- The values that a record is sorted by. -/
def sortValues (record : Record) : List Json :=
  (QueryParts.ofQuery q).sortValues clock (.single record)

/-- A record comes before another one by the sort keys, or it has the same sort values and stands
    before the other one in the store. -/
def InOrder (a b : Record × Nat) : Prop :=
  Precedes (QueryParts.ofQuery q).directions (q.sortValues clock a.1) (q.sortValues clock b.1) ∨
    q.sortValues clock a.1 = q.sortValues clock b.1 ∧ a.2 < b.2

/-- Every sort expression yields values of one kind and nulls. -/
def SortsByKind (docs : List Record) : Prop :=
  ∀ x ∈ (QueryParts.ofQuery q).sortExpressions, ∃ kind : SortKind,
    ∀ record ∈ docs, kind.Orders (x.valueOn clock (.single record))

/-- Rows that answer a query for matching records. The records stand in the order of their rows,
    each with its place in the store. -/
structure AnsweredBy (docs : List Record) (order : List (Record × Nat)) (rows : List Record) :
    Prop where
  outputs : rows = order.map fun place => q.outputOf clock place.1
  sorted : order.Pairwise (q.InOrder clock)
  /-- Without distinct every matching record contributes. -/
  all : q.distinct = false → order.Perm docs.zipIdx
  /-- With distinct the first record of those with equal outputs contributes. -/
  firsts : q.distinct = true → order.Nodup ∧ ∀ place, place ∈ order ↔
    place ∈ docs.zipIdx ∧ IsFirst (q.sameOutput clock) docs place
  different : q.distinct = true → rows.Pairwise fun a b =>
    (Json.object a).same (.object b) = false
  covers : q.distinct = true → ∀ record ∈ docs, ∃ row ∈ rows,
    (Json.object row).same (.object (q.outputOf clock record)) = true

end Query

section Outputs

variable (clock : Clock) (q : Query)

theorem outputOf_items (list : ExpressionList) (names : List String) (hnamed : list.Named names)
    (hselect : effectiveSelection q.select = some (.items list)) (record : Record) :
    q.outputOf clock record =
      insertAll (names.zip (list.effective.map (·.valueOn clock (.single record)))) := by
  rw [Query.outputOf, hselect, hnamed.eq_map, List.zip_map']

/-- No key is repeated in what is put together from columns. -/
theorem proper_outputOf (record : Record) (h : (Json.object record).Proper) :
    (Json.object (q.outputOf clock record)).Proper := by
  unfold Query.outputOf
  split
  case h_1 list _ =>
    refine .object _ (nodup_insertAll _) fun member hmember => ?_
    rcases List.mem_map.mp (mem_insertAll _ member hmember) with ⟨x, _, rfl⟩
    exact proper_valueOn clock x _ (Rows.proper_single h)
  case h_2 => exact h

/-- A candidate has the output of its record. -/
theorem record_output (store : Store) (projection : Projection)
    (columns : Option (List (String × Evaluator))) (test : Option RowTest) (plan : SortPlan)
    (hfound : store.FoundRecords clock (.ofQuery q) projection columns test plan)
    (record : Record) : (plan.record columns record).output = q.outputOf clock record := by
  have hprojects := hfound.projects
  have hevaluates := hfound.evaluates
  -- Without a select the output is the record itself, and with one it is the row of its columns.
  cases hselect : effectiveSelection q.select with
  | none =>
      rw [QueryParts.projection,
        show (QueryParts.ofQuery q).select = none from hselect] at hprojects
      rw [← Except.ok.inj hprojects] at hevaluates
      rw [← Except.ok.inj hevaluates, Query.outputOf, hselect]
      rfl
  | some selection =>
      cases selection with
      | items list =>
          rcases named_of_projection _ list (.inl hselect) projection hprojects with
            ⟨names, hnamed, rfl⟩
          rcases map_eq_ok.mp hevaluates with ⟨evaluators, hevaluators, rfl⟩
          rw [outputOf_items clock q list names hnamed hselect record]
          exact outputRow_eq clock list names hnamed evaluators hevaluators (.single record)
      | native piece =>
          rw [QueryParts.projection,
            show (QueryParts.ofQuery q).select = some (.native piece) from hselect] at hprojects
          rw [← Except.ok.inj hprojects] at hevaluates
          exact absurd hevaluates (by rintro ⟨⟩)

end Outputs

section Sorted

variable {clock : Clock} {q : Query}

theorem Query.InOrder.trans {a b c : Record × Nat} (hab : q.InOrder clock a b)
    (hbc : q.InOrder clock b c) : q.InOrder clock a c := by
  rcases hab with hab | ⟨hab, hplaces⟩
  · rcases hbc with hbc | ⟨hbc, _⟩
    · exact .inl (hab.trans hbc)
    · exact .inl (hbc ▸ hab)
  · rcases hbc with hbc | ⟨hbc, hlater⟩
    · exact .inl (hab ▸ hbc)
    · exact .inr ⟨hab.trans hbc, Nat.lt_trans hplaces hlater⟩

variable {plan : SortPlan} (hplan : SortPlan.ofKeys clock q.sorts = .ok plan)
  (hnative : ∀ key ∈ q.sorts, key.isNative = false) {docs : List Record}
  (hkinds : q.SortsByKind clock docs) (columns : Option (List (String × Evaluator)))

include hplan hnative hkinds

/-- The comparison of two candidates agrees with the order of their records. -/
theorem compareRecords_tells (a b : Record) (ha : a ∈ docs) (hb : b ∈ docs) :
    Tells (Precedes (QueryParts.ofQuery q).directions) (q.sortValues clock a)
      (q.sortValues clock b)
      (RowOrder.compareAll (plan.record columns a) (plan.record columns b) plan.orders) := by
  rw [compareAll_eq clock _ _ (.single a) (.single b) q.sorts hnative 0 plan [] [] hplan rfl rfl rfl
    rfl]
  refine compareRows_tells clock (.single a) (.single b) q.sorts hnative fun x hx => ?_
  rcases hkinds x hx with ⟨kind, hkind⟩
  exact ⟨kind, hkind a ha, hkind b hb⟩

/-- Sorting puts records in order. Of two with the same sort values the later one does not pass
    the earlier one. -/
theorem pairwise_sorted (placed : List (Record × Nat)) (hsub : placed.Sublist docs.zipIdx) :
    (insertionSort (fun a b : Record × Nat =>
      plan.precedes (plan.record columns a.1) (plan.record columns b.1)) placed).Pairwise
        (q.InOrder clock) := by
  have hmem : ∀ place ∈ placed, place.1 ∈ docs := fun place hplace =>
    List.fst_mem_of_mem_zipIdx (hsub.subset hplace)
  have hplaces : placed.Pairwise fun a b => a.2 < b.2 :=
    (pairwise_zipIdx docs).sublist hsub
  have htells : ∀ a ∈ placed, ∀ b ∈ placed, Tells (Precedes (QueryParts.ofQuery q).directions)
      (q.sortValues clock a.1) (q.sortValues clock b.1)
      (RowOrder.compareAll (plan.record columns a.1) (plan.record columns b.1) plan.orders) :=
    fun a ha b hb => compareRecords_tells hplan hnative hkinds columns a.1 b.1 (hmem a ha)
      (hmem b hb)
  apply pairwise_insertionSort
  -- The later one passes the earlier one only if the sort values put it first.
  · refine hplaces.imp_of_mem fun {a b} ha hb _ hpasses => .inl ?_
    have hanswer := htells b hb a ha
    rw [beq_iff_eq.mp hpasses] at hanswer
    exact hanswer
  -- It stays behind for one of two reasons, and equal values leave the places to decide.
  · refine hplaces.imp_of_mem fun {a b} ha hb hlt hstays => ?_
    have hanswer := htells b hb a ha
    cases hcompare : RowOrder.compareAll (plan.record columns b.1) (plan.record columns a.1)
        plan.orders with
    | lt =>
        rw [SortPlan.precedes, hcompare] at hstays
        exact absurd hstays (by decide)
    | eq =>
        rw [hcompare] at hanswer
        exact .inr ⟨hanswer.symm, hlt⟩
    | gt =>
        rw [hcompare] at hanswer
        exact .inl hanswer
  · exact fun a _ b _ c _ hab hbc => hab.trans hbc

end Sorted

section Same

variable {clock : Clock} {q : Query} {docs : List Record}
  (hproper : ∀ record ∈ docs, (Json.object record).Proper)

include hproper

theorem sameOutput_refl (a : Record) (ha : a ∈ docs) : q.sameOutput clock a a = true :=
  same_refl (proper_outputOf clock q a (hproper a ha))

theorem sameOutput_symm (a b : Record) (ha : a ∈ docs) (hb : b ∈ docs)
    (h : q.sameOutput clock a b = true) : q.sameOutput clock b a = true :=
  same_symm (proper_outputOf clock q a (hproper a ha)) (proper_outputOf clock q b (hproper b hb)) h

theorem sameOutput_trans (a b c : Record) (ha : a ∈ docs) (hab : q.sameOutput clock a b = true)
    (hbc : q.sameOutput clock b c = true) : q.sameOutput clock a c = true :=
  same_trans (proper_outputOf clock q a (hproper a ha)) hab hbc

/-- Two first records have different outputs, whichever of them stands before the other. -/
theorem different_of_firsts (a b : Record × Nat) (ha : a ∈ docs.zipIdx) (hb : b ∈ docs.zipIdx)
    (hfirst : IsFirst (q.sameOutput clock) docs a) (hother : IsFirst (q.sameOutput clock) docs b)
    (hne : a ≠ b) : q.sameOutput clock a.1 b.1 = false := by
  -- Whichever place comes first, the record at the other one is a first one.
  rcases Nat.lt_trichotomy a.2 b.2 with hlt | heq | hgt
  · exact hother a ha hlt
  · have hsame : docs[a.2]? = some a.1 := List.mem_zipIdx_iff_getElem?.mp ha
    rw [heq, List.mem_zipIdx_iff_getElem?.mp hb] at hsame
    exact absurd (Prod.ext (Option.some.inj hsame).symm heq) hne
  · rw [← Bool.not_eq_true]
    intro hequal
    have hback := sameOutput_symm hproper a.1 b.1 (List.fst_mem_of_mem_zipIdx ha)
      (List.fst_mem_of_mem_zipIdx hb) hequal
    exact absurd ((hfirst b hb hgt).symm.trans hback) Bool.false_ne_true

end Same

section Answers

variable {clock : Clock} {q : Query} {docs : List Record} {plan : SortPlan}
  (columns : Option (List (String × Evaluator)))

/-- The records that contribute: all of them, or the first ones when rows are distinct. -/
theorem contributing (hproper : q.distinct = true → ∀ record ∈ docs, (Json.object record).Proper)
    (houtput : ∀ record, (plan.record columns record).output = q.outputOf clock record) :
    ∃ placed : List (Record × Nat),
      (if q.distinct then distinctOutputs (docs.map (plan.record columns))
        else docs.map (plan.record columns)) =
          placed.map (fun place => plan.record columns place.1) ∧
      placed.Sublist docs.zipIdx ∧ (q.distinct = false → placed = docs.zipIdx) ∧
      (q.distinct = true → ∀ place, place ∈ placed ↔
        place ∈ docs.zipIdx ∧ IsFirst (q.sameOutput clock) docs place) := by
  have hsame : ∀ a b, (plan.record columns a).same (plan.record columns b) =
      q.sameOutput clock a b := by
    intro a b
    rw [Candidate.same, houtput, houtput, Query.sameOutput]
  cases hdistinct : q.distinct with
  | false =>
      refine ⟨docs.zipIdx, ?_, .refl _, fun _ => rfl, fun h => absurd h Bool.false_ne_true⟩
      -- Every record is followed by its place and then the places are forgotten.
      rw [if_neg Bool.false_ne_true, ← Function.comp_def (plan.record columns) Prod.fst,
        ← List.map_map, List.zipIdx_map_fst]
  | true =>
      have hdocs := hproper hdistinct
      rcases distinctOutputs_firsts (plan.record columns) docs
        (fun a ha => (hsame a a).trans (sameOutput_refl hdocs a ha))
        (fun a ha b _ c _ hab hbc => (hsame a c).trans (sameOutput_trans hdocs a b c ha
          ((hsame a b).symm.trans hab) ((hsame b c).symm.trans hbc))) with
        ⟨placed, hplaced, hsub, hmem⟩
      simp only [hsame] at hmem
      exact ⟨placed, hplaced, hsub, fun h => absurd h.symm Bool.false_ne_true, fun _ => hmem⟩

variable (hplan : SortPlan.ofKeys clock q.sorts = .ok plan)
  (hnative : ∀ key ∈ q.sorts, key.isNative = false) (hkinds : q.SortsByKind clock docs)

include hplan hnative hkinds

/-- The records that contribute, once they are sorted, keep the contract. -/
theorem answeredBy_sorted
    (hproper : q.distinct = true → ∀ record ∈ docs, (Json.object record).Proper)
    (placed : List (Record × Nat)) (hsub : placed.Sublist docs.zipIdx)
    (hall : q.distinct = false → placed = docs.zipIdx)
    (hfirsts : q.distinct = true → ∀ place, place ∈ placed ↔
      place ∈ docs.zipIdx ∧ IsFirst (q.sameOutput clock) docs place) :
    ∃ order, q.AnsweredBy clock docs order (order.map fun place => q.outputOf clock place.1) ∧
      order = insertionSort (fun a b : Record × Nat =>
        plan.precedes (plan.record columns a.1) (plan.record columns b.1)) placed := by
  have hperm := insertionSort_perm (fun a b : Record × Nat =>
    plan.precedes (plan.record columns a.1) (plan.record columns b.1)) placed
  have hsorted := pairwise_sorted hplan hnative hkinds columns placed hsub
  generalize insertionSort (fun a b : Record × Nat =>
    plan.precedes (plan.record columns a.1) (plan.record columns b.1)) placed = order
    at hperm hsorted
  -- Two places are never the same, so neither are two records with their places.
  have hnodup : order.Nodup := by
    refine hperm.nodup_iff.mpr (((pairwise_zipIdx docs).sublist hsub).imp ?_)
    rintro a b hlt rfl
    exact absurd hlt (Nat.lt_irrefl _)
  have hmem : q.distinct = true → ∀ place, place ∈ order ↔
      place ∈ docs.zipIdx ∧ IsFirst (q.sameOutput clock) docs place :=
    fun hdistinct place => hperm.mem_iff.trans (hfirsts hdistinct place)
  refine ⟨order, ⟨rfl, hsorted, ?_, fun hdistinct => ⟨hnodup, hmem hdistinct⟩, ?_, ?_⟩, rfl⟩
  · exact fun hdistinct => hall hdistinct ▸ hperm
  · intro hdistinct
    rw [List.pairwise_map]
    refine hnodup.imp_of_mem fun {a b} ha hb hne => ?_
    rcases (hmem hdistinct a).mp ha with ⟨ha, hfirst⟩
    rcases (hmem hdistinct b).mp hb with ⟨hb, hother⟩
    exact different_of_firsts (hproper hdistinct) a b ha hb hfirst hother hne
  · intro hdistinct record hrecord
    have hdocs := hproper hdistinct
    rcases exists_place hrecord with ⟨place, hplace, rfl⟩
    rcases exists_first (q.sameOutput clock) (sameOutput_refl hdocs)
      (fun a ha b _ c _ => sameOutput_trans hdocs a b c ha) place hplace with
      ⟨first, hfirst, hisFirst, hequal⟩
    exact ⟨_, List.mem_map_of_mem ((hmem hdistinct first).mpr ⟨hfirst, hisFirst⟩), hequal⟩

end Answers

/-- Every answer to a plain query keeps the contract: one without native pieces, customizers,
    preprocessors and a page, of which each sort expression yields values of one kind and nulls on
    the records that match. -/
theorem findAll_contract (store : Store) (clock : Clock) (q : Query) (rows : List Record)
    (hportable : q.Portable) (hpage : q.pagination = none)
    (hproper : q.distinct = true → ∀ record ∈ store.records, (Json.object record).Proper)
    (hkinds : ∀ docs, store.Matching clock q docs → q.SortsByKind clock docs)
    (h : store.findAll clock q = .ok rows) :
    ∃ docs, store.Matching clock q docs ∧ ∃ order, q.AnsweredBy clock docs order rows := by
  have hrows : store.recordsOf clock (.ofQuery q) = .ok rows :=
    compiled_parts (store.recordsOf clock) (.plain q) hportable.preprocessors rows
      ((store.findAll_eq clock q).symm.trans h)
  rcases Store.found_of_recordsOf hrows with ⟨projection, columns, test, plan, hfound, hresult⟩
  have hmatching : store.Matching clock q (store.matching test) := ⟨test, hfound.filters, rfl⟩
  have hdocs : q.distinct = true → ∀ record ∈ store.matching test, (Json.object record).Proper :=
    fun hdistinct record hrecord => hproper hdistinct record (List.mem_filter.mp hrecord).1
  have houtput := record_output clock q store projection columns test plan hfound
  rcases contributing columns hdocs houtput with ⟨placed, hplaced, hsub, hall, hfirsts⟩
  rcases answeredBy_sorted columns hfound.sorts hportable.sorts (hkinds _ hmatching) hdocs placed
    hsub hall hfirsts with ⟨order, hanswered, horder⟩
  -- Without a page and customizers a result ends with the sorting.
  have hsteps : rows = ((insertionSort plan.precedes (if q.distinct
      then distinctOutputs ((store.matching test).map (plan.record columns))
      else (store.matching test).map (plan.record columns))).map (·.output)) := by
    rw [hresult, show (QueryParts.ofQuery q).pagination = none from hpage,
      show (QueryParts.ofQuery q).customizers = [] from hportable.customizers]
    rfl
  rw [hplaced, insertionSort_map, ← horder, List.map_map] at hsteps
  refine ⟨store.matching test, hmatching, order, ?_⟩
  rw [hsteps]
  simpa only [Function.comp_def, houtput] using hanswered

/-- Four records, two of them with the same name. -/
def sampleDocuments : Store where
  records := [[("name", .string "a"), ("size", .null)], [("name", .string "b"), ("size", .ofInt 1)],
    [("name", .string "a"), ("size", .ofInt 2)], [("name", .string "c")]]

/-- The different names, sorted by a size that they do not show. -/
def sampleDistinct : Query where
  sorts := [.simple ⟨.property "size" none, .descending⟩]
  distinct := true
  select := some (.items ⟨["name"], []⟩)

theorem sampleDistinct_matching (docs : List Record)
    (h : sampleDocuments.Matching ⟨"", "", ""⟩ sampleDistinct docs) :
    docs = sampleDocuments.records := by
  rcases h with ⟨test, htest, rfl⟩
  rw [← Except.ok.inj htest]
  rfl

/-- The name that two records share stands where the size of the first one puts it: null comes
    first in descending order, and of two nulls the one that is first in the store. -/
theorem findAll_contract_sample :
    ∃ order, sampleDistinct.AnsweredBy ⟨"", "", ""⟩ sampleDocuments.records order
      [[("name", .string "a")], [("name", .string "c")], [("name", .string "b")]] := by
  have hportable : sampleDistinct.Portable := by
    refine ⟨fun c hc => absurd hc (by rintro ⟨⟩), fun key hkey => ?_, fun columns hcolumns => ?_,
      rfl, rfl⟩
    · rw [List.mem_singleton.mp hkey]
      rfl
    · rw [← Option.some.inj hcolumns]
      rfl
  have hproper : ∀ record ∈ sampleDocuments.records, (Json.object record).Proper := by
    simp only [sampleDocuments, List.forall_mem_cons, List.not_mem_nil, false_implies,
      forall_const, and_true]
    refine ⟨.object _ (by decide) ?_, .object _ (by decide) ?_, .object _ (by decide) ?_,
      .object _ (by decide) ?_⟩
    all_goals simp only [List.forall_mem_cons, List.not_mem_nil, false_implies, forall_const,
      and_true]
    · exact ⟨.string _, .null⟩
    · exact ⟨.string _, .int _⟩
    · exact ⟨.string _, .int _⟩
    · exact .string _
  have hkinds : ∀ docs, sampleDocuments.Matching ⟨"", "", ""⟩ sampleDistinct docs →
      sampleDistinct.SortsByKind ⟨"", "", ""⟩ docs := by
    intro docs hdocs x hx
    rw [sampleDistinct_matching docs hdocs]
    rw [List.mem_singleton.mp hx]
    refine ⟨.integer, fun record hrecord => ?_⟩
    simp only [sampleDocuments, List.mem_cons, List.not_mem_nil, or_false] at hrecord
    rcases hrecord with rfl | rfl | rfl | rfl
    · exact .inl rfl
    · exact .inr ⟨1, by decide, by decide, rfl⟩
    · exact .inr ⟨2, by decide, by decide, rfl⟩
    · exact .inl rfl
  rcases findAll_contract sampleDocuments ⟨"", "", ""⟩ sampleDistinct _ hportable rfl
    (fun _ => hproper) hkinds rfl with ⟨docs, hdocs, order, h⟩
  rw [sampleDistinct_matching docs hdocs] at h
  exact ⟨order, h⟩

end Polyquery
