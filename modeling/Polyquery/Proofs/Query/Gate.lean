import Polyquery.Proofs.Backend.Ungated
import Polyquery.Proofs.Expression.Text

/-!
# The Gate before All Backends

Before a backend looks at a query, the preparation may refuse it: the filter
may hold an aggregate, a value may not suit its operator, a sort key may hold
an aggregate. What is refused, and for which reason, is said here in terms of
the query alone, as `Query.Refused`. The filter is looked through for
aggregates first and as a whole, so an aggregate in the last comparison comes
before a wrong value in the first one. Within one look the comparisons are taken
from left to right, wherever in the tree they stand, and so are the functions in
an expression.

The preparation comes first at every entry point and what comes after it does
not report aggregates. So all entry points refuse the same queries with the
same error, and a query that is not refused never meets that error again.

## Main definitions

* `FirstOf`, `NoneOf`: The first element of a list with something wrong, and a
  list with nothing wrong.
* `SimpleCondition.HoldsAggregate`, `SimpleCondition.Misshapen`,
  `SortKey.HoldsAggregate`: What can be wrong.
* `Query.Refused`, `AnyQuery.Refused`: The queries that are refused.
* `AnyQuery.Outcome`: How the entry points end.

## Theorems

* `checkAggregates_looks`, `checkValues_looks`, `checkSorts_looks`: The error of
  each look.
* `prepare_refused`, `prepareAdvanced_refused`: The error of the preparation.
* `gated_of_prepare`: What stands behind the preparation.
* `gate_outcome`: All entry points.
-/

namespace Polyquery

section First

variable {α β : Type}

/-- The first element of a list of which something is said, and what is said of it. -/
def FirstOf (R : α → β → Prop) (as : List α) (b : β) : Prop :=
  ∃ before a after, as = before ++ a :: after ∧ R a b ∧ ∀ earlier ∈ before, ∀ c, ¬ R earlier c

/-- Nothing is said of any element of a list. -/
def NoneOf (R : α → β → Prop) (as : List α) : Prop :=
  ∀ a ∈ as, ∀ b, ¬ R a b

variable {R : α → β → Prop} {f : α → Option β} (hf : ∀ a b, f a = some b ↔ R a b)

include hf

theorem eq_none_iff_not (a : α) : f a = none ↔ ∀ b, ¬ R a b := by
  rw [Option.eq_none_iff_forall_ne_some]
  exact forall_congr' fun b => not_congr (hf a b)

theorem findSome?_eq_some_iff_first (as : List α) (b : β) :
    as.findSome? f = some b ↔ FirstOf R as b := by
  rw [List.findSome?_eq_some_iff]
  simp only [FirstOf, hf, eq_none_iff_not hf]

theorem findSome?_eq_none_iff_noneOf (as : List α) : as.findSome? f = none ↔ NoneOf R as := by
  rw [List.findSome?_eq_none_iff]
  simp only [NoneOf, eq_none_iff_not hf]

end First

/-- A comparison of a filter holds an aggregate on its left side, however deep in it; the first
    one from left to right is named. -/
def SimpleCondition.HoldsAggregate (leaf : SimpleCondition) (e : CompileError) : Prop :=
  ∃ function, leaf.left.functions.find? Function.isAggregate = some function ∧
    e = .aggregateNotAllowed function .filter

/-- A sort key holds an aggregate; the first one from left to right is named. -/
def SortKey.HoldsAggregate (key : SortKey) (e : CompileError) : Prop :=
  ∃ sort function, key = .simple sort ∧
    sort.expression.functions.find? Function.isAggregate = some function ∧
    e = .aggregateNotAllowed function .sort

/-- A comparison has a constant under an operator that takes a list, or one that is no string
    under an operator that takes a pattern. -/
inductive SimpleCondition.Misshapen (leaf : SimpleCondition) : CompileError → Prop where
  | list (literal) (hvalue : leaf.value = some (.scalar literal))
    (hoperator : leaf.operator.takesList = true) :
    Misshapen leaf (.typeMismatch (.listRequired leaf.operator))
  | pattern (literal) (hvalue : leaf.value = some (.scalar literal))
    (hoperator : leaf.operator.isPattern = true) (hliteral : ∀ s, literal ≠ .string s) :
    Misshapen leaf (.typeMismatch (.stringRequired leaf.operator literal))

/-- The queries that are refused, with the reason. A plain query has no filter of groups. -/
inductive Query.Refused (q : Query) (having : Option Condition) : CompileError → Prop where
  | filterAggregate (e)
    (h : FirstOf SimpleCondition.HoldsAggregate (leavesOf q.filter) e) : Refused q having e
  | filterValue (e) (haggregates : NoneOf SimpleCondition.HoldsAggregate (leavesOf q.filter))
    (h : FirstOf SimpleCondition.Misshapen (leavesOf q.filter) e) : Refused q having e
  | sortAggregate (e) (haggregates : NoneOf SimpleCondition.HoldsAggregate (leavesOf q.filter))
    (hvalues : NoneOf SimpleCondition.Misshapen (leavesOf q.filter))
    (h : FirstOf SortKey.HoldsAggregate q.sorts e) : Refused q having e
  | havingValue (e) (haggregates : NoneOf SimpleCondition.HoldsAggregate (leavesOf q.filter))
    (hvalues : NoneOf SimpleCondition.Misshapen (leavesOf q.filter))
    (hsorts : NoneOf SortKey.HoldsAggregate q.sorts)
    (h : FirstOf SimpleCondition.Misshapen (leavesOf having) e) : Refused q having e

/-- The queries of either kind that are refused. -/
def AnyQuery.Refused : AnyQuery → CompileError → Prop
  | .plain q => q.Refused none
  | .advanced q => q.toQuery.Refused q.having

theorem takesList_of_isPattern (op : Operator) (h : op.isPattern = true) :
    op.takesList = false := by
  cases op with
  | startsWith | endsWith | contains => rfl
  | _ => exact absurd h Bool.false_ne_true

/-- The value of a comparison does not pass exactly when it does not suit the operator. -/
theorem checkValue_eq_error (leaf : SimpleCondition) (e : CompileError) :
    checkValue leaf = .error e ↔ leaf.Misshapen e := by
  constructor
  · intro h
    unfold checkValue at h
    -- Only a single literal can have the wrong shape: for an operator of lists or of patterns.
    split at h
    · rename_i literal hvalue
      split at h
      · rename_i hlist
        rw [← Except.error.inj h]
        exact .list literal hvalue hlist
      · split at h
        · rename_i hpattern
          rw [Bool.and_eq_true] at hpattern
          rw [← Except.error.inj h]
          refine .pattern literal hvalue hpattern.1 ?_
          rintro s rfl
          exact absurd hpattern.2 Bool.false_ne_true
        · exact absurd h (by simp only [reduceCtorEq, not_false_eq_true])
    · exact absurd h (by simp only [reduceCtorEq, not_false_eq_true])
  · intro h
    unfold checkValue
    cases h with
    | list literal hvalue hoperator => simp only [hvalue, hoperator, if_true]
    | pattern literal hvalue hoperator hliteral =>
        -- An operator of patterns takes no list, so the first check has been passed.
        have hlist : leaf.operator.takesList = false := takesList_of_isPattern _ hoperator
        have hstring : literal.asString? = none := by
          cases literal with
          | string s => exact absurd rfl (hliteral s)
          | _ => rfl
        simp only [hvalue, hlist, hoperator, hstring, Option.isNone_none, Bool.and_self,
          Bool.false_eq_true, if_false, if_true]

/-- A check ends with what is said of the first element of a list, and passes if nothing is. -/
structure Looks {α : Type} (R : α → CompileError → Prop) (as : List α)
    (check : Except CompileError Unit) : Prop where
  eq_error : ∀ e, check = .error e ↔ FirstOf R as e
  eq_ok : check = .ok () ↔ NoneOf R as

/-- A check that asks one element after the other. -/
theorem looks_of_findSome? {α : Type} {R : α → CompileError → Prop}
    {f : α → Option CompileError} (hf : ∀ a e, f a = some e ↔ R a e) (as : List α)
    (check : Except CompileError Unit) (h : errorOf? check = as.findSome? f) :
    Looks R as check := by
  constructor
  case eq_error =>
    intro e
    rw [← errorOf?_eq_some, h, findSome?_eq_some_iff_first hf]
  case eq_ok =>
    have hunit : check = .ok () ↔ ∃ a, check = .ok a := ⟨fun h => ⟨(), h⟩, fun ⟨_, h⟩ => h⟩
    rw [hunit, ← errorOf?_eq_none, h, findSome?_eq_none_iff_noneOf hf]

theorem checkAggregates_looks (leaves : List SimpleCondition) :
    Looks SimpleCondition.HoldsAggregate leaves (checkAggregates leaves) := by
  refine looks_of_findSome?
    (f := fun leaf => leaf.left.aggregate?.map (.aggregateNotAllowed · .filter)) ?_ leaves _ ?_
  · intro leaf e
    rw [Expression.aggregate?_eq_find, Option.map_eq_some_iff]
    exact exists_congr fun f => and_congr_right fun _ => eq_comm
  · induction leaves with
    | nil => rfl
    | cons leaf rest ih =>
        simp only [checkAggregates, List.findSome?_cons]
        cases leaf.left.aggregate? with
        | some function => rfl
        | none => exact ih

theorem checkValues_looks (leaves : List SimpleCondition) :
    Looks SimpleCondition.Misshapen leaves (checkValues leaves) := by
  refine looks_of_findSome? (f := fun leaf => errorOf? (checkValue leaf)) ?_ leaves _ ?_
  · intro leaf e
    rw [errorOf?_eq_some]
    exact checkValue_eq_error leaf e
  · induction leaves with
    | nil => rfl
    | cons leaf rest ih =>
        simp only [checkValues, List.findSome?_cons]
        cases checkValue leaf with
        | error e => rfl
        | ok _ => exact ih

/-- What is said of a sort key: an aggregate in it is misplaced. -/
def SortKey.misplaced? : SortKey → Option CompileError
  | .simple sort => sort.expression.aggregate?.map (.aggregateNotAllowed · .sort)
  | .native _ => none

theorem checkSorts_looks (keys : List SortKey) :
    Looks SortKey.HoldsAggregate keys (checkSorts keys) := by
  refine looks_of_findSome? (f := SortKey.misplaced?) ?_ keys _ ?_
  · -- What is found in a key is the first aggregate function of its expression.
    intro key e
    cases key with
    | native piece =>
        simp only [SortKey.HoldsAggregate, SortKey.misplaced?, reduceCtorEq, false_and,
          exists_false]
    | simple sort =>
        simp only [SortKey.HoldsAggregate, SortKey.misplaced?, SortKey.simple.injEq,
          exists_and_left, exists_eq_left']
        rw [Expression.aggregate?_eq_find, Option.map_eq_some_iff]
        exact exists_congr fun f => and_congr_right fun _ => eq_comm
  · -- The keys are looked through in their order, and native ones are passed over.
    induction keys with
    | nil => rfl
    | cons key rest ih =>
        cases key with
        | native piece => exact ih
        | simple sort =>
            simp only [checkSorts, List.findSome?_cons, SortKey.misplaced?]
            cases sort.expression.aggregate? with
            | some function => rfl
            | none => exact ih

/-- A query is refused by the first look that finds something. -/
theorem refused_iff (q : Query) (having : Option Condition) (e : CompileError) :
    q.Refused having e ↔
      FirstOf SimpleCondition.HoldsAggregate (leavesOf q.filter) e ∨
      NoneOf SimpleCondition.HoldsAggregate (leavesOf q.filter) ∧
        (FirstOf SimpleCondition.Misshapen (leavesOf q.filter) e ∨
        NoneOf SimpleCondition.Misshapen (leavesOf q.filter) ∧
          (FirstOf SortKey.HoldsAggregate q.sorts e ∨
          NoneOf SortKey.HoldsAggregate q.sorts ∧
            FirstOf SimpleCondition.Misshapen (leavesOf having) e)) := by
  constructor
  · intro h
    cases h with
    | filterAggregate h => exact .inl h
    | filterValue haggregates h => exact .inr ⟨haggregates, .inl h⟩
    | sortAggregate haggregates hvalues h => exact .inr ⟨haggregates, .inr ⟨hvalues, .inl h⟩⟩
    | havingValue haggregates hvalues hsorts h =>
        exact .inr ⟨haggregates, .inr ⟨hvalues, .inr ⟨hsorts, h⟩⟩⟩
  · rintro (h | ⟨haggregates, h | ⟨hvalues, h | ⟨hsorts, h⟩⟩⟩)
    · exact .filterAggregate e h
    · exact .filterValue e haggregates h
    · exact .sortAggregate e haggregates hvalues h
    · exact .havingValue e haggregates hvalues hsorts h

/-- The error of all checks together. -/
theorem checks_eq_error (q : Query) (having : Option Condition) (e : CompileError) :
    (do q.check; checkValues (leavesOf having)) = .error e ↔ q.Refused having e := by
  have hunit : ∀ (x : Except CompileError Unit) (P : Prop),
      (∃ a, x = .ok a ∧ P) ↔ x = .ok () ∧ P :=
    fun x P => ⟨fun ⟨_, h⟩ => h, fun h => ⟨(), h⟩⟩
  have hfilter := checkAggregates_looks (leavesOf q.filter)
  have hvalues := checkValues_looks (leavesOf q.filter)
  have hsorts := checkSorts_looks q.sorts
  have hhaving := checkValues_looks (leavesOf having)
  rw [refused_iff, ← hfilter.eq_error, ← hfilter.eq_ok, ← hvalues.eq_error, ← hvalues.eq_ok,
    ← hsorts.eq_error, ← hsorts.eq_ok, ← hhaving.eq_error]
  simp only [Query.check, bind_assoc, bind_eq_error, hunit]

/-- The preparation of a plain query fails exactly when the query is refused. -/
theorem prepare_refused (q : Query) (e : CompileError) :
    q.prepare = .error e ↔ q.preprocess.Refused none e := by
  have hprepare : q.prepare = q.preprocess.check >>= fun _ => pure q.preprocess := rfl
  rw [← checks_eq_error, hprepare]
  simp only [bind_eq_error, leavesOf, checkValues, pure, Except.pure, reduceCtorEq, and_false]

/-- So does the preparation of an advanced query. -/
theorem prepareAdvanced_refused (q : AdvancedQuery) (e : CompileError) :
    q.prepare = .error e ↔ q.preprocess.toQuery.Refused q.preprocess.having e := by
  have hprepare : q.prepare = q.preprocess.check >>= fun _ =>
    checkValues (leavesOf q.preprocess.having) >>= fun _ => pure q.preprocess := rfl
  rw [← checks_eq_error, hprepare]
  simp only [bind_eq_error, pure, Except.pure, reduceCtorEq, and_false, exists_false, or_false]

/-- How the entry points end on a query: with an error, or with none. -/
inductive AnyQuery.Outcome : AnyQuery → Option CompileError → Prop where
  | sql (schema root q) : Outcome (.plain q) (errorOf? (Sql.compileQuery schema root q))
  | mongo (schema root q) : Outcome (.plain q) (errorOf? (Mongo.compileQuery schema root q))
  | search (schema root q) : Outcome (.plain q) (errorOf? (Search.compileQuery schema root q))
  | find (store : Store) (clock q) : Outcome (.plain q) (errorOf? (store.findAll clock q))
  | count (store : Store) (clock q) : Outcome (.plain q) (errorOf? (store.count clock q))
  | sqlAdvanced (schema root q) :
    Outcome (.advanced q) (errorOf? (Sql.compileAdvanced schema root q))
  | mongoAdvanced (schema root q) :
    Outcome (.advanced q) (errorOf? (Mongo.compileAdvanced schema root q))
  | searchAdvanced (schema root q) :
    Outcome (.advanced q) (errorOf? (Search.compileAdvanced schema root q))
  | rows (store : Store) (clock q) : Outcome (.advanced q) (errorOf? (store.findRows clock q))

/-- Where a preparation comes first and what follows does not report aggregates, a query that is
    refused ends with its reason, and any other query ends without a word on aggregates. -/
theorem gated_of_prepare {α β : Type} {refused : CompileError → Prop}
    {prepared : Except CompileError α} {compile : α → Except CompileError β}
    (hprepared : ∀ e, prepared = .error e ↔ refused e) (hcompile : ∀ p, Ungated (compile p)) :
    (∀ e, refused e → errorOf? (prepared >>= compile) = some e) ∧
      ((∀ e, ¬ refused e) → ∀ function position,
        errorOf? (prepared >>= compile) ≠ some (.aggregateNotAllowed function position)) := by
  constructor
  · intro e he
    rw [(hprepared e).mpr he]
    rfl
  · intro hnone function position h
    rw [errorOf?_eq_some] at h
    rcases bind_eq_error.mp h with hfirst | ⟨p, _, hsecond⟩
    · exact hnone _ ((hprepared _).mp hfirst)
    · exact Bool.noConfusion (hcompile p _ hsecond)

/-- All entry points end alike on a query that is refused once its preprocessors have run: with
    the reason for which it is refused. On a query that is not refused none of them says that an
    aggregate may not stand where it stands. -/
theorem gate_outcome (q : AnyQuery) (outcome : Option CompileError) (h : q.Outcome outcome) :
    (∀ e, q.preprocess.Refused e → outcome = some e) ∧
      ((∀ e, ¬ q.preprocess.Refused e) →
        ∀ function position, outcome ≠ some (.aggregateNotAllowed function position)) := by
  -- At each entry point the gate comes first, and nothing behind it complains of aggregates.
  cases h with
  | sql schema root q =>
      exact gated_of_prepare (prepare_refused q) fun p => Sql.compileParts_ungated schema root _
  | mongo schema root q =>
      exact gated_of_prepare (prepare_refused q) fun p => Mongo.compileParts_ungated schema root _
  | search schema root q =>
      exact gated_of_prepare (prepare_refused q) fun p => Search.compileParts_ungated schema root _
  | find store clock q =>
      refine gated_of_prepare (prepare_refused q) fun p =>
        .bind (projection_ungated _) fun _ _ => ?_
      dsimp only
      split
      · exact .bind (.ok none) fun _ _ => .bind (rowInterpretation_ungated clock _ _) fun _ _ =>
          .bind (SortPlan.ofKeys_ungated clock _) fun _ _ => .ok _
      · exact .bind (.map _ (columnEvaluators_ungated clock _)) fun _ _ =>
          .bind (rowInterpretation_ungated clock _ _) fun _ _ =>
          .bind (SortPlan.ofKeys_ungated clock _) fun _ _ => .ok _
      · -- A native projection is refused for what it is.
        exact .refused rfl
  | count store clock q =>
      exact gated_of_prepare (prepare_refused q) fun p =>
        .bind (rowInterpretation_ungated clock _ _) fun _ _ => .ok _
  | sqlAdvanced schema root q =>
      exact gated_of_prepare (prepareAdvanced_refused q) fun p =>
        Sql.compileParts_ungated schema root _
  | mongoAdvanced schema root q =>
      exact gated_of_prepare (prepareAdvanced_refused q) fun p =>
        Mongo.compileParts_ungated schema root _
  | searchAdvanced schema root q =>
      exact gated_of_prepare (prepareAdvanced_refused q) fun p =>
        Search.compileParts_ungated schema root _
  | rows store clock q =>
      refine gated_of_prepare (prepareAdvanced_refused q) fun p =>
        .bind (projection_ungated _) fun _ _ => ?_
      dsimp only
      split
      · exact .bind (columnEvaluators_ungated clock _) fun _ _ =>
          .bind (rowInterpretation_ungated clock _ _) fun _ _ =>
          .bind (groupRecords_ungated clock _ _) fun _ _ =>
          .bind (rowInterpretation_ungated clock _ _) fun _ _ =>
          .bind (SortPlan.ofKeys_ungated clock _) fun _ _ => .ok _
      · exact .refused rfl
      · exact .refused rfl

/-- A query with a constant under `IN` before an aggregate deep in another comparison, and with an
    aggregate in a sort key. -/
def sampleMisplaced : Query where
  filter := some (.not (.and [
    .simple ⟨.property "age" none, .isIn, some (.scalar (.integer 1))⟩,
    .simple ⟨.call .abs [.expression (.call .sum [.expression (.property "age" none)] none)] none,
      .equals, some (.scalar (.integer 1))⟩]))
  sorts := [.simple ⟨.call .count [.expression (.property "age" none)] none, .ascending⟩]

/-- The aggregate in the filter is what two of the entry points report, and a query without
    aggregates is not said to have one. -/
theorem gate_outcome_sample :
    errorOf? (Sql.compileQuery .default "users" sampleMisplaced) =
      some (.aggregateNotAllowed .sum .filter) ∧
    errorOf? ((⟨[], 256⟩ : Store).count ⟨"", "", ""⟩ sampleMisplaced) =
      some (.aggregateNotAllowed .sum .filter) ∧
    errorOf? ((⟨[], 256⟩ : Store).findRows ⟨"", "", ""⟩ {}) ≠
      some (.aggregateNotAllowed .sum .sort) := by
  have hrefused : (AnyQuery.plain sampleMisplaced).preprocess.Refused
      (.aggregateNotAllowed .sum .filter) := by
    refine .filterAggregate _ ⟨[_], _, [], rfl, ⟨.sum, rfl, rfl⟩, ?_⟩
    intro earlier hmem e
    rw [List.mem_singleton.mp hmem]
    rintro ⟨function, hfunction, _⟩
    exact absurd hfunction (by
      simp only [Expression.functions, List.find?_nil, reduceCtorEq, not_false_eq_true])
  have haccepted : ∀ e, ¬ (AnyQuery.advanced {}).preprocess.Refused e := by
    intro e h
    have hchecks : Except.ok () = .error e := (checks_eq_error {} none e).mpr h
    exact absurd hchecks (by simp only [reduceCtorEq, not_false_eq_true])
  exact ⟨(gate_outcome _ _ (.sql _ _ _)).1 _ hrefused,
    (gate_outcome _ _ (.count _ _ _)).1 _ hrefused,
    (gate_outcome _ _ (.rows _ _ _)).2 haccepted _ _⟩

end Polyquery
