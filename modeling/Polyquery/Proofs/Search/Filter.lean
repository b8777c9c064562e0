import Polyquery.Proofs.Condition.Faults
import Polyquery.Proofs.Memory.Kleene
import Polyquery.Proofs.Search.Meaning

/-!
# Clauses in a Search Engine and Tests in Memory

A clause that is sent to a search engine matches the records that pass the
test of the memory backend. A query on a field does not match null, so an
equality needs no guard, and its contrary lets null in as an inequality has
to. The contrary of an ordering or a pattern must not let null in, and there
the field is required to have a value besides.

Not every comparison can be searched: a function on the left and another
field on the right have no clause. Nothing else stands in the way, so a
condition has a clause exactly when it has no such comparison and is not
higher than the depth limit.

## Main definitions

* `Search.Searchable`: The comparisons that have a clause.
* `Search.FieldReads`: What a query on a field is read as.

## Theorems

* `guarded_reads`: A query on a field, or its contrary with null kept out.
* `scalar_reads`, `list_reads`, `null_reads`, `pattern_reads`: The forms of a
  comparison.
* `leafClause_reads`, `leafClause_ok_iff`: A comparison.
* `combine_reads`: Clauses under a connective.
* `clause_agrees_with_memory`: A clause exists for the conditions that can be
  searched, and matches the records that pass.
-/

namespace Polyquery.Search

/-- The comparisons that have a clause: of a bare property with something other than a
    field. -/
structure Searchable (leaf : SimpleCondition) : Prop where
  left : leaf.left.path?.isSome = true
  right : leaf.field? = none

instance (leaf : SimpleCondition) : Decidable (Searchable leaf) :=
  decidable_of_iff (leaf.left.path?.isSome = true ∧ leaf.field? = none)
    ⟨fun h => ⟨h.1, h.2⟩, fun h => ⟨h.left, h.right⟩⟩

/-- What the clause of a comparison of a field is read as on a record. -/
def FieldReads (record : Record) (field : String) (given : Option ConditionValue)
    (polarity : Polarity) (answer : Bool) : Prop :=
  ∃ clause, fieldClause polarity field given = .ok clause ∧ ClauseReads record clause answer

section Forms

variable (record : Record) (field : String)

/-- A query on a field is false of null, so only its contrary has to be guarded. -/
theorem guarded_reads (op : Operator) (h : op.isOrdering = true ∨ op.isPattern = true)
    (literal : Literal) (positive : Clause) (answer : Bool)
    (hpositive : positiveClause op field literal = .ok positive)
    (hreads : ClauseReads record positive answer)
    (hpresent : (!(record.lookup field).isNull && answer) = answer) (wrapped : Bool) :
    FieldReads record field (some (.scalar literal)) ⟨op, wrapped⟩
      (!(record.lookup field).isNull && (answer != wrapped)) := by
  have hclause : fieldClause ⟨op, wrapped⟩ field (some (.scalar literal)) =
      .ok (if wrapped then .presentExcept field positive else positive) := by
    unfold fieldClause
    cases op <;> first | exact absurd h (by decide) | (simp only [hpositive]; rfl)
  refine ⟨_, hclause, ?_⟩
  -- Without the wrapper the guard would change nothing, and there is none.
  cases wrapped with
  | false =>
      rw [Bool.bne_false, hpresent]
      exact hreads
  | true =>
      rw [Bool.bne_true]
      exact reads_presentExcept field hreads

theorem ordering_reads (op : Operator) (h : op.isOrdering = true) (literal : Literal)
    (hfinite : literal.isFinite = true) (wrapped : Bool) :
    FieldReads record field (some (.scalar literal)) ⟨op, wrapped⟩
      ((comparisonTruth op (record.lookup field) literal.toJson).passes wrapped) := by
  have hconstant := isNull_toJson literal hfinite
  have hpositive : positiveClause op field literal = .ok (.range field (boundOf op) literal) := by
    cases op <;> first | exact absurd h (by decide) | rfl
  have hpresent := relates_present op (record.lookup field) literal.toJson
  -- A constant is not null, so presence is asked of the field alone.
  rw [passes_ordering op h, hconstant, Bool.not_false, Bool.and_true]
  rw [hconstant, Bool.not_false, Bool.and_true] at hpresent
  exact guarded_reads record field op (.inl h) literal _ _ hpositive
    (reads_range field op h literal hfinite) hpresent wrapped

/-- A pattern is in no value that is no text, null among them. -/
theorem pattern_reads (op : Operator) (h : op.isPattern = true) (needle : String)
    (wrapped : Bool) :
    FieldReads record field (some (.scalar (.string needle))) ⟨op, wrapped⟩
      ((patternTruth op (.string needle) (record.lookup field)).passes wrapped) := by
  have hpositive : positiveClause op field (.string needle) =
      .ok (.wildcard field (wildcardPattern op needle)) := by
    simp only [positiveClause, h, if_true, Literal.asString?]
  have hpresent : (!(record.lookup field).isNull && op.finds needle (record.lookup field)) =
      op.finds needle (record.lookup field) := by
    cases record.lookup field <;> rfl
  rw [passes_patternTruth]
  exact guarded_reads record field op (.inr h) (.string needle) _ _ hpositive
    (reads_wildcard field op h needle) hpresent wrapped

theorem scalar_reads (op : Operator) (h : op.takesField = true) (literal : Literal)
    (hfinite : literal.isFinite = true) (negated : Bool) :
    FieldReads record field (some (.scalar literal)) (Polarity.of op negated)
      ((comparisonTruth op (record.lookup field) literal.toJson).passes negated) := by
  have hterm : ClauseReads record (.term field literal)
      (Operator.equals.relates (record.lookup field) literal.toJson) :=
    reads_term field literal hfinite
  exact comparisonTruth_polarity (record.lookup field) literal.toJson
    ⟨.term field literal, rfl, hterm⟩ ⟨.not (.term field literal), rfl, reads_not hterm⟩
    (fun op hordering wrapped => ordering_reads record field op hordering literal hfinite wrapped)
    op h negated

theorem list_reads (op : Operator) (h : op.takesList = true) (items : List Literal)
    (hfinite : items.all Literal.isFinite = true) (negated : Bool) :
    FieldReads record field (some (.list items)) (Polarity.of op negated)
      ((listTruth op items (record.lookup field)).passes negated) := by
  have hterms : ClauseReads record (.terms field items)
      (items.any fun item => Operator.equals.relates (record.lookup field) item.toJson) :=
    reads_terms field items hfinite
  exact listTruth_polarity items (record.lookup field) ⟨.terms field items, rfl, hterms⟩
    ⟨.not (.terms field items), rfl, reads_not hterms⟩ op h negated

theorem null_reads (op : Operator) (h : op.valueCount = 0) (negated : Bool) :
    FieldReads record field none (Polarity.of op negated)
      ((nullTruth op (record.lookup field)).passes negated) := by
  have hpresent : ClauseReads record (.present field) (!(record.lookup field).isNull) :=
    reads_present field
  -- The test for null is the contrary of the one for presence, and has no clause of its own.
  have habsent := reads_not hpresent
  rw [Bool.not_not] at habsent
  exact nullTruth_polarity (record.lookup field) ⟨.not (.present field), rfl, habsent⟩
    ⟨.present field, rfl, hpresent⟩ op h negated

end Forms

/-- A comparison that can be searched has a clause, and on every record the clause is read
    as the test that the flag asks for. -/
theorem leafClause_reads (clock : Clock) (leaf : SimpleCondition) (ctx : WalkContext)
    (hshape : Shape leaf.operator leaf.value) (hfinite : leaf.isFinite = true)
    (h : Searchable leaf) :
    ∃ clause, leafClause leaf ctx = .ok clause ∧ ∀ record,
      ClauseReads record clause ((leaf.truthOn clock (.single record)).passes ctx.negated) := by
  -- The clause does not depend on the record, so it is enough to find it for each of them.
  refine exists_ok_each ?_
  intro record
  rcases leaf with ⟨left, op, value⟩
  rcases h with ⟨hleft, hright⟩
  cases left with
  | call function arguments label => exact absurd hleft Bool.false_ne_true
  | property path label =>
      simp only [leafClause, fieldOf, ok_bind, SimpleCondition.truthOn, SimpleCondition.truth,
        Expression.valueOn_property, SimpleCondition.isFinite] at hshape hfinite ⊢
      -- The test is told by the shape, as it is in memory.
      cases hshape with
      | nullTest h => exact null_reads record path op h ctx.negated
      | listTest h items => exact list_reads record path op h items hfinite ctx.negated
      | pattern h text =>
          simp only [h, if_true, polarity_pattern op h]
          exact pattern_reads record path op h text ctx.negated
      | scalar h literal =>
          simp only [not_pattern_of_takesField op h, Bool.false_eq_true, if_false]
          exact scalar_reads record path op h literal hfinite ctx.negated
      | field h other =>
          exact absurd hright (by simp only [SimpleCondition.field?, reduceCtorEq,
            not_false_eq_true])

/-- A comparison of a field with something other than a field has a clause. What is found
    in the field does not matter, so it may be taken to be null. -/
theorem fieldClause_ok (op : Operator) (value : Option ConditionValue) (h : Shape op value)
    (hright : ∀ path, value ≠ some (.field path)) (field : String) (negated : Bool) :
    ∃ clause, fieldClause (Polarity.of op negated) field value = .ok clause := by
  -- Whatever the answer is, it is the existence of a clause that is followed.
  let made : Polarity → Bool → Prop := fun polarity _ =>
    ∃ clause, fieldClause polarity field value = .ok clause
  cases h with
  | nullTest h => exact nullTruth_polarity (P := made) .null ⟨_, rfl⟩ ⟨_, rfl⟩ op h negated
  | listTest h items =>
      exact listTruth_polarity (P := made) items .null ⟨_, rfl⟩ ⟨_, rfl⟩ op h negated
  | pattern h text =>
      rw [polarity_pattern op h]
      cases op <;> first | exact absurd h (by decide) | exact ⟨_, rfl⟩
  | scalar h literal =>
      have hordering : ∀ op : Operator, op.isOrdering = true → ∀ wrapped,
          made ⟨op, wrapped⟩ ((comparisonTruth op .null literal.toJson).passes wrapped) := by
        intro op h wrapped
        cases op <;> first | exact absurd h (by decide) | exact ⟨_, rfl⟩
      exact comparisonTruth_polarity (P := made) .null literal.toJson ⟨_, rfl⟩ ⟨_, rfl⟩
        hordering op h negated
  | field h path => exact absurd rfl (hright path)

/-- Another field is refused under every operator. -/
theorem fieldClause_field (polarity : Polarity) (field other : String) :
    fieldClause polarity field (some (.field other)) =
      .error (.unsupportedByBackend backendName .fieldComparison) := by
  rcases polarity with ⟨op, wrapped⟩
  cases op <;> rfl

/-- A comparison has a clause exactly when it can be searched, whatever the flag. -/
theorem leafClause_ok_iff (leaf : SimpleCondition) (hshape : Shape leaf.operator leaf.value)
    (ctx : WalkContext) : (∃ clause, leafClause leaf ctx = .ok clause) ↔ Searchable leaf := by
  rcases leaf with ⟨left, op, value⟩
  cases left with
  | call function arguments label =>
      -- A search has no clause for a call.
      constructor
      · rintro ⟨clause, hclause⟩
        exact absurd hclause (by simp only [leafClause, fieldOf, error_bind, reduceCtorEq,
          not_false_eq_true])
      · rintro ⟨hleft, _⟩
        exact absurd hleft Bool.false_ne_true
  | property path label =>
      simp only [leafClause, fieldOf, ok_bind]
      constructor
      · rintro ⟨clause, hclause⟩
        refine ⟨rfl, ?_⟩
        -- Only the comparison with another field has no clause.
        cases hshape with
        | field h other =>
            rw [fieldClause_field] at hclause
            exact absurd hclause (by simp only [reduceCtorEq, not_false_eq_true])
        | _ => rfl
      · rintro ⟨_, hright⟩
        refine fieldClause_ok op value hshape ?_ path ctx.negated
        intro other hvalue
        rw [SimpleCondition.field?, hvalue] at hright
        exact absurd hright (by simp only [reduceCtorEq, not_false_eq_true])

/-- Clauses under a connective are read as the connective of their readings. -/
theorem combine_reads (record : Record) (connective : Connective) (parts : List Clause)
    (answers : List Bool) (h : List.Forall₂ (ClauseReads record) parts answers) :
    ClauseReads record (interpretation.combine connective parts) (connective.join answers) := by
  cases connective with
  | and => exact reads_every h
  | or => exact reads_any h

/-- A prepared condition has a clause exactly when no comparison calls a function on the left
    or compares with another field, within the depth limit. Every record without arrays
    matches the clause exactly when it passes the test in memory, if the constants have
    values in the data format. -/
theorem clause_agrees_with_memory (clock : Clock) (searchDepth memoryDepth : Nat)
    (q p : Query) (c : Condition) (hprepare : q.prepare = .ok p) (hfilter : p.filter = some c)
    (hvalid : c.Valid) (hnative : c.nativeFree = true) (hne : c.isEmpty = false) :
    ((∃ clause, interpretation.filter (some c) searchDepth = .ok (some clause)) ↔
      c.height ≤ searchDepth ∧ ∀ leaf ∈ c.leaves, Searchable leaf) ∧
    ∀ clause, interpretation.filter (some c) searchDepth = .ok (some clause) →
      (∀ leaf ∈ c.leaves, leaf.isFinite = true) → c.height ≤ memoryDepth →
      ∃ test, (rowInterpretation clock).filter (some c) memoryDepth = .ok (some test) ∧
        ∀ record, (Json.object record).arrayFree = true →
          matches? record clause.toJson = some (test (.single record)) := by
  have hprepared := prepared_of_prepare q p c hprepare hfilter hvalid
  have hcompiles := interpretation.filter_ok_iff c searchDepth hnative hne Searchable
    (fun leaf hmem ctx => leafClause_ok_iff leaf (hprepared leaf hmem).2 ctx)
  refine ⟨hcompiles, ?_⟩
  intro clause hclause hfinite hmemory
  rcases hcompiles.mp ⟨clause, hclause⟩ with ⟨hheight, hsearchable⟩
  -- What has compiled is what the reading is known of.
  have hsimple : ∀ leaf ctx,
      Shape leaf.operator leaf.value ∧ leaf.isFinite = true ∧ Searchable leaf →
      ∃ clause, interpretation.simple leaf ctx = .ok clause ∧ ∀ record, True →
        ClauseReads record clause
          ((leaf.truthOn clock (.single record)).passes ctx.negated) := by
    rintro leaf ctx ⟨hshape, hfinite, hleaf⟩
    rcases leafClause_reads clock leaf ctx hshape hfinite hleaf with ⟨clause, hclause, hreads⟩
    exact ⟨clause, hclause, fun record _ => hreads record⟩
  rcases Interpretation.filter_answers_each hsimple
    (fun record connective parts answers h _ => combine_reads record connective parts answers h)
    c searchDepth hnative hne
    (fun leaf hmem => ⟨(hprepared leaf hmem).2, hfinite leaf hmem, hsearchable leaf hmem⟩)
    hheight with ⟨read, hread, hreads⟩
  rw [hclause] at hread
  rw [← Option.some.inj (Except.ok.inj hread)] at hreads
  rcases rowFilter_answers clock memoryDepth c hnative hne hprepared hmemory with
    ⟨test, htest, hmeaning⟩
  refine ⟨test, htest, ?_⟩
  intro record harrays
  have hanswer := hreads record (fun _ _ => trivial)
  unfold ClauseReads at hanswer
  unfold matches?
  rw [if_pos harrays, hanswer, hmeaning (.single record)]
  rfl

/-- A condition that can be searched. -/
def sampleSearchable : Condition :=
  .not (.and [
    .or [],
    .simple ⟨.property "age" none, .lesserThan, some (.scalar (.integer 18))⟩,
    .not (.simple ⟨.property "name" none, .startsWith, some (.scalar (.string "a*"))⟩),
    .simple ⟨.property "team" none, .isIn, some (.list [.integer 1, .integer 2])⟩])

theorem sampleSearchable_valid : sampleSearchable.Valid := by
  intro leaf hmem
  simp only [sampleSearchable, Condition.leaves, Condition.leavesAll, List.append_nil,
    List.nil_append, List.cons_append, List.mem_cons, List.not_mem_nil, or_false] at hmem
  rcases hmem with rfl | rfl | rfl
  all_goals exact ⟨by decide, by rintro v ⟨⟩; rfl, rfl⟩

/-- A condition with a clause, on a record without an age, and one without a clause since it
    compares two fields. -/
theorem clause_agrees_with_memory_sample :
    (∃ clause test, interpretation.filter (some sampleSearchable) 4 = .ok (some clause) ∧
      (rowInterpretation ⟨"", "", ""⟩).filter (some sampleSearchable) 4 = .ok (some test) ∧
      matches? [("name", .string "A*b"), ("team", .ofInt 3)] clause.toJson =
        some (test (.single [("name", .string "A*b"), ("team", .ofInt 3)]))) ∧
      ¬ ∃ clause, interpretation.filter (some sampleCondition) 256 = .ok (some clause) := by
  have hsearch := clause_agrees_with_memory ⟨"", "", ""⟩ 4 4
    { filter := some sampleSearchable } { filter := some sampleSearchable } sampleSearchable
    rfl rfl sampleSearchable_valid rfl rfl
  have hrefused := clause_agrees_with_memory ⟨"", "", ""⟩ 256 256
    { filter := some sampleCondition } { filter := some sampleCondition } sampleCondition
    rfl rfl sampleCondition_valid rfl rfl
  constructor
  · rcases hsearch.1.mpr (by decide) with ⟨clause, hclause⟩
    rcases hsearch.2 clause hclause (by decide) (by decide) with ⟨test, htest, hmatches⟩
    exact ⟨clause, test, hclause, htest, hmatches _ rfl⟩
  · rw [hrefused.1]
    decide

end Polyquery.Search
