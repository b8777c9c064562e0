import Polyquery.Proofs.Memory.Kleene
import Polyquery.Proofs.Mongo.Meaning

/-!
# Filters in Mongo and in Memory

A document that is sent to Mongo matches the records that pass the test of the
memory backend. A comparison with a constant is a clause on the field, and a
comparison with another field is an expression; the two deal with null in ways
of their own. A clause of equality has no need of a guard, because the constant
is not null; only the contrary of an ordering or a pattern has one. In an
expression null lies below every value, and a guard on either side keeps it out
of everything but an inequality, which is the contrary of the guarded equality.

Connectives and negations follow from `Interpretation.filter_answers_each`.

## Main definitions

* `Mongo.Readable`: The comparisons that are looked at.

## Theorems

* `fieldFilter_reads`: A comparison with a constant.
* `guardedComparison_reads`: A comparison with another field.
* `leafFilter_reads`: A comparison.
* `combine_reads`: Filters under a connective.
* `document_agrees_with_memory`: A document matches the records that pass.
-/

namespace Polyquery.Mongo

/-- The comparisons that are looked at: the left side is a bare property, constants have
    values in the data format, and paths name fields. -/
structure Readable (leaf : SimpleCondition) : Prop where
  valid : leaf.Valid
  shape : Shape leaf.operator leaf.value
  finite : leaf.isFinite = true
  left : leaf.left.path?.any plainPath = true
  right : leaf.field?.all plainPath = true

/-- What a clause on a value is read as. -/
def ClauseReads (value : Json) (given : Option ConditionValue) (polarity : Polarity)
    (answer : Bool) : Prop :=
  ∃ plain, clause polarity given = .ok plain ∧
    clause? value (.object plain.members) = some answer

section Clauses

variable (value : Json)

/-- An ordering of a field and a constant is false of null, so only its contrary has to
    be guarded. -/
theorem ordering_reads (op : Operator) (h : op.isOrdering = true) (literal : Literal)
    (hfinite : literal.isFinite = true) (wrapped : Bool) :
    ClauseReads value (some (.scalar literal)) ⟨op, wrapped⟩
      ((comparisonTruth op value literal.toJson).passes wrapped) := by
  have hconstant := isNull_toJson literal hfinite
  have hplain : clause? value (.object (Clause.compare (comparisonOf op) literal).members) =
      some (op.relates value literal.toJson) := by
    rw [clause?_compare, ← holds_comparisonOf op h]
    cases op <;> first | exact absurd h (by decide) | rfl
  rw [passes_ordering op h]
  -- Under a negation the clause is turned round, and null is kept out of it.
  cases wrapped with
  | false =>
      refine ⟨.compare (comparisonOf op) literal, ?_, ?_⟩
      · cases op <;> first | exact absurd h (by decide) | rfl
      · rw [hplain, Bool.bne_false, relates_present]
  | true =>
      refine ⟨.exceptNull (.compare (comparisonOf op) literal), ?_, ?_⟩
      · cases op <;> first | exact absurd h (by decide) | rfl
      · rw [clause?_exceptNull value _ _ hplain, hconstant, Bool.bne_true, Bool.not_false,
          Bool.and_true, Bool.and_comm]

theorem scalar_reads (op : Operator) (h : op.takesField = true) (literal : Literal)
    (hfinite : literal.isFinite = true) (negated : Bool) :
    ClauseReads value (some (.scalar literal)) (Polarity.of op negated)
      ((comparisonTruth op value literal.toJson).passes negated) := by
  have hequal : ClauseReads value (some (.scalar literal)) ⟨.equals, false⟩
      (Operator.equals.relates value literal.toJson) := by
    refine ⟨.compare .equal literal, rfl, ?_⟩
    rw [clause?_compare, ← equalTo_literal value literal hfinite]
    rfl
  have hunequal : ClauseReads value (some (.scalar literal)) ⟨.notEquals, false⟩
      (!Operator.equals.relates value literal.toJson) := by
    refine ⟨.compare .notEqual literal, rfl, ?_⟩
    rw [clause?_compare, ← equalTo_literal value literal hfinite]
    rfl
  exact comparisonTruth_polarity value literal.toJson hequal hunequal
    (fun op hordering wrapped => ordering_reads value op hordering literal hfinite wrapped)
    op h negated

theorem list_reads (op : Operator) (h : op.takesList = true) (items : List Literal)
    (hfinite : items.all Literal.isFinite = true) (negated : Bool) :
    ClauseReads value (some (.list items)) (Polarity.of op negated)
      ((listTruth op items value).passes negated) :=
  listTruth_polarity items value ⟨.isIn items, rfl, clause?_isIn value items hfinite⟩
    ⟨.notIn items, rfl, clause?_notIn value items hfinite⟩ op h negated

theorem null_reads (op : Operator) (h : op.valueCount = 0) (negated : Bool) :
    ClauseReads value none (Polarity.of op negated) ((nullTruth op value).passes negated) :=
  nullTruth_polarity value ⟨.isNull, rfl, clause?_isNull value⟩
    ⟨.isNotNull, rfl, clause?_isNotNull value⟩ op h negated

/-- A pattern is in no value that is no text, so only its contrary has to be guarded. -/
theorem pattern_reads (op : Operator) (h : op.isPattern = true) (needle : String)
    (wrapped : Bool) :
    ClauseReads value (some (.scalar (.string needle))) ⟨op, wrapped⟩
      ((patternTruth op (.string needle) value).passes wrapped) := by
  have hplain := clause?_regex value op h needle
  rw [passes_patternTruth]
  cases wrapped with
  | false =>
      have hpresent : (!value.isNull && op.finds needle value) = op.finds needle value := by
        cases value <;> rfl
      refine ⟨.regex (regexPattern op needle), ?_, ?_⟩
      · cases op <;> first | exact absurd h (by decide) | rfl
      · rw [hplain, Bool.bne_false, hpresent]
  | true =>
      refine ⟨.exceptNull (.regex (regexPattern op needle)), ?_, ?_⟩
      · cases op <;> first | exact absurd h (by decide) | rfl
      · rw [clause?_exceptNull value _ _ hplain, Bool.bne_true, Bool.and_comm]

end Clauses

section Expressions

variable {mixed : Json → Json → Ordering} {record : Record} {left right : Expr}
  {a b : Option Json}

/-- The guard of a comparison of expressions. -/
theorem guard_reads (ha : operand? record left.toJson = some a)
    (hb : operand? record right.toJson = some b) :
    condition? mixed record (Expr.and [present left, present right]).toJson =
      some (!(a.getD .null).isNull && !(b.getD .null).isNull) :=
  condition?_both (condition?_present ha) (condition?_present hb)

/-- Behind the guard a question about the order of operands is one about values. -/
theorem guarded_eq (ask : Option Ordering → Bool)
    (hkinds : Comparable (a.getD .null) (b.getD .null)) :
    (!(a.getD .null).isNull && !(b.getD .null).isNull && ask (operandOrder mixed a b)) =
      (!(a.getD .null).isNull && !(b.getD .null).isNull &&
        ask (compareValues (a.getD .null) (b.getD .null))) := by
  by_cases hpresent : (!(a.getD .null).isNull && !(b.getD .null).isNull) = true
  · rw [operandOrder_of_comparable hkinds hpresent]
  · -- What null is compared with is lost behind the guard.
    rw [eq_false_of_ne_true hpresent, Bool.false_and, Bool.false_and]

/-- A guarded ordering, or a guarded contrary of one. -/
theorem guardedOrdering_reads (op : Operator) (h : op.isOrdering = true) (wrapped : Bool)
    (ha : operand? record left.toJson = some a) (hb : operand? record right.toJson = some b)
    (hkinds : Comparable (a.getD .null) (b.getD .null)) :
    condition? mixed record (guardedComparison ⟨op, wrapped⟩ left right).toJson =
      some ((comparisonTruth op (a.getD .null) (b.getD .null)).passes wrapped) := by
  have hguard : condition? mixed record (Expr.and [present left, present right]).toJson =
      some (!(a.getD .null).isNull && !(b.getD .null).isNull) := guard_reads ha hb
  have hcompare : condition? mixed record
      (Expr.compare (comparisonOf op) left right).toJson =
        some ((comparisonOf op).holds (operandOrder mixed a b)) :=
    condition?_compare (comparisonOf op) ha hb
  -- The guard stands beside the comparison, and only the comparison may be negated.
  have hform : guardedComparison ⟨op, wrapped⟩ left right =
      .and [.and [present left, present right],
        negateIf wrapped (.compare (comparisonOf op) left right)] := by
    cases op <;> first | exact absurd h (by decide) | rfl
  rw [passes_ordering op h, hform, ← holds_comparisonOf op h]
  cases wrapped with
  | false =>
      rw [Bool.bne_false, ← guarded_eq (comparisonOf op).holds hkinds]
      exact condition?_both hguard hcompare
  | true =>
      rw [Bool.bne_true, ← guarded_eq (fun ordering => !(comparisonOf op).holds ordering) hkinds]
      exact condition?_both hguard (condition?_not hcompare)

/-- A comparison with another field. An inequality is the contrary of the equality with
    its guard, so null is let in. -/
theorem guardedComparison_reads (op : Operator) (h : op.takesField = true) (negated : Bool)
    (ha : operand? record left.toJson = some a) (hb : operand? record right.toJson = some b)
    (hkinds : Comparable (a.getD .null) (b.getD .null)) :
    condition? mixed record (guardedComparison (Polarity.of op negated) left right).toJson =
      some ((comparisonTruth op (a.getD .null) (b.getD .null)).passes negated) := by
  have hguard : condition? mixed record (Expr.and [present left, present right]).toJson =
      some (!(a.getD .null).isNull && !(b.getD .null).isNull) := guard_reads ha hb
  have hequal := condition?_both hguard (condition?_compare .equal ha hb)
  -- An equality relates nothing that the guard would have kept out.
  rw [guarded_eq Comparison.equal.holds hkinds, holds_equal, relates_present] at hequal
  exact comparisonTruth_polarity (P := fun polarity answer =>
    condition? mixed record (guardedComparison polarity left right).toJson = some answer)
    (a.getD .null) (b.getD .null) hequal (condition?_not hequal)
    (fun op hordering wrapped => guardedOrdering_reads op hordering wrapped ha hb hkinds)
    op h negated

end Expressions

/-- A comparison with a constant compiles to a clause on the field. -/
theorem fieldFilter_reads (leaf : SimpleCondition) (path : String) (hpath : plainPath path = true)
    (ctx : WalkContext) (hfield : clauseField? .document leaf = some path)
    {answer : Json → Bool}
    (h : ∀ value, ClauseReads value leaf.value (Polarity.of leaf.operator ctx.negated)
      (answer value)) :
    ∃ f, leafFilter .document leaf ctx = .ok f ∧
      ∀ (mixed : Json → Json → Ordering) (record : Record),
        FilterReads mixed record f (answer (record.lookup path)) := by
  rcases exists_ok_each h with ⟨plain, hplain, hreads⟩
  refine ⟨.field path plain, ?_, ?_⟩
  · unfold leafFilter
    simp only [hfield, hplain]
    rfl
  · intro mixed record
    exact filter?_field path hpath plain (hreads (record.lookup path))

/-- A property is the field at its path. -/
theorem ofExpression_property (path : String) (label : Option String) :
    ofExpression .document (.property path label) = .ok (.field path) := by
  simp only [ofExpression, Scope.fieldOf?, Scope.property]

/-- Another property on the right side is a field as well. -/
theorem rightSide_field (path : String) (h : Text.isBlank path = false) :
    rightSide .document (.field path) = .ok (.field path) := by
  have hproperty : Expression.ofPath path = .ok (.property path none) := by
    simp only [Expression.ofPath, Expression.checkPath, h, Bool.false_eq_true, if_false]
    rfl
  simp only [rightSide, hproperty]
  exact ofExpression_property path none

/-- A comparison with another field compiles to a guarded comparison. -/
theorem exprFilter_reads (leaf : SimpleCondition) (path other : String)
    (label : Option String) (hleft : leaf.left = .property path label)
    (hvalue : leaf.value = some (.field other)) (h : leaf.operator.takesField = true)
    (hpath : plainPath path = true) (hother : plainPath other = true)
    (hblank : Text.isBlank other = false) (ctx : WalkContext) :
    ∃ f, leafFilter .document leaf ctx = .ok f ∧
      ∀ (mixed : Json → Json → Ordering) (record : Record),
        Comparable (record.lookup path) (record.lookup other) →
        FilterReads mixed record f ((comparisonTruth leaf.operator (record.lookup path)
          (record.lookup other)).passes ctx.negated) := by
  refine ⟨.expr (guardedComparison (Polarity.of leaf.operator ctx.negated) (.field path)
    (.field other)), ?_, ?_⟩
  · simp only [leafFilter, clauseField?, condition, hleft, hvalue, ofExpression_property,
      rightSide_field other hblank, ok_bind]
    rfl
  · intro mixed record hkinds
    exact filter?_expr (guardedComparison_reads leaf.operator h ctx.negated
      (operand?_field path hpath) (operand?_field other hother) hkinds)

/-- A comparison compiles to a filter, and on every record the filter is read as the test
    that the flag asks for. -/
theorem leafFilter_reads (leaf : SimpleCondition) (ctx : WalkContext) (h : Readable leaf) :
    ∃ f, leafFilter .document leaf ctx = .ok f ∧
      ∀ (mixed : Json → Json → Ordering) (clock : Clock) (record : Record),
        leaf.FieldsComparable (leaf.left.valueOn clock (.single record)) record.lookup →
        FilterReads mixed record f ((leaf.truthOn clock (.single record)).passes ctx.negated) := by
  rcases h with ⟨hvalid, hshape, hfinite, hleft, hright⟩
  rcases leaf with ⟨left, op, value⟩
  cases left with
  -- A call on the left is not read by a field test.
  | call function arguments label => exact absurd hleft Bool.false_ne_true
  | property path label =>
      have hpath : plainPath path = true := hleft
      simp only [SimpleCondition.truthOn, SimpleCondition.truth, Expression.valueOn_property,
        SimpleCondition.FieldsComparable, SimpleCondition.isFinite] at hshape hfinite ⊢
      -- The shape tells the test; all but the comparison of two fields are clauses of one field.
      cases hshape with
      | nullTest h =>
          rcases fieldFilter_reads ⟨.property path label, op, none⟩ path hpath ctx rfl
            (fun value => null_reads value op h ctx.negated) with ⟨f, hf, hreads⟩
          exact ⟨f, hf, fun mixed _ record _ => hreads mixed record⟩
      | listTest h items =>
          rcases fieldFilter_reads ⟨.property path label, op, some (.list items)⟩ path hpath ctx rfl
            (fun value => list_reads value op h items hfinite ctx.negated) with ⟨f, hf, hreads⟩
          exact ⟨f, hf, fun mixed _ record _ => hreads mixed record⟩
      | pattern h text =>
          have hclause : ∀ value, ClauseReads value (some (.scalar (.string text)))
              (Polarity.of op ctx.negated)
              ((patternTruth op (.string text) value).passes ctx.negated) := by
            intro value
            rw [polarity_pattern op h]
            exact pattern_reads value op h text ctx.negated
          rcases fieldFilter_reads ⟨.property path label, op, some (.scalar (.string text))⟩ path
            hpath ctx rfl hclause with ⟨f, hf, hreads⟩
          simp only [h, if_true]
          exact ⟨f, hf, fun mixed _ record _ => hreads mixed record⟩
      | scalar h literal =>
          rcases fieldFilter_reads ⟨.property path label, op, some (.scalar literal)⟩ path hpath ctx
            rfl (fun value => scalar_reads value op h literal hfinite ctx.negated) with
            ⟨f, hf, hreads⟩
          simp only [not_pattern_of_takesField op h, Bool.false_eq_true, if_false]
          exact ⟨f, hf, fun mixed _ record _ => hreads mixed record⟩
      | field h other =>
          -- Two fields are compared by an expression, which is right for comparable kinds.
          have hblank : Text.isBlank other = false := by
            have hmade := hvalid.value (.field other) rfl
            exact Bool.not_eq_true' _ ▸ hmade
          rcases exprFilter_reads ⟨.property path label, op, some (.field other)⟩ path other label
            rfl rfl h hpath hright hblank ctx with ⟨f, hf, hreads⟩
          exact ⟨f, hf, fun mixed _ record hkinds => hreads mixed record (hkinds other rfl)⟩

/-- Filters under a connective are read as the connective of their readings. -/
theorem combine_reads (mixed : Json → Json → Ordering) (record : Record)
    (connective : Connective) (parts : List Filter) (answers : List Bool)
    (h : List.Forall₂ (FilterReads mixed record) parts answers) (hne : parts ≠ []) :
    FilterReads mixed record ((interpretation .document).combine connective parts)
      (connective.join answers) := by
  have hbranches := branches?_of_forall₂ h hne
  cases connective with
  | and => exact filter?_and hbranches
  | or => exact filter?_or hbranches

/-- A prepared condition over bare properties compiles to one document for Mongo and to one
    test in memory. Every record without arrays, in which no two fields that are compared
    hold values of different kinds, matches the document exactly when it passes the test. -/
theorem document_agrees_with_memory (clock : Clock) (mongoDepth memoryDepth : Nat)
    (q p : Query) (c : Condition) (hprepare : q.prepare = .ok p) (hfilter : p.filter = some c)
    (hvalid : c.Valid) (hnative : c.nativeFree = true) (hne : c.isEmpty = false)
    (hfinite : ∀ leaf ∈ c.leaves, leaf.isFinite = true)
    (hleft : ∀ leaf ∈ c.leaves, leaf.left.path?.any plainPath = true)
    (hright : ∀ leaf ∈ c.leaves, leaf.field?.all plainPath = true)
    (hmongo : c.height ≤ mongoDepth) (hmemory : c.height ≤ memoryDepth) :
    ∃ f test,
      (interpretation .document).filter (some c) mongoDepth = .ok (some f) ∧
      (rowInterpretation clock).filter (some c) memoryDepth = .ok (some test) ∧
      ∀ (mixed : Json → Json → Ordering) (record : Record),
        (Json.object record).arrayFree = true →
        (∀ leaf ∈ c.leaves,
          leaf.FieldsComparable (leaf.left.valueOn clock (.single record)) record.lookup) →
        matches? mixed record f.toJson = some (test (.single record)) := by
  have hprepared := prepared_of_prepare q p c hprepare hfilter hvalid
  have hreadable : ∀ leaf ∈ c.leaves, Readable leaf := fun leaf hmem =>
    ⟨hvalid leaf hmem, (hprepared leaf hmem).2, hfinite leaf hmem, hleft leaf hmem,
      hright leaf hmem⟩
  -- An environment is a record with an order of values of different kinds.
  have hsimple : ∀ leaf ctx, Readable leaf →
      ∃ f, (interpretation .document).simple leaf ctx = .ok f ∧
        ∀ env : (Json → Json → Ordering) × Record,
          leaf.FieldsComparable (leaf.left.valueOn clock (.single env.2)) env.2.lookup →
          FilterReads env.1 env.2 f ((leaf.truthOn clock (.single env.2)).passes ctx.negated) := by
    intro leaf ctx hleaf
    rcases leafFilter_reads leaf ctx hleaf with ⟨f, hf, hreads⟩
    exact ⟨f, hf, fun env h => hreads env.1 clock env.2 h⟩
  rcases Interpretation.filter_answers_each hsimple
    (fun env => combine_reads env.1 env.2) c mongoDepth hnative hne hreadable hmongo with
    ⟨f, hf, hreads⟩
  rcases rowFilter_answers clock memoryDepth c hnative hne hprepared hmemory with
    ⟨test, htest, hmeaning⟩
  refine ⟨f, test, hf, htest, ?_⟩
  intro mixed record harrays hkinds
  have hanswer := hreads (mixed, record) hkinds
  unfold FilterReads at hanswer
  unfold matches?
  rw [if_pos harrays, hanswer, hmeaning (.single record)]
  rfl

/-- A record without an age and a team. -/
theorem document_agrees_with_memory_sample :
    ∃ f test,
      (interpretation .document).filter (some sampleCondition) 256 = .ok (some f) ∧
      (rowInterpretation ⟨"", "", ""⟩).filter (some sampleCondition) 256 = .ok (some test) ∧
      matches? (fun _ _ => .eq) [("nick", .string "Bo"), ("name", .string "Bob")] f.toJson =
        some (test (.single [("nick", .string "Bo"), ("name", .string "Bob")])) := by
  rcases document_agrees_with_memory ⟨"", "", ""⟩ 256 256 { filter := some sampleCondition }
    { filter := some sampleCondition } sampleCondition rfl rfl sampleCondition_valid rfl rfl
    (by decide) (by decide) (by decide) (by decide) (by decide) with ⟨f, test, hf, htest, h⟩
  exact ⟨f, test, hf, htest, h _ _ rfl (by decide)⟩

end Polyquery.Mongo
