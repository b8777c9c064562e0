import Polyquery.Memory.Filter
import Polyquery.Proofs.Condition.Comparison
import Polyquery.Proofs.Condition.Meaning
import Polyquery.Proofs.Memory.Evaluation

/-!
# Filters on Records and Three-Valued Logic

The memory backend realises three-valued logic with tests that have two
answers. The test compiled for a condition passes exactly the records of which
the condition is true, and the test compiled for its contrary exactly those of
which it is false. A record of which it is neither passes none of the two.

The tests of single comparisons are where null is dealt with, once in each of
their forms; the lemmas on forms below compare each of them with the truth of
the comparison under both values of the flag. Connectives and negations follow
from `Interpretation.filter_answers_each`, for which the backend has to offer no
more than these lemmas and `combineTests_answers`.

## Main definitions

* `SimpleCondition.truthOn`, `Condition.truthOn`: Truth on a group of records.
* `TestAnswers`: What a test answers on a group of records.

## Theorems

* `comparisonTest_eq`, `memberTest_eq`, `nullTest_eq`, `patternTest_eq`: The
  tests of the forms of comparisons.
* `rowTest_answers`, `combineTests_answers`: The tests of comparisons and of
  connectives.
* `rowFilter_answers`: The test of a condition answers as its truth value does.
* `filter_realises_kleene`: A condition and its contrary on every record.
-/

namespace Polyquery

/-- The truth of a comparison on a group of records. -/
def SimpleCondition.truthOn (clock : Clock) (rows : Rows) (leaf : SimpleCondition) : Truth :=
  leaf.truth (leaf.left.valueOn clock rows) rows.current.lookup

/-- The truth of a condition on a group of records. -/
def Condition.truthOn (clock : Clock) (rows : Rows) (c : Condition) : Truth :=
  c.truth (SimpleCondition.truthOn clock rows)

/-- The test of a plain comparison is the test that the flag asks for. -/
theorem comparisonTest_eq (op : Operator) (h : op.takesField = true) (negated : Bool)
    (left right : Json) :
    comparisonTest (Polarity.of op negated).operator (Polarity.of op negated).wrapped left right =
      (comparisonTruth op left right).passes negated := by
  have hpresent : (!left.isNull && !right.isNull && equalValues left right) =
      Operator.equals.relates left right := by
    rw [← relates_equals]
    exact relates_present .equals left right
  have hunequal : (!(!left.isNull && !right.isNull && equalValues left right)) =
      !Operator.equals.relates left right := by
    rw [hpresent]
  refine comparisonTruth_polarity (P := fun polarity answer =>
    comparisonTest polarity.operator polarity.wrapped left right = answer)
    left right hpresent hunequal ?_ op h negated
  -- An ordering has no complement, so its contrary is the wrapped ordering.
  intro op hordering wrapped
  rw [passes_ordering op hordering, ← compares_eq_relates]
  cases op <;> first | exact absurd hordering (by decide) | rfl

/-- The test of a membership is the test that the flag asks for. -/
theorem memberTest_eq (op : Operator) (h : op.takesList = true) (negated : Bool)
    (items : List Literal) (left : Json) :
    memberTest (Polarity.of op negated).operator (items.map Literal.toJson) left =
      (listTruth op items left).passes negated := by
  have hany : (items.map Literal.toJson).any (equalValues left) =
      items.any fun item => Operator.equals.relates left item.toJson := by
    rw [List.any_map]
    congr 1
    funext item
    exact (relates_equals left item.toJson).symm
  refine listTruth_polarity (P := fun polarity answer =>
    memberTest polarity.operator (items.map Literal.toJson) left = answer)
    items left ?_ ?_ op h negated
  · unfold memberTest
    rw [hany]
    exact Bool.bne_false _
  · unfold memberTest
    rw [hany]
    exact Bool.bne_true _

/-- The test of a null test is the test that the flag asks for. -/
theorem nullTest_eq (op : Operator) (h : op.valueCount = 0) (negated : Bool) (left : Json) :
    nullTest (Polarity.of op negated).operator left = (nullTruth op left).passes negated :=
  nullTruth_polarity (P := fun polarity answer => nullTest polarity.operator left = answer) left
    (beq_true left.isNull) (beq_false left.isNull) op h negated

/-- The test of a pattern is the test that the flag asks for. -/
theorem patternTest_eq (op : Operator) (negated : Bool) (text : String) (left : Json) :
    patternTest op negated (Text.lowerChars text.toList) left =
      (patternTruth op (.string text) left).passes negated := by
  rw [passes_patternTruth]
  cases left <;> rfl

/-- What a test answers on a group of records. -/
def TestAnswers (rows : Rows) (test : RowTest) (answer : Bool) : Prop :=
  test rows = answer

/-- Tests that are joined answer as the connective does on their answers. -/
theorem combineTests_answers (rows : Rows) (connective : Connective) (tests : List RowTest)
    (answers : List Bool) (h : List.Forall₂ (TestAnswers rows) tests answers) :
    TestAnswers rows (combineTests connective tests) (connective.join answers) := by
  have hmap : answers = tests.map fun test => test rows := by
    induction h with
    | nil => rfl
    | cons hfirst _ ih =>
        rw [List.map_cons, ← ih]
        exact congrArg (· :: _) hfirst.symm
  rw [hmap]
  cases connective with
  | and =>
      simp only [TestAnswers, combineTests, Connective.join, List.all_map]
      rfl
  | or =>
      simp only [TestAnswers, combineTests, Connective.join, List.any_map]
      rfl

/-- The comparisons that the memory backend compiles. -/
def SimpleCondition.Prepared (leaf : SimpleCondition) : Prop :=
  leaf.left.valid = true ∧ Shape leaf.operator leaf.value

/-- A comparison compiles to the test that the flag asks for. -/
theorem rowTest_answers (clock : Clock) (leaf : SimpleCondition) (ctx : WalkContext)
    (h : leaf.Prepared) :
    ∃ test, leaf.rowTest clock ctx = .ok test ∧
      ∀ rows, TestAnswers rows test ((leaf.truthOn clock rows).passes ctx.negated) := by
  rcases h with ⟨hleft, hshape⟩
  rcases Expression.evaluator_of_valid clock leaf.left hleft with ⟨left, hf⟩
  have hvalue : ∀ rows, leaf.left.valueOn clock rows = left rows := fun rows =>
    (Expression.valueOn_eq clock rows leaf.left left hf).symm
  rcases leaf with ⟨e, op, value⟩
  simp only [SimpleCondition.rowTest, SimpleCondition.truthOn, SimpleCondition.truth,
    TestAnswers] at hshape hf hvalue ⊢
  simp only [hf, hvalue]
  -- Each shape has a test of its own, which answers as the truth value passes.
  cases hshape with
  | nullTest h =>
      exact ⟨_, rfl, fun rows => nullTest_eq op h ctx.negated (left rows)⟩
  | listTest h items =>
      exact ⟨_, rfl, fun rows => memberTest_eq op h ctx.negated items (left rows)⟩
  | pattern h text =>
      rw [polarity_pattern op h]
      simp only [ok_bind, h, if_true, Literal.asString?]
      exact ⟨_, rfl, fun rows => patternTest_eq op ctx.negated text (left rows)⟩
  | scalar h literal =>
      simp only [ok_bind, polarity_not_pattern op h, not_pattern_of_takesField op h,
        Bool.false_eq_true, if_false]
      exact ⟨_, rfl, fun rows => comparisonTest_eq op h ctx.negated (left rows) literal.toJson⟩
  | field h path =>
      exact ⟨_, rfl, fun rows =>
        comparisonTest_eq op h ctx.negated (left rows) (rows.current.lookup path)⟩

/-- In a prepared query every valid comparison is compiled. -/
theorem prepared_of_prepare (q p : Query) (c : Condition) (hprepare : q.prepare = .ok p)
    (hfilter : p.filter = some c) (hvalid : c.Valid) :
    ∀ leaf ∈ c.leaves, leaf.Prepared := by
  intro leaf hmem
  have hcheck := checkValue_of_check p c hfilter (check_of_prepare q p hprepare) leaf hmem
  exact ⟨(hvalid leaf hmem).left, shape_of_checked leaf (hvalid leaf hmem) hcheck⟩

/-- The test of a condition exists, and on every group of records it answers as the test
    of the truth value does. -/
theorem rowFilter_answers (clock : Clock) (maxDepth : Nat) (c : Condition)
    (hnative : c.nativeFree = true) (hne : c.isEmpty = false)
    (hleaves : ∀ leaf ∈ c.leaves, leaf.Prepared) (hheight : c.height ≤ maxDepth) :
    ∃ test, (rowInterpretation clock).filter (some c) maxDepth = .ok (some test) ∧
      ∀ rows, test rows = (c.truthOn clock rows).passes false := by
  have hsimple : ∀ leaf ctx, leaf.Prepared →
      ∃ test, (rowInterpretation clock).simple leaf ctx = .ok test ∧
        ∀ rows, True → TestAnswers rows test ((leaf.truthOn clock rows).passes ctx.negated) := by
    intro leaf ctx hprepared
    rcases rowTest_answers clock leaf ctx hprepared with ⟨test, htest, hanswers⟩
    exact ⟨test, htest, fun rows _ => hanswers rows⟩
  rcases Interpretation.filter_answers_each hsimple
    (fun rows connective tests answers h _ => combineTests_answers rows connective tests answers h)
    c maxDepth hnative hne hleaves hheight with ⟨test, htest, hanswers⟩
  exact ⟨test, htest, fun rows => hanswers rows fun _ _ => trivial⟩

/-- The tests of a condition and of its contrary on every record: the one passes where
    the condition is true, the other where it is false, no record passes both, and a
    record on which every comparison has an answer passes exactly one. -/
theorem filter_realises_kleene (clock : Clock) (maxDepth : Nat) (q p : Query) (c : Condition)
    (hprepare : q.prepare = .ok p) (hfilter : p.filter = some c) (hvalid : c.Valid)
    (hnative : c.nativeFree = true) (hne : c.isEmpty = false)
    (hheight : (Condition.not c).height ≤ maxDepth) :
    ∃ accepts rejects,
      (rowInterpretation clock).filter (some c) maxDepth = .ok (some accepts) ∧
      (rowInterpretation clock).filter (some (.not c)) maxDepth = .ok (some rejects) ∧
      ∀ record : Record,
        (accepts (.single record) = true ↔ c.truthOn clock (.single record) = .yes) ∧
        (rejects (.single record) = true ↔ c.truthOn clock (.single record) = .no) ∧
        ¬ (accepts (.single record) = true ∧ rejects (.single record) = true) ∧
        ((∀ leaf ∈ c.leaves, leaf.truthOn clock (.single record) ≠ .unknown) →
          accepts (.single record) = !rejects (.single record)) ∧
        ∀ leaf ∈ c.leaves, leaf.truthOn clock (.single record) = .unknown ↔
          (leaf.operator.isOrdering = true ∧
            ((leaf.left.valueOn clock (.single record)).isNull = true ∨
              (leaf.operand record.lookup).isNull = true)) ∨
          (leaf.operator.isPattern = true ∧
            (leaf.left.valueOn clock (.single record)).isNull = true) := by
  have hleaves := prepared_of_prepare q p c hprepare hfilter hvalid
  have hinner : c.height ≤ maxDepth := by
    simp only [Condition.height] at hheight
    omega
  rcases rowFilter_answers clock maxDepth c hnative hne hleaves hinner with
    ⟨accepts, haccepts, hyes⟩
  -- The contrary has the same comparisons, and it is empty only if the condition is.
  rcases rowFilter_answers clock maxDepth (.not c)
    (by simpa only [Condition.nativeFree] using hnative)
    (by simpa only [Condition.isEmpty] using hne)
    (by simpa only [Condition.leaves] using hleaves) hheight with ⟨rejects, hrejects, hno⟩
  refine ⟨accepts, rejects, haccepts, hrejects, fun record => ?_⟩
  have haccept : accepts (.single record) = (c.truthOn clock (.single record)).passes false :=
    hyes (.single record)
  have hreject : rejects (.single record) = (c.truthOn clock (.single record)).passes true := by
    rw [hno (.single record)]
    simp only [Condition.truthOn, Condition.truth]
    exact Truth.passes_swap false _
  refine ⟨?_, ?_, ?_, ?_, ?_⟩
  · rw [haccept, Truth.passes_false]
  · rw [hreject, Truth.passes_true]
  · rw [haccept, hreject, Truth.passes_false, Truth.passes_true]
    rintro ⟨htrue, hfalse⟩
    rw [htrue] at hfalse
    exact Truth.noConfusion hfalse
  · intro hanswered
    rw [haccept, hreject]
    exact Truth.passes_not _ (truth_ne_unknown _ c hnative hanswered)
  · intro leaf hmem
    exact truth_eq_unknown_iff leaf (hleaves leaf hmem).2 _ _

/-- A record that passes neither test, because its age is missing, and one that passes
    the first. -/
theorem filter_realises_kleene_sample :
    ∃ accepts rejects,
      (rowInterpretation ⟨"", "", ""⟩).filter (some sampleCondition) 5 = .ok (some accepts) ∧
      (rowInterpretation ⟨"", "", ""⟩).filter (some (.not sampleCondition)) 5 =
        .ok (some rejects) ∧
      ¬ accepts (.single [("nick", .string "Bo"), ("name", .string "Bob")]) = true ∧
      ¬ rejects (.single [("nick", .string "Bo"), ("name", .string "Bob")]) = true ∧
      accepts (.single [("nick", .string "Bo"), ("name", .string "Bob"), ("age", .ofInt 30)]) =
        true := by
  rcases filter_realises_kleene ⟨"", "", ""⟩ 5 { filter := some sampleCondition }
    { filter := some sampleCondition } sampleCondition rfl rfl sampleCondition_valid rfl rfl
    (by decide) with ⟨accepts, rejects, haccepts, hrejects, h⟩
  have hunknown := h [("nick", .string "Bo"), ("name", .string "Bob")]
  have hknown := h [("nick", .string "Bo"), ("name", .string "Bob"), ("age", .ofInt 30)]
  refine ⟨accepts, rejects, haccepts, hrejects, ?_, ?_, ?_⟩
  · rw [hunknown.1]
    decide
  · rw [hunknown.2.1]
    decide
  · rw [hknown.1]
    rfl

end Polyquery
