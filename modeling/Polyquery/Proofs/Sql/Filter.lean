import Polyquery.Proofs.Memory.Kleene
import Polyquery.Proofs.Query.Customizers
import Polyquery.Proofs.Sql.Meaning

/-!
# Filters in SQL and in Memory

A statement selects the rows whose records pass the test of the memory
backend. The comparisons are gone through form by form: what a form is
compiled to under the flag answers as the test that the flag asks for. The
guards against null stand where SQL would otherwise give another answer, and
where there is none, as in front of a plain ordering, the unknown that null
leads to keeps the row out just as well. Connectives and negations then follow
from `Interpretation.filter_answers_each`, as they do for the memory backend.

The filter does not depend on the row. `leafTest_answers` therefore compiles a
comparison first and speaks of rows afterwards, and so does the main theorem.

## Main definitions

* `Sql.Row.Represents`: A row that has the values of a record.
* `Sql.Readable`: The comparisons that are looked at.

## Theorems

* `nullTest_answers`, `listTest_answers`, `scalarTest_answers`,
  `fieldTest_answers`, `patternTest_answers`: The forms of comparisons.
* `leafTest_answers`: A comparison.
* `combine_answers`: Conditions under a connective.
* `compileParts_filter`, `compileQuery_filter`: The condition of a statement is
  the filter.
* `where_agrees_with_memory`: A statement selects the rows whose records pass.
-/

namespace Polyquery.Sql

/-- A row that has the values of a record in the columns to which paths lead. -/
def Row.Represents (row : Row) (schema : Schema) (root : String) (record : Record)
    (paths : List String) : Prop :=
  ∀ path ∈ paths, ∀ resolved, schema.resolve root path = .ok resolved →
    row resolved.tableAlias resolved.column = record.lookup path

/-- The comparisons that are looked at: the left side is a bare property, constants have
    values in the data format, and every path leads to a column. -/
structure Readable (schema : Schema) (root : String) (leaf : SimpleCondition) : Prop where
  shape : Shape leaf.operator leaf.value
  bare : leaf.left.path?.isSome = true
  finite : leaf.isFinite = true
  resolves : ∀ path ∈ leafPaths leaf, ∃ resolved, schema.resolve root path = .ok resolved

section Forms

variable {row : Row} {left right : Expr} {a b : Json}

/-- A null test is its contrary under the flag. -/
theorem nullTest_answers (op : Operator) (h : op.valueCount = 0) (negated : Bool)
    (hleft : left.value? row = some a) :
    Answers row (nullTest (Polarity.of op negated).operator left)
      ((nullTruth op a).passes negated) :=
  nullTruth_polarity (P := fun polarity answer =>
    Answers row (nullTest polarity.operator left) answer) a
    (isNull_answers hleft) (isNotNull_answers hleft) op h negated

/-- Null is not among any values. -/
theorem any_relates_null (items : List Literal) :
    (items.any fun item => Operator.equals.relates .null item.toJson) = false := by
  rw [List.any_eq_false]
  intro item _
  rw [relates_null_left]
  exact Bool.false_ne_true

/-- A membership is true when the value is among the listed ones. -/
theorem isIn_answers (items : List Literal) (hfinite : items.all Literal.isFinite = true)
    (hleft : left.value? row = some a) (hkinds : ∀ item ∈ items, Comparable a item.toJson) :
    Answers row (.isIn left items)
      (items.any fun item => Operator.equals.relates a item.toJson) := by
  by_cases hnull : a.isNull = true
  · rw [(isNull_iff a).mp hnull] at hleft ⊢
    rcases listed?_null items hfinite with ⟨value, hvalue, hne⟩
    refine ⟨value, ?_, ?_⟩
    · simp only [Expr.truth?, hleft, Option.bind_some, hvalue]
    · rw [any_relates_null]
      exact eq_false_of_ne_true fun hpasses => hne ((Truth.passes_false value).mp hpasses)
  · have hlisted := listed?_present a (eq_false_of_ne_true hnull) items hfinite hkinds
    apply answers_ofBool
    simp only [Expr.truth?, hleft, Option.bind_some, hlisted]

/-- A membership that null is let into is true when the value is not among the listed
    ones. On null itself the membership may be unknown, and the guard decides. -/
theorem notIn_answers (items : List Literal) (hfinite : items.all Literal.isFinite = true)
    (hleft : left.value? row = some a) (hkinds : ∀ item ∈ items, Comparable a item.toJson) :
    Answers row (.or (.notIn left items) (.isNull left))
      (!items.any fun item => Operator.equals.relates a item.toJson) := by
  have hguard := isNull_answers hleft
  by_cases hnull : a.isNull = true
  · -- The guard is true, whatever the membership is.
    rcases listed?_null items hfinite with ⟨value, hvalue, _⟩
    have hmember : Answers row (.notIn left items) (value.swap.passes false) := by
      refine ⟨value.swap, ?_, rfl⟩
      rw [(isNull_iff a).mp hnull] at hleft
      simp only [Expr.truth?, hleft, Option.bind_some, hvalue, Option.map_some]
    have hor := answers_or hmember hguard
    rw [hnull, Bool.or_true] at hor
    rw [(isNull_iff a).mp hnull, any_relates_null]
    exact hor
  · -- A value that is there is compared with every item, and the guard does not change the answer.
    have hlisted := listed?_present a (eq_false_of_ne_true hnull) items hfinite hkinds
    have hmember : Answers row (.notIn left items)
        (!items.any fun item => Operator.equals.relates a item.toJson) := by
      apply answers_swap
      simp only [Expr.truth?, hleft, Option.bind_some, hlisted, Option.map_some]
    have hor := answers_or hmember hguard
    rw [eq_false_of_ne_true hnull, Bool.or_false] at hor
    exact hor

/-- A membership test is its contrary under the flag. -/
theorem listTest_answers (op : Operator) (h : op.takesList = true) (negated : Bool)
    (items : List Literal) (hfinite : items.all Literal.isFinite = true)
    (hleft : left.value? row = some a) (hkinds : ∀ item ∈ items, Comparable a item.toJson) :
    Answers row (listTest (Polarity.of op negated).operator left items)
      ((listTruth op items a).passes negated) :=
  listTruth_polarity (P := fun polarity answer =>
    Answers row (listTest polarity.operator left items) answer) items a
    (isIn_answers items hfinite hleft hkinds) (notIn_answers items hfinite hleft hkinds)
    op h negated

/-- An equality with guards in front of it. The guards say nothing that the equality
    does not, once it stands in no negation. -/
theorem equality_answers (hleft : left.value? row = some a) (hright : right.value? row = some b)
    (hkinds : Comparable a b) {guard : Expr} {present : Bool} (hguard : Answers row guard present)
    (himplied : Operator.equals.relates a b = true → present = true) :
    Answers row (.and guard (.compare .equal left right)) (Operator.equals.relates a b) := by
  have hand := answers_and hguard (compare_answers .equal hleft hright hkinds)
  have hanswer : (present && (!a.isNull && !b.isNull && Comparison.equal.holds
      (compareValues a b))) = Operator.equals.relates a b := by
    rw [holds_equal, relates_present, Bool.and_eq_right_iff_imp]
    exact himplied
  rw [hanswer] at hand
  exact hand

/-- Once every null is let in, an inequality is the contrary of the equality. -/
theorem widened_eq (a b : Json) :
    ((!a.isNull && !b.isNull && Comparison.notEqual.holds (compareValues a b)) || a.isNull ||
      b.isNull) = !Operator.equals.relates a b := by
  have hpresent := relates_present .equals a b
  rw [holds_notEqual]
  revert hpresent
  cases a.isNull <;> cases b.isNull <;> cases Operator.equals.relates a b <;> decide

/-- An inequality is widened by a test for null on the left and, if the right side can be
    null, by one on the right. -/
theorem inequality_answers (hleft : left.value? row = some a) (hright : right.value? row = some b)
    (hkinds : Comparable a b) :
    Answers row (.or (.or (.compare .notEqual left right) (.isNull left)) (.isNull right))
      (!Operator.equals.relates a b) := by
  rw [← widened_eq]
  exact answers_or (answers_or (compare_answers .notEqual hleft hright hkinds)
    (isNull_answers hleft)) (isNull_answers hright)

theorem inequality_answers_present (hleft : left.value? row = some a)
    (hright : right.value? row = some b) (hkinds : Comparable a b) (hb : b.isNull = false) :
    Answers row (.or (.compare .notEqual left right) (.isNull left))
      (!Operator.equals.relates a b) := by
  have hor := answers_or (compare_answers .notEqual hleft hright hkinds) (isNull_answers hleft)
  have hwidened := widened_eq a b
  rw [hb, Bool.or_false] at hwidened
  rw [hb, hwidened] at hor
  exact hor

/-- The contrary of an ordering with a guard in front of it that lets no null through
    which the ordering itself would keep out. -/
theorem contrary_answers (op : Operator) (h : op.isOrdering = true)
    (hleft : left.value? row = some a) (hright : right.value? row = some b)
    (hkinds : Comparable a b) {guard : Expr} {present : Bool} (hguard : Answers row guard present)
    (himplied : (!a.isNull && !b.isNull) = true → present = true) :
    Answers row (.and guard (.not (comparison op left right)))
      ((comparisonTruth op a b).passes true) := by
  rcases comparison_ordering op h with ⟨sign, hsign, hholds⟩
  have hand := answers_and hguard (notCompare_answers sign hleft hright hkinds)
  have hanswer : (present && (!a.isNull && !b.isNull && !sign.holds (compareValues a b))) =
      (comparisonTruth op a b).passes true := by
    rw [passes_ordering op h, hholds, Bool.bne_true, Bool.and_eq_right_iff_imp]
    intro hboth
    rw [Bool.and_eq_true] at hboth
    exact himplied hboth.1
  rw [hanswer] at hand
  rw [hsign]
  exact hand

/-- A plain ordering needs no guard. -/
theorem ordering_answers (op : Operator) (h : op.isOrdering = true)
    (hleft : left.value? row = some a) (hright : right.value? row = some b)
    (hkinds : Comparable a b) :
    Answers row (comparison op left right) ((comparisonTruth op a b).passes false) := by
  rcases comparison_ordering op h with ⟨sign, hsign, hholds⟩
  have hcompare := compare_answers sign hleft hright hkinds
  rw [hsign, passes_ordering op h, ← hholds, Bool.bne_false]
  exact hcompare

/-- A comparison with a constant. The constant is not null, so only the left side has to
    be guarded. -/
theorem scalarTest_answers (op : Operator) (h : op.takesField = true) (negated : Bool)
    (literal : Literal) (hfinite : literal.isFinite = true) (hleft : left.value? row = some a)
    (hkinds : Comparable a literal.toJson) :
    Answers row (scalarTest (Polarity.of op negated) left literal)
      ((comparisonTruth op a literal.toJson).passes negated) := by
  have hright : (Expr.value literal).value? row = some literal.toJson :=
    constant?_of_finite literal hfinite
  have hguard := isNotNull_answers hleft
  -- Equality guards against null on the left; the literal is never null.
  have hequal := equality_answers hleft hright hkinds hguard fun hrelates =>
    (present_of_relates .equals a literal.toJson hrelates).1
  have hunequal := inequality_answers_present hleft hright hkinds (isNull_toJson literal hfinite)
  refine comparisonTruth_polarity (P := fun polarity answer =>
    Answers row (scalarTest polarity left literal) answer) a literal.toJson hequal hunequal ?_
    op h negated
  intro op hordering wrapped
  -- An ordering is written as it is, or as its contrary under a guard.
  have hplain := ordering_answers op hordering hleft hright hkinds
  have hcontrary := contrary_answers op hordering hleft hright hkinds hguard fun hboth =>
    (Bool.and_eq_true_iff.mp hboth).1
  cases op <;> try exact absurd hordering (by decide)
  all_goals
    cases wrapped with
    | false => exact hplain
    | true => exact hcontrary

/-- A comparison with another column. Either side may be null, and both are guarded. -/
theorem fieldTest_answers (op : Operator) (h : op.takesField = true) (negated : Bool)
    (hleft : left.value? row = some a) (hright : right.value? row = some b)
    (hkinds : Comparable a b) :
    Answers row (fieldTest (Polarity.of op negated) left right)
      ((comparisonTruth op a b).passes negated) := by
  have hguard := answers_and (isNotNull_answers hleft) (isNotNull_answers hright)
  have hequal := equality_answers hleft hright hkinds hguard fun hrelates =>
    Bool.and_eq_true_iff.mpr (present_of_relates .equals a b hrelates)
  have hunequal := inequality_answers hleft hright hkinds
  refine comparisonTruth_polarity (P := fun polarity answer =>
    Answers row (fieldTest polarity left right) answer) a b hequal hunequal ?_ op h negated
  intro op hordering wrapped
  have hplain := ordering_answers op hordering hleft hright hkinds
  have hcontrary := contrary_answers op hordering hleft hright hkinds hguard id
  cases op <;> try exact absurd hordering (by decide)
  all_goals
    cases wrapped with
    | false => exact hplain
    | true => exact hcontrary

/-- The truth of a match, if the value is null or a text. -/
theorem truth?_like (op : Operator) (h : op.isPattern = true) (needle : String)
    (hleft : left.value? row = some a) (htext : a.isNull = true ∨ a.asString?.isSome = true) :
    (Expr.like (.call "LOWER" [left]) (likePattern op needle)).truth? row =
      some (if a.isNull then .unknown else .ofBool (op.finds needle a)) := by
  have hlowered : (Expr.call "LOWER" [left]).value? row = lower? a := by
    simp only [Expr.value?, hleft, Option.bind_some]
  simp only [Expr.truth?, hlowered]
  rcases htext with hnull | hstring
  · rw [(isNull_iff a).mp hnull]
    rfl
  · cases a with
    | string s => exact like?_lower op h needle s
    | _ => exact absurd hstring Bool.false_ne_true

/-- A pattern is guarded in either polarity. -/
theorem patternTest_answers (op : Operator) (h : op.isPattern = true) (negated : Bool)
    (needle : String) (hleft : left.value? row = some a)
    (htext : a.isNull = true ∨ a.asString?.isSome = true) :
    Answers row (patternTest ⟨op, negated⟩ left needle)
      ((patternTruth op (.string needle) a).passes negated) := by
  have hguard := isNotNull_answers hleft
  have hlike := truth?_like op h needle hleft htext
  -- `NOT LIKE` has the contrary truth value, so it is unknown on null as `LIKE` is.
  have hnotLike : (Expr.notLike (.call "LOWER" [left]) (likePattern op needle)).truth? row =
      some (if a.isNull then Truth.unknown else .ofBool (op.finds needle a)).swap := by
    simp only [Expr.truth?] at hlike ⊢
    rw [hlike]
    rfl
  rw [passes_patternTruth]
  by_cases hnull : a.isNull = true
  · -- The guard is false, whatever is made of the pattern.
    rw [hnull, Bool.not_true] at hguard
    rw [hnull, Bool.not_true, Bool.false_and]
    cases negated with
    | false =>
        have hand := answers_and hguard ⟨_, hlike, rfl⟩
        rw [Bool.false_and] at hand
        exact hand
    | true =>
        have hand := answers_and hguard ⟨_, hnotLike, rfl⟩
        rw [Bool.false_and] at hand
        exact hand
  · rw [if_neg hnull] at hlike hnotLike
    cases negated with
    | false =>
        rw [Bool.bne_false]
        exact answers_and hguard (answers_ofBool hlike)
    | true =>
        rw [Bool.bne_true]
        exact answers_and hguard (answers_swap hnotLike)

end Forms

/-- The column of a path has the value that the record has at the path. -/
theorem column_value (schema : Schema) (root path : String)
    (hresolves : ∃ resolved, schema.resolve root path = .ok resolved) :
    ∃ e, column schema root path = .ok e ∧
      ∀ (row : Row) (record : Record) (paths : List String),
        row.Represents schema root record paths → path ∈ paths →
          e.value? row = some (record.lookup path) := by
  rcases hresolves with ⟨resolved, hresolved⟩
  refine ⟨.column resolved.tableAlias resolved.column, ?_, ?_⟩
  · unfold column
    rw [hresolved]
    rfl
  · intro row record paths hrow hmem
    simp only [Expr.value?]
    rw [hrow path hmem resolved hresolved]

/-- A comparison compiles to an expression, and on every row the expression answers as
    the test that the flag asks for. -/
theorem leafTest_answers (schema : Schema) (root : String) (leaf : SimpleCondition)
    (ctx : WalkContext) (h : Readable schema root leaf) :
    ∃ e, leafTest schema root leaf ctx = .ok e ∧
      ∀ (clock : Clock) (row : Row) (record : Record),
        row.Represents schema root record (leafPaths leaf) →
        leaf.Comparable (leaf.left.valueOn clock (.single record)) record.lookup →
        Answers row e ((leaf.truthOn clock (.single record)).passes ctx.negated) := by
  rcases h with ⟨hshape, hbare, hfinite, hresolves⟩
  rcases leaf with ⟨left, op, value⟩
  cases left with
  | call function arguments label => exact absurd hbare Bool.false_ne_true
  | property path label =>
      have hmem : path ∈ leafPaths ⟨.property path label, op, value⟩ := by
        simp only [leafPaths, Expression.paths, List.cons_append, List.mem_cons, true_or]
      rcases column_value schema root path (hresolves path hmem) with ⟨left, hleft, hvalue⟩
      -- The left side is the same column in all forms; they differ in the test made of it.
      simp only [leafTest, ofExpression, hleft, ok_bind, SimpleCondition.truthOn,
        SimpleCondition.truth, Expression.valueOn_property, SimpleCondition.Comparable,
        SimpleCondition.isFinite] at hshape hfinite ⊢
      cases hshape with
      | nullTest h =>
          refine ⟨_, rfl, ?_⟩
          intro clock row record hrow _
          exact nullTest_answers op h ctx.negated (hvalue row record _ hrow hmem)
      | listTest h items =>
          refine ⟨_, rfl, ?_⟩
          intro clock row record hrow hkinds
          exact listTest_answers op h ctx.negated items hfinite
            (hvalue row record _ hrow hmem) hkinds
      | pattern h text =>
          rw [polarity_pattern op h]
          simp only [h, if_true, Literal.asString?]
          refine ⟨_, rfl, ?_⟩
          intro clock row record hrow htext
          exact patternTest_answers op h ctx.negated text (hvalue row record _ hrow hmem) htext
      | scalar h literal =>
          simp only [polarity_not_pattern op h, not_pattern_of_takesField op h,
            Bool.false_eq_true, if_false]
          refine ⟨_, rfl, ?_⟩
          intro clock row record hrow hkinds
          exact scalarTest_answers op h ctx.negated literal hfinite
            (hvalue row record _ hrow hmem) hkinds
      | field h other =>
          have hother : other ∈ leafPaths ⟨.property path label, op, some (.field other)⟩ := by
            simp only [leafPaths, List.mem_append, List.mem_singleton, or_true]
          rcases column_value schema root other (hresolves other hother) with
            ⟨right, hright, hvalueRight⟩
          simp only [hright, ok_bind]
          refine ⟨_, rfl, ?_⟩
          intro clock row record hrow hkinds
          exact fieldTest_answers op h ctx.negated (hvalue row record _ hrow hmem)
            (hvalueRight row record _ hrow hother) hkinds

/-- A conjunction from left to right, which the induction is on. -/
theorem foldl_and_answers (row : Row) (parts : List Expr) (answers : List Bool)
    (h : List.Forall₂ (Answers row) parts answers) :
    ∀ (first : Expr) (answer : Bool), Answers row first answer →
      Answers row (parts.foldl .and first) (answer && answers.all id) := by
  induction h with
  | nil =>
      intro first answer hfirst
      rw [List.foldl_nil, List.all_nil, Bool.and_true]
      exact hfirst
  | cons hpart _ ih =>
      intro first answer hfirst
      rw [List.foldl_cons, List.all_cons, id, ← Bool.and_assoc]
      exact ih _ _ (answers_and hfirst hpart)

/-- A disjunction from left to right. -/
theorem foldl_or_answers (row : Row) (parts : List Expr) (answers : List Bool)
    (h : List.Forall₂ (Answers row) parts answers) :
    ∀ (first : Expr) (answer : Bool), Answers row first answer →
      Answers row (parts.foldl .or first) (answer || answers.any id) := by
  induction h with
  | nil =>
      intro first answer hfirst
      rw [List.foldl_nil, List.any_nil, Bool.or_false]
      exact hfirst
  | cons hpart _ ih =>
      intro first answer hfirst
      rw [List.foldl_cons, List.any_cons, id, ← Bool.or_assoc]
      exact ih _ _ (answers_or hfirst hpart)

/-- Conditions under a connective answer as the connective does on their answers. -/
theorem combine_answers (row : Row) (connective : Connective) (parts : List Expr)
    (answers : List Bool) (h : List.Forall₂ (Answers row) parts answers) (hne : parts ≠ []) :
    Answers row (combine connective parts) (connective.join answers) := by
  cases h with
  | nil => exact absurd rfl hne
  | cons hfirst hrest =>
      rename_i first answer rest others
      cases connective with
      | and =>
          simp only [combine, Connective.join, List.all_cons, id]
          exact foldl_and_answers row rest others hrest first answer hfirst
      | or =>
          simp only [combine, Connective.join, List.any_cons, id]
          exact foldl_or_answers row rest others hrest first answer hfirst

/-- Without customizers the condition of a statement is the filter of the parts of the query. -/
theorem compileParts_filter (schema : Schema) (root : String) (parts : QueryParts)
    (compiled : Compiled)
    (h : compileParts schema root (parts.withCustomizers []) = .ok compiled) :
    (interpretation schema root).filter parts.filter schema.maxDepth =
      .ok compiled.statement.filter := by
  unfold compileParts at h
  -- Every step before the statement succeeds, and the fourth is the one that is asked about.
  rcases bind_eq_ok.mp h with ⟨plan, _, h⟩
  rcases bind_eq_ok.mp h with ⟨projection, _, h⟩
  rcases bind_eq_ok.mp h with ⟨items, _, h⟩
  rcases bind_eq_ok.mp h with ⟨filter, hfilter, h⟩
  rcases bind_eq_ok.mp h with ⟨groupBy, _, h⟩
  rcases bind_eq_ok.mp h with ⟨having, _, h⟩
  rcases bind_eq_ok.mp h with ⟨sorts, _, h⟩
  rw [← Except.ok.inj h]
  exact hfilter

/-- The condition of a statement, before customizers adjust it, is the filter of the prepared
    query. -/
theorem compileQuery_filter (schema : Schema) (root : String) (q p : Query) (c : Condition)
    (hprepare : q.prepare = .ok p) (hfilter : p.filter = some c) (hne : c.isEmpty = false)
    (compiled : Compiled) (h : compileQuery schema root q = .ok compiled) :
    ∃ bare,
      compileParts schema root ((QueryParts.ofQuery p).withCustomizers []) = .ok bare ∧
      bare.customize (matchingCustomizers Payload.asStatementAdjustment? p.customizers) =
        compiled ∧
      (interpretation schema root).filter (some c) schema.maxDepth =
        .ok bare.statement.filter := by
  unfold compileQuery at h
  rw [hprepare, ok_bind] at h
  have hparts : (QueryParts.ofQuery p).filter = some c := by
    simp only [QueryParts.ofQuery, hfilter, effectiveCondition, Option.filter, hne, Bool.not_false,
      if_true]
  rcases (compileParts_customized schema root).of_ok h with ⟨bare, hbare, hcustomized⟩
  refine ⟨bare, hbare, hcustomized, ?_⟩
  rw [← hparts]
  exact compileParts_filter schema root _ bare hbare

/-- A prepared condition over bare properties compiles to one expression in SQL and to one
    test in memory. The expression is the condition of the statement that customizers are
    handed, and of the statement itself if there are none. On every row that has the values
    of a record, and on which no values of different kinds are compared, the expression has a
    truth value, and it is true exactly when the record passes the test. -/
theorem where_agrees_with_memory (schema : Schema) (root : String) (clock : Clock)
    (maxDepth : Nat) (q p : Query) (c : Condition) (hprepare : q.prepare = .ok p)
    (hfilter : p.filter = some c) (hvalid : c.Valid) (hnative : c.nativeFree = true)
    (hne : c.isEmpty = false)
    (hbare : ∀ leaf ∈ c.leaves, leaf.left.path?.isSome = true)
    (hfinite : ∀ leaf ∈ c.leaves, leaf.isFinite = true)
    (hresolves : ∀ leaf ∈ c.leaves, ∀ path ∈ leafPaths leaf,
      ∃ resolved, schema.resolve root path = .ok resolved)
    (hschema : c.height ≤ schema.maxDepth) (hmemory : c.height ≤ maxDepth) :
    ∃ e test,
      (interpretation schema root).filter (some c) schema.maxDepth = .ok (some e) ∧
      (rowInterpretation clock).filter (some c) maxDepth = .ok (some test) ∧
      (∀ compiled, compileQuery schema root q = .ok compiled →
        ∃ bare,
          compileParts schema root ((QueryParts.ofQuery p).withCustomizers []) = .ok bare ∧
          bare.customize (matchingCustomizers Payload.asStatementAdjustment? p.customizers) =
            compiled ∧
          bare.statement.filter = some e) ∧
      ∀ (row : Row) (record : Record),
        (∀ leaf ∈ c.leaves, row.Represents schema root record (leafPaths leaf)) →
        (∀ leaf ∈ c.leaves,
          leaf.Comparable (leaf.left.valueOn clock (.single record)) record.lookup) →
        ∃ value, e.truth? row = some value ∧
          (value = .yes ↔ test (.single record) = true) := by
  have hprepared := prepared_of_prepare q p c hprepare hfilter hvalid
  have hreadable : ∀ leaf ∈ c.leaves, Readable schema root leaf := fun leaf hmem =>
    ⟨(hprepared leaf hmem).2, hbare leaf hmem, hfinite leaf hmem, hresolves leaf hmem⟩
  -- An environment is a row with the record whose values it has.
  have hsimple : ∀ leaf ctx, Readable schema root leaf →
      ∃ e, (interpretation schema root).simple leaf ctx = .ok e ∧
        ∀ env : Row × Record,
          (env.1.Represents schema root env.2 (leafPaths leaf) ∧
            leaf.Comparable (leaf.left.valueOn clock (.single env.2)) env.2.lookup) →
          Answers env.1 e ((leaf.truthOn clock (.single env.2)).passes ctx.negated) := by
    intro leaf ctx hleaf
    rcases leafTest_answers schema root leaf ctx hleaf with ⟨e, he, hanswers⟩
    exact ⟨e, he, fun env h => hanswers clock env.1 env.2 h.1 h.2⟩
  rcases Interpretation.filter_answers_each hsimple
    (fun env => combine_answers env.1) c schema.maxDepth hnative hne hreadable hschema with
    ⟨e, he, hanswers⟩
  rcases rowFilter_answers clock maxDepth c hnative hne hprepared hmemory with
    ⟨test, htest, hmeaning⟩
  refine ⟨e, test, he, htest, ?_, ?_⟩
  · intro compiled hcompiled
    rcases compileQuery_filter schema root q p c hprepare hfilter hne compiled hcompiled with
      ⟨bare, hbare, hcustomized, hstatement⟩
    rw [he] at hstatement
    exact ⟨bare, hbare, hcustomized, (Except.ok.inj hstatement).symm⟩
  · intro row record hrow hkinds
    rcases hanswers (row, record) (fun leaf hmem => ⟨hrow leaf hmem, hkinds leaf hmem⟩) with
      ⟨value, hvalue, hpasses⟩
    refine ⟨value, hvalue, ?_⟩
    rw [← Truth.passes_false, hpasses, hmeaning (.single record)]
    rfl

/-- A path of one segment is a column of the root. -/
theorem resolve_plain (schema : Schema) (root path : String) (h : Text.dotted path = [path]) :
    schema.resolve root path = .ok ⟨[], schema.tableName root, path⟩ := by
  unfold Schema.resolve
  rw [h]
  rfl

/-- A row and a record without an age and a team. -/
theorem where_agrees_with_memory_sample :
    ∃ e test,
      (interpretation .default "Person").filter (some sampleCondition) 256 = .ok (some e) ∧
      (rowInterpretation ⟨"", "", ""⟩).filter (some sampleCondition) 256 = .ok (some test) ∧
      ∃ value,
        e.truth? (fun _ => Record.lookup [("nick", .string "Bo"), ("name", .string "Bob")]) =
          some value ∧
        (value = .yes ↔
          test (.single [("nick", .string "Bo"), ("name", .string "Bob")]) = true) := by
  have hplain : ∀ leaf ∈ sampleCondition.leaves, ∀ path ∈ leafPaths leaf,
      Text.dotted path = [path] := by decide
  rcases where_agrees_with_memory .default "Person" ⟨"", "", ""⟩ 256
    { filter := some sampleCondition } { filter := some sampleCondition } sampleCondition rfl rfl
    sampleCondition_valid rfl rfl (by decide) (by decide)
    (fun leaf hmem path hpath => ⟨_, resolve_plain _ _ _ (hplain leaf hmem path hpath)⟩)
    (by decide) (by decide) with ⟨e, test, he, htest, _, h⟩
  refine ⟨e, test, he, htest, h _ _ ?_ (by decide)⟩
  intro leaf hmem path hpath resolved hresolved
  rw [resolve_plain _ _ _ (hplain leaf hmem path hpath)] at hresolved
  rw [← Except.ok.inj hresolved]

end Polyquery.Sql
