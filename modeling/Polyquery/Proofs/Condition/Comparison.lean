import Polyquery.Literal
import Polyquery.Memory.Order
import Polyquery.Proofs.Condition.Shape
import Polyquery.Proofs.Truth

/-!
# The Truth of a Comparison

What a comparison says of the values it compares, without reference to the way
in which any backend carries it out. The value of the left side and the values
of the properties of the record are given.

A comparison is `unknown` in two cases only: an ordering with null on either
side, and a pattern with null on the left. In every other case it has an
answer. Null is equal to nothing, so an equality with null is false and an
inequality is true; a membership test and its contrary are exact contraries,
null included. Values of different kinds are unequal and in no order, and a
pattern is false of what is no text. A floating-point constant that is not
finite has no value in the data format, where null stands for it.

Under the flag a backend has to test for the contrary. `Polarity.of` finds the
operator for this, and the lemmas on `passes` say for each form of comparison
what the operator it finds has to answer.

## Main definitions

* `Operator.outcomes`, `Operator.relates`: The orders in which an operator
  holds, and whether it holds of two values.
* `comparisonTruth`, `listTruth`, `nullTruth`, `patternTruth`: The forms.
* `SimpleCondition.truth`: The truth value of a comparison.
* `Comparable`, `SimpleCondition.Comparable`: The pairs of values that every
  backend can compare.
* `Json.arrayFree`: The values in which there is no array.
* `Literal.isFinite`, `SimpleCondition.isFinite`: The constants that have a
  value in the data format.

## Theorems

* `compareValues_null_left`, `compareValues_null_right`: Null is in no order.
* `relates_equals`: Equality is the order `eq`.
* `passes_ordering`, `passes_patternTruth`: The tests for an ordering and for a
  pattern, which keep null out under either flag.
* `truth_eq_unknown_iff`: The comparisons that are unknown.
* `complement_polarity`: The tests of a backend for an operator, from what it
  does with the operator and with its complement.
* `comparisonTruth_polarity`, `listTruth_polarity`, `nullTruth_polarity`: The
  same for the forms.
-/

namespace Polyquery

/-- The orders in which an operator holds of two values. -/
def Operator.outcomes : Operator → List Ordering
  | .greaterThan => [.gt]
  | .greaterThanEquals => [.gt, .eq]
  | .lesserThan => [.lt]
  | .lesserThanEquals => [.lt, .eq]
  | _ => [.eq]

/-- Whether an operator holds of two values. It holds of no values that are in no order. -/
def Operator.relates (op : Operator) (left right : Json) : Bool :=
  match compareValues left right with
  | some ordering => op.outcomes.contains ordering
  | none => false

/-- The truth of a null test. -/
def nullTruth (op : Operator) (left : Json) : Truth :=
  match op with
  | .isNull => .ofBool left.isNull
  | _ => .ofBool (!left.isNull)

/-- The truth of a membership test. -/
def listTruth (op : Operator) (items : List Literal) (left : Json) : Truth :=
  let listed := items.any fun item => Operator.equals.relates left item.toJson
  match op with
  | .isIn => .ofBool listed
  | _ => .ofBool (!listed)

/-- The truth of a plain comparison. -/
def comparisonTruth (op : Operator) (left right : Json) : Truth :=
  match op with
  | .equals => .ofBool (Operator.equals.relates left right)
  | .notEquals => .ofBool (!Operator.equals.relates left right)
  | op => if left.isNull || right.isNull then .unknown else .ofBool (op.relates left right)

/-- The truth of a pattern. The case of letters does not count. -/
def patternTruth (op : Operator) (literal : Literal) (left : Json) : Truth :=
  match left, literal with
  | .null, _ => .unknown
  | .string s, .string text =>
    .ofBool (op.matchesText (Text.lowerChars s.toList) (Text.lowerChars text.toList))
  | _, _ => .no

/-- The truth of a comparison, given the value of its left side and the values of
    properties. -/
def SimpleCondition.truth (leaf : SimpleCondition) (left : Json) (field : String → Json) :
    Truth :=
  match leaf.value with
  | none => nullTruth leaf.operator left
  | some (.list items) => listTruth leaf.operator items left
  | some (.scalar literal) =>
    if leaf.operator.isPattern then patternTruth leaf.operator literal left
    else comparisonTruth leaf.operator left literal.toJson
  | some (.field path) => comparisonTruth leaf.operator left (field path)

/-- The value of the right side of a comparison. A null test has none, and neither has a
    list as a whole. -/
def SimpleCondition.operand (leaf : SimpleCondition) (field : String → Json) : Json :=
  match leaf.value with
  | some (.scalar literal) => literal.toJson
  | some (.field path) => field path
  | _ => .null

/-- The other property that a comparison is made with. -/
def SimpleCondition.field? (leaf : SimpleCondition) : Option String :=
  match leaf.value with
  | some (.field path) => some path
  | _ => none

theorem isNull_iff (value : Json) : value.isNull = true ↔ value = .null := by
  cases value <;> simp only [Json.isNull, reduceCtorEq]

/-- Null is in no order with anything. -/
theorem compareValues_null_left (value : Json) : compareValues .null value = none := by
  cases value <;> rfl

/-- Nothing is in an order with null. -/
theorem compareValues_null_right (value : Json) : compareValues value .null = none := by
  cases value <;> rfl

theorem relates_null_left (op : Operator) (value : Json) : op.relates .null value = false := by
  unfold Operator.relates
  rw [compareValues_null_left]

theorem relates_null_right (op : Operator) (value : Json) : op.relates value .null = false := by
  unfold Operator.relates
  rw [compareValues_null_right]

/-- What an operator relates is present on both sides. -/
theorem relates_present (op : Operator) (left right : Json) :
    (!left.isNull && !right.isNull && op.relates left right) = op.relates left right := by
  by_cases hleft : left.isNull = true
  · rw [(isNull_iff left).mp hleft, relates_null_left, Bool.and_false]
  · by_cases hright : right.isNull = true
    · rw [(isNull_iff right).mp hright, relates_null_right, Bool.and_false]
    · rw [eq_false_of_ne_true hleft, eq_false_of_ne_true hright]
      rfl

theorem present_of_relates (op : Operator) (left right : Json)
    (h : op.relates left right = true) : (!left.isNull) = true ∧ (!right.isNull) = true := by
  have hpresent := relates_present op left right
  rw [h, Bool.and_true, Bool.and_eq_true] at hpresent
  exact hpresent

/-- Equality is the order `eq`. -/
theorem relates_equals (left right : Json) :
    Operator.equals.relates left right = equalValues left right := by
  unfold Operator.relates equalValues
  cases compareValues left right with
  | none => rfl
  | some ordering => cases ordering <;> rfl

/-- An ordering holds of values in the orders that it admits. -/
theorem compares_eq_relates (op : Operator) (left right : Json) :
    op.compares left right = op.relates left right := by
  unfold Operator.compares Operator.relates
  cases compareValues left right with
  | none => rfl
  | some ordering => cases op <;> cases ordering <;> rfl

/-- The operators that compare by an order other than equality. -/
def Operator.isOrdering : Operator → Bool
  | .greaterThan | .greaterThanEquals | .lesserThan | .lesserThanEquals => true
  | _ => false

/-- The truth of an ordering. -/
theorem comparisonTruth_ordering (op : Operator) (h : op.isOrdering = true)
    (left right : Json) :
    comparisonTruth op left right =
      if left.isNull || right.isNull then .unknown else .ofBool (op.relates left right) := by
  cases op <;> first | rfl | exact absurd h (by decide)

/-- The tests for an ordering. Neither passes where null takes part. -/
theorem passes_ordering (op : Operator) (h : op.isOrdering = true) (negated : Bool)
    (left right : Json) :
    (comparisonTruth op left right).passes negated =
      (!left.isNull && !right.isNull && (op.relates left right != negated)) := by
  rw [comparisonTruth_ordering op h]
  by_cases hnull : (left.isNull || right.isNull) = true
  · rw [if_pos hnull, Truth.passes_unknown]
    rw [← Bool.not_or, hnull]
    rfl
  · rw [if_neg hnull, Truth.passes_ofBool]
    rw [← Bool.not_or, eq_false_of_ne_true hnull]
    rfl

/-- A plain comparison is an equality, an inequality or an ordering. -/
theorem takesField_cases (op : Operator) (h : op.takesField = true) :
    op = .equals ∨ op = .notEquals ∨ op.isOrdering = true := by
  revert h
  cases op <;> decide

/-- A plain comparison is no pattern. -/
theorem not_pattern_of_takesField (op : Operator) (h : op.takesField = true) :
    op.isPattern = false := by
  revert h
  cases op <;> decide

/-- A plain comparison is no pattern under the flag either. -/
theorem polarity_not_pattern (op : Operator) (h : op.takesField = true) (negated : Bool) :
    (Polarity.of op negated).operator.isPattern = false := by
  revert h
  cases op <;> cases negated <;> decide

/-- Orderings stay as they are under the flag and are wrapped. -/
theorem polarity_ordering (op : Operator) (h : op.isOrdering = true) (negated : Bool) :
    Polarity.of op negated = ⟨op, negated⟩ := by
  cases op <;> first | exact absurd h (by decide) | cases negated <;> rfl

/-- So do patterns. -/
theorem polarity_pattern (op : Operator) (h : op.isPattern = true) (negated : Bool) :
    Polarity.of op negated = ⟨op, negated⟩ := by
  cases op <;> first | exact absurd h (by decide) | cases negated <;> rfl

/-- Whether a pattern is found in a value. It is in no value that is no text. -/
def Operator.finds (op : Operator) (text : String) : Json → Bool
  | .string s => op.matchesText (Text.lowerChars s.toList) (Text.lowerChars text.toList)
  | _ => false

/-- The tests for a pattern. Neither passes on null. -/
theorem passes_patternTruth (op : Operator) (text : String) (negated : Bool) (left : Json) :
    (patternTruth op (.string text) left).passes negated =
      (!left.isNull && (op.finds text left != negated)) := by
  cases left with
  | null => exact Truth.passes_unknown negated
  | string s => exact Truth.passes_ofBool negated _
  | bool b => exact Truth.passes_ofBool negated false
  | number n => exact Truth.passes_ofBool negated false
  | array items => exact Truth.passes_ofBool negated false
  | object members => exact Truth.passes_ofBool negated false

theorem ofBool_ne_unknown (answer : Bool) : Truth.ofBool answer ≠ .unknown := by
  cases answer <;> exact fun h => Truth.noConfusion h

/-- A plain comparison is unknown exactly when it is an ordering and null takes part. -/
theorem comparisonTruth_eq_unknown_iff (op : Operator) (h : op.takesField = true)
    (left right : Json) :
    comparisonTruth op left right = .unknown ↔
      op.isOrdering = true ∧ (left.isNull = true ∨ right.isNull = true) := by
  rcases takesField_cases op h with heq | hne | hordering
  · rw [heq]
    simp only [comparisonTruth, ofBool_ne_unknown, Operator.isOrdering, Bool.false_eq_true,
      false_and]
  · rw [hne]
    simp only [comparisonTruth, ofBool_ne_unknown, Operator.isOrdering, Bool.false_eq_true,
      false_and]
  · rw [comparisonTruth_ordering op hordering, ← Bool.or_eq_true]
    by_cases hnull : (left.isNull || right.isNull) = true
    · simp only [hnull, hordering, if_true, and_self]
    · simp only [hnull, Bool.false_eq_true, if_false, ofBool_ne_unknown, and_false]

/-- A pattern is unknown exactly when its left side is null. -/
theorem patternTruth_eq_unknown_iff (op : Operator) (text : String) (left : Json) :
    patternTruth op (.string text) left = .unknown ↔ left.isNull = true := by
  cases left <;>
    simp only [patternTruth, Json.isNull, ofBool_ne_unknown, reduceCtorEq, Bool.false_eq_true]

/-- A comparison of a prepared query is unknown exactly when it is an ordering with null
    on either side or a pattern with null on the left. -/
theorem truth_eq_unknown_iff (leaf : SimpleCondition) (h : Shape leaf.operator leaf.value)
    (left : Json) (field : String → Json) :
    leaf.truth left field = .unknown ↔
      (leaf.operator.isOrdering = true ∧
        (left.isNull = true ∨ (leaf.operand field).isNull = true)) ∨
      (leaf.operator.isPattern = true ∧ left.isNull = true) := by
  rcases leaf with ⟨e, op, value⟩
  simp only [SimpleCondition.truth, SimpleCondition.operand] at h ⊢
  -- Null tests and memberships always have an answer, so two of the forms say nothing.
  cases h with
  | nullTest h =>
      have hkind : op.isOrdering = false ∧ op.isPattern = false := by
        revert h
        cases op <;> decide
      have hne : nullTruth op left ≠ .unknown := by
        unfold nullTruth
        split <;> exact ofBool_ne_unknown _
      simp only [hkind, hne, Bool.false_eq_true, false_and, or_self]
  | listTest h items =>
      have hkind : op.isOrdering = false ∧ op.isPattern = false := by
        cases op <;> first | exact ⟨rfl, rfl⟩ | exact absurd h (by decide)
      have hne : listTruth op items left ≠ .unknown := by
        simp only [listTruth]
        split <;> exact ofBool_ne_unknown _
      simp only [hkind, hne, Bool.false_eq_true, false_and, or_self]
  | pattern h text =>
      have hordering : op.isOrdering = false := by
        cases op <;> first | rfl | exact absurd h (by decide)
      simp only [h, if_true, hordering, Bool.false_eq_true, false_and, false_or, true_and]
      exact patternTruth_eq_unknown_iff op text left
  | scalar h literal =>
      simp only [not_pattern_of_takesField op h, Bool.false_eq_true, if_false, false_and, or_false]
      exact comparisonTruth_eq_unknown_iff op h left literal.toJson
  | field h path =>
      simp only [not_pattern_of_takesField op h, Bool.false_eq_true, false_and, or_false]
      exact comparisonTruth_eq_unknown_iff op h left (field path)

/-- Whether two values are of one kind, and of a kind that has an order. -/
def Json.sameKind : Json → Json → Bool
  | .number _, .number _ => true
  | .string _, .string _ => true
  | .bool _, .bool _ => true
  | _, _ => false

namespace Json

mutual

/-- Whether no array is in a value. -/
def arrayFree : Json → Bool
  | .array _ => false
  | .object members => arrayFreeMembers members
  | _ => true

/-- Whether no array is in the values of members. -/
def arrayFreeMembers : List (String × Json) → Bool
  | [] => true
  | (_, value) :: rest => value.arrayFree && arrayFreeMembers rest

end

end Json

/-- Two values that every backend can compare: null takes part, or they are of one kind. -/
def Comparable (left right : Json) : Prop :=
  left.isNull = true ∨ right.isNull = true ∨ left.sameKind right = true

instance (left right : Json) : Decidable (Comparable left right) :=
  inferInstanceAs (Decidable (_ ∨ _ ∨ _))

/-- The two properties that a comparison is made of, if it is made of two, can be
    compared. -/
def SimpleCondition.FieldsComparable (leaf : SimpleCondition) (left : Json)
    (field : String → Json) : Prop :=
  ∀ path ∈ leaf.field?, Polyquery.Comparable left (field path)

instance (leaf : SimpleCondition) (left : Json) (field : String → Json) :
    Decidable (leaf.FieldsComparable left field) :=
  inferInstanceAs (Decidable (∀ path ∈ leaf.field?, _))

/-- Whether a constant has a value in the data format. -/
def Literal.isFinite : Literal → Bool
  | .float x => x.isFinite
  | _ => true

/-- Whether all constants of a comparison have values in the data format. -/
def SimpleCondition.isFinite (leaf : SimpleCondition) : Bool :=
  match leaf.value with
  | some (.scalar literal) => literal.isFinite
  | some (.list items) => items.all Literal.isFinite
  | _ => true

/-- The comparisons whose values every backend can compare. -/
def SimpleCondition.Comparable (leaf : SimpleCondition) (left : Json) (field : String → Json) :
    Prop :=
  match leaf.value with
  | none => True
  | some (.list items) => ∀ item ∈ items, Polyquery.Comparable left item.toJson
  | some (.scalar literal) =>
    if leaf.operator.isPattern then left.isNull = true ∨ left.asString?.isSome = true
    else Polyquery.Comparable left literal.toJson
  | some (.field path) => Polyquery.Comparable left (field path)

instance : (leaf : SimpleCondition) → (left : Json) → (field : String → Json) →
    Decidable (leaf.Comparable left field)
  | ⟨_, _, none⟩, _, _ => .isTrue trivial
  | ⟨_, _, some (.list items)⟩, left, _ =>
    inferInstanceAs (Decidable (∀ item ∈ items, Comparable left item.toJson))
  | ⟨_, op, some (.scalar literal)⟩, left, _ =>
    inferInstanceAs (Decidable (if op.isPattern then left.isNull = true ∨
      left.asString?.isSome = true else Comparable left literal.toJson))
  | ⟨_, _, some (.field path)⟩, left, field =>
    inferInstanceAs (Decidable (Comparable left (field path)))

/-- A constant that has a value in the data format is not null there. -/
theorem isNull_toJson (literal : Literal) (h : literal.isFinite = true) :
    literal.toJson.isNull = false := by
  cases literal with
  | string s => rfl
  | integer n => rfl
  | boolean b => rfl
  | float x =>
      simp only [Literal.isFinite] at h
      simp only [Literal.toJson, Json.ofFloat, h, if_true]
      rfl

/-- The tests for an operator that has a complement, in whatever way a backend carries
    them out. `P` says of the operator that the flag leads to what its test answers. -/
theorem complement_polarity {P : Polarity → Bool → Prop} (op other : Operator)
    (h : op.complement? = some other) (answer : Bool) (hself : P ⟨op, false⟩ answer)
    (hother : P ⟨other, false⟩ (!answer)) (negated : Bool) :
    P (Polarity.of op negated) ((Truth.ofBool answer).passes negated) := by
  rw [Truth.passes_ofBool]
  cases negated with
  | false =>
      rw [Bool.bne_false]
      exact hself
  | true =>
      rw [Bool.bne_true]
      unfold Polarity.of
      rw [h]
      exact hother

/-- The tests for a plain comparison: an equality and an inequality are each the contrary
    of the other, and an ordering is wrapped. -/
theorem comparisonTruth_polarity {P : Polarity → Bool → Prop} (left right : Json)
    (hequal : P ⟨.equals, false⟩ (Operator.equals.relates left right))
    (hunequal : P ⟨.notEquals, false⟩ (!Operator.equals.relates left right))
    (hordering : ∀ op : Operator, op.isOrdering = true → ∀ wrapped,
      P ⟨op, wrapped⟩ ((comparisonTruth op left right).passes wrapped))
    (op : Operator) (h : op.takesField = true) (negated : Bool) :
    P (Polarity.of op negated) ((comparisonTruth op left right).passes negated) := by
  rcases takesField_cases op h with heq | hne | hord
  · rw [heq]
    exact complement_polarity .equals .notEquals rfl _ hequal hunequal negated
  · rw [← Bool.not_not (Operator.equals.relates left right)] at hequal
    rw [hne]
    exact complement_polarity .notEquals .equals rfl _ hunequal hequal negated
  · rw [polarity_ordering op hord]
    exact hordering op hord negated

/-- The tests for a membership test. -/
theorem listTruth_polarity {P : Polarity → Bool → Prop} (items : List Literal) (left : Json)
    (hmember : P ⟨.isIn, false⟩ (items.any fun item => Operator.equals.relates left item.toJson))
    (hcontrary : P ⟨.notIn, false⟩
      (!items.any fun item => Operator.equals.relates left item.toJson))
    (op : Operator) (h : op.takesList = true) (negated : Bool) :
    P (Polarity.of op negated) ((listTruth op items left).passes negated) := by
  cases op <;> try exact absurd h (by decide)
  case isIn => exact complement_polarity .isIn .notIn rfl _ hmember hcontrary negated
  case notIn =>
    rw [← Bool.not_not (items.any _)] at hmember
    exact complement_polarity .notIn .isIn rfl _ hcontrary hmember negated

/-- The tests for a null test. -/
theorem nullTruth_polarity {P : Polarity → Bool → Prop} (left : Json)
    (hnull : P ⟨.isNull, false⟩ left.isNull) (hpresent : P ⟨.isNotNull, false⟩ (!left.isNull))
    (op : Operator) (h : op.valueCount = 0) (negated : Bool) :
    P (Polarity.of op negated) ((nullTruth op left).passes negated) := by
  cases op <;> try exact absurd h (by decide)
  case isNull => exact complement_polarity .isNull .isNotNull rfl _ hnull hpresent negated
  case isNotNull =>
    rw [← Bool.not_not left.isNull] at hnull
    exact complement_polarity .isNotNull .isNull rfl _ hpresent hnull negated

end Polyquery
