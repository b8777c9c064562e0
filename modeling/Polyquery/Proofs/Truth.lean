import Polyquery.Condition.Walk

/-!
# Three-Valued Logic

The truth values of a comparison that can have no answer. Null makes an
ordering or a pattern neither true nor false, and what is neither stays
neither when it is turned around; this is what two truth values cannot say,
and why a backend that only ever answers yes or no has to push negations down
to the comparisons.

The three values are in a row, `no`, `unknown`, `yes`. A conjunction has the
least of its values, a disjunction the greatest, and a negation swaps the
ends of the row.

`Truth.passes` is the bridge to tests, which have two answers. A test for a
condition passes on `yes`, and a test for its contrary passes on `no`; on
`unknown` neither does. `passes_value` says that the flag the walk carries is
enough to tell both tests of a connective from the tests of its parts: under
the flag the least value is found by the other connective.

## Main definitions

* `Truth`: The three values, with `Truth.rank` as their order.
* `Truth.min`, `Truth.max`, `Truth.swap`: Conjunction, disjunction, negation.
* `Truth.least`, `Truth.greatest`: The same for lists of values.
* `Truth.passes`: Whether a test under the flag passes on a value.
* `Connective.value`, `Connective.join`: A connective on truth values and on
  answers of tests.

## Theorems

* `Truth.passes_swap`: The test for the contrary of a value.
* `Truth.passes_ofBool`: The tests on a value that is an answer.
* `Truth.passes_value`: The tests on a connective are those on its parts.
-/

namespace Polyquery

/-- A truth value. -/
inductive Truth where
  | no
  | unknown
  | yes
  deriving Repr, DecidableEq

namespace Truth

/-- The place of a value in the row. -/
def rank : Truth → Nat
  | no => 0
  | unknown => 1
  | yes => 2

/-- The value of an answer. -/
def ofBool : Bool → Truth
  | true => yes
  | false => no

/-- The lesser of two values. -/
def min (a b : Truth) : Truth :=
  if a.rank ≤ b.rank then a else b

/-- The greater of two values. -/
def max (a b : Truth) : Truth :=
  if a.rank ≤ b.rank then b else a

/-- The contrary of a value. -/
def swap : Truth → Truth
  | no => yes
  | unknown => unknown
  | yes => no

/-- The least of several values. -/
def least (values : List Truth) : Truth :=
  values.foldr min yes

/-- The greatest of several values. -/
def greatest (values : List Truth) : Truth :=
  values.foldr max no

/-- Whether a test passes on a value: the test for the condition itself, or under the
    flag the test for its contrary. -/
def passes (negated : Bool) (value : Truth) : Bool :=
  value == if negated then no else yes

theorem passes_false (value : Truth) : value.passes false = true ↔ value = yes := by
  simp only [passes, Bool.false_eq_true, if_false, beq_iff_eq]

theorem passes_true (value : Truth) : value.passes true = true ↔ value = no := by
  simp only [passes, if_true, beq_iff_eq]

/-- The test for the contrary of a value is the other test for the value. -/
theorem passes_swap (negated : Bool) (value : Truth) :
    value.swap.passes negated = value.passes (!negated) := by
  cases negated <;> cases value <;> rfl

/-- On a value that is an answer the two tests are contraries. -/
theorem passes_ofBool (negated answer : Bool) :
    (ofBool answer).passes negated = (answer != negated) := by
  cases negated <;> cases answer <;> rfl

/-- No test passes where there is no answer. -/
theorem passes_unknown (negated : Bool) : unknown.passes negated = false := by
  cases negated <;> rfl

/-- A value with an answer passes exactly one of the two tests. -/
theorem passes_not (value : Truth) (h : value ≠ unknown) :
    value.passes false = !value.passes true := by
  cases value with
  | no => rfl
  | unknown => exact absurd rfl h
  | yes => rfl

theorem passes_min (a b : Truth) :
    (min a b).passes false = (a.passes false && b.passes false) ∧
      (min a b).passes true = (a.passes true || b.passes true) := by
  cases a <;> cases b <;> exact ⟨rfl, rfl⟩

theorem passes_max (a b : Truth) :
    (max a b).passes false = (a.passes false || b.passes false) ∧
      (max a b).passes true = (a.passes true && b.passes true) := by
  cases a <;> cases b <;> exact ⟨rfl, rfl⟩

end Truth

/-- The truth value of a connective between values. -/
def Connective.value : Connective → List Truth → Truth
  | .and, values => Truth.least values
  | .or, values => Truth.greatest values

/-- The answer of a connective between the answers of tests. -/
def Connective.join : Connective → List Bool → Bool
  | .and, answers => answers.all id
  | .or, answers => answers.any id

theorem Connective.join_singleton (connective : Connective) (answer : Bool) :
    connective.join [answer] = answer := by
  cases connective with
  | and => simp only [join, List.all_cons, List.all_nil, Bool.and_true, id]
  | or => simp only [join, List.any_cons, List.any_nil, Bool.or_false, id]

namespace Truth

theorem passes_least (values : List Truth) :
    (least values).passes false = Connective.and.join (values.map (passes false)) ∧
      (least values).passes true = Connective.or.join (values.map (passes true)) := by
  induction values with
  | nil => exact ⟨rfl, rfl⟩
  | cons value rest ih =>
      rcases ih with ⟨hyes, hno⟩
      have hmin := passes_min value (least rest)
      simp only [Connective.join] at hyes hno
      simp only [Connective.join, List.map_cons, List.all_cons, List.any_cons, id]
      rw [← hyes, ← hno]
      exact hmin

theorem passes_greatest (values : List Truth) :
    (greatest values).passes false = Connective.or.join (values.map (passes false)) ∧
      (greatest values).passes true = Connective.and.join (values.map (passes true)) := by
  induction values with
  | nil => exact ⟨rfl, rfl⟩
  | cons value rest ih =>
      rcases ih with ⟨hyes, hno⟩
      have hmax := passes_max value (greatest rest)
      simp only [Connective.join] at hyes hno
      simp only [Connective.join, List.map_cons, List.all_cons, List.any_cons, id]
      rw [← hyes, ← hno]
      exact hmax

/-- The tests on a connective are those on its parts, joined by the connective that
    stands for it under the flag. This is the law of De Morgan for tests, and the only
    fact about truth values that the walk over a condition needs. -/
theorem passes_value (connective : Connective) (negated : Bool) (values : List Truth) :
    (connective.value values).passes negated =
      (connective.under negated).join (values.map (passes negated)) := by
  cases connective with
  | and =>
      cases negated with
      | false => exact (passes_least values).1
      | true => exact (passes_least values).2
  | or =>
      cases negated with
      | false => exact (passes_greatest values).1
      | true => exact (passes_greatest values).2

end Truth

end Polyquery
