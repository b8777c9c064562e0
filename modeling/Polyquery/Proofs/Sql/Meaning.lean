import Polyquery.Proofs.Memory.Kleene
import Polyquery.Proofs.Sql.Like
import Polyquery.Sql.Select

/-!
# The Meaning of Conditions in SQL

SQL has three truth values of its own. A comparison with null is unknown
there, the logical operators are those of three-valued logic, and a statement
returns the rows on which its condition is true; rows on which it is false and
rows on which it is unknown are both left out. This module reads the
expressions that conditions are compiled to in that logic, and shows that the
rows left in are those whose records pass the test of the memory backend.

The two logics do not agree value by value. On null, an equality is false for
a record, and unknown in SQL unless a guard makes it false; and under a
negation only the guard keeps the two apart. What agrees is the answer to one
question, whether the expression is true. `Answers` states it for an expression
and is all that is carried through the connectives. It is enough because
negation never stands above a connective in what is compiled: the only `NOT`
is in front of a single ordering, where `notCompare_answers` deals with it.

SQL does not compare values of different kinds, and has no constants that are
not finite numbers. An expression in which that happens has no truth value
here, and the comparisons that are looked at are those in which it does not.

## Main definitions

* `Sql.Row`: The values of columns.
* `Sql.Expr.value?`, `Sql.Expr.truth?`: The readings of an expression.
* `Sql.Answers`: Whether an expression is true on a row.

## Theorems

* `answers_and`, `answers_or`: The logical operators.
* `truth?_compare`: The truth of a comparison of values of one kind.
* `compare_answers`, `notCompare_answers`: Comparisons and their contraries.
* `holds_equal`, `holds_notEqual`, `comparison_ordering`: What comparisons hold of.
* `listed?_null`, `listed?_present`, `like?_lower`: Memberships and matches.
-/

namespace Polyquery.Sql

/-- A row of the joined tables: the value of each column, by the alias of its table and
    its name. A column without a value is null. -/
abbrev Row := String → String → Json

/-- The lower case of a value. Only texts have one. -/
def lower? : Json → Option Json
  | .null => some .null
  | .string s => some (.string (Text.toLower s))
  | _ => none

/-- The value of a constant. -/
def constant? (literal : Literal) : Option Json :=
  if literal.isFinite then some literal.toJson else none

/-- The value of an operand. -/
def Expr.value? (row : Row) : Expr → Option Json
  | .column table name => some (row table name)
  | .value literal => constant? literal
  | .keyword .null => some .null
  | .call "LOWER" [operand] => (operand.value? row).bind lower?
  | _ => none

/-- Whether a comparison holds of values in an order, if they have one. -/
def Comparison.holds : Comparison → Option Ordering → Bool
  | .equal, ordering => ordering == some .eq
  | .notEqual, ordering => ordering != some .eq
  | .less, ordering => ordering == some .lt
  | .lessEqual, ordering => ordering == some .lt || ordering == some .eq
  | .greater, ordering => ordering == some .gt
  | .greaterEqual, ordering => ordering == some .gt || ordering == some .eq

/-- The truth of a comparison of two values. -/
def Comparison.truth? (comparison : Comparison) (left right : Json) : Option Truth :=
  if left.isNull || right.isNull then some .unknown
  else if left.sameKind right then some (.ofBool (comparison.holds (compareValues left right)))
  else none

/-- The truth of a membership: the value equals one of the listed values. A list without
    values has no member. -/
def listed? (left : Json) : List Literal → Option Truth
  | [] => some .no
  | literal :: rest => do
    let right ← constant? literal
    let first ← Comparison.equal.truth? left right
    let others ← listed? left rest
    return first.max others

/-- The truth of a match. -/
def like? (pattern : String) : Json → Option Truth
  | .null => some .unknown
  | .string s => some (.ofBool (likeMatches pattern.toList s.toList))
  | _ => none

/-- The truth of a condition. -/
def Expr.truth? (row : Row) : Expr → Option Truth
  | .value (.boolean b) => some (.ofBool b)
  | .compare comparison left right => do
    let a ← left.value? row
    let b ← right.value? row
    comparison.truth? a b
  | .isNull operand => (operand.value? row).map fun a => .ofBool a.isNull
  | .isNotNull operand => (operand.value? row).map fun a => .ofBool (!a.isNull)
  | .isIn operand values => (operand.value? row).bind fun a => listed? a values
  | .notIn operand values =>
    ((operand.value? row).bind fun a => listed? a values).map Truth.swap
  | .like operand pattern => (operand.value? row).bind (like? pattern)
  | .notLike operand pattern => ((operand.value? row).bind (like? pattern)).map Truth.swap
  | .and left right => do
    let a ← left.truth? row
    let b ← right.truth? row
    return a.min b
  | .or left right => do
    let a ← left.truth? row
    let b ← right.truth? row
    return a.max b
  | .not operand => (operand.truth? row).map Truth.swap
  | _ => none

/-- Whether an expression is true on a row. An expression without a truth value answers
    nothing. -/
def Answers (row : Row) (e : Expr) (answer : Bool) : Prop :=
  ∃ value, e.truth? row = some value ∧ value.passes false = answer

section Operators

variable {row : Row} {e f left right : Expr} {a b : Json}

/-- An expression with a truth value that is an answer has that answer. -/
theorem answers_ofBool {answer : Bool} (h : e.truth? row = some (.ofBool answer)) :
    Answers row e answer := by
  refine ⟨.ofBool answer, h, ?_⟩
  rw [Truth.passes_ofBool, Bool.bne_false]

/-- An expression with the contrary of an answer has the other answer. -/
theorem answers_swap {answer : Bool} (h : e.truth? row = some (Truth.ofBool answer).swap) :
    Answers row e (!answer) := by
  refine ⟨(Truth.ofBool answer).swap, h, ?_⟩
  rw [Truth.passes_swap, Truth.passes_ofBool, Bool.not_false, Bool.bne_true]

theorem answers_and {x y : Bool} (he : Answers row e x) (hf : Answers row f y) :
    Answers row (.and e f) (x && y) := by
  rcases he with ⟨v, hv, hx⟩
  rcases hf with ⟨w, hw, hy⟩
  refine ⟨v.min w, ?_, ?_⟩
  · simp only [Expr.truth?, hv, hw]
    rfl
  · rw [(Truth.passes_min v w).1, hx, hy]

theorem answers_or {x y : Bool} (he : Answers row e x) (hf : Answers row f y) :
    Answers row (.or e f) (x || y) := by
  rcases he with ⟨v, hv, hx⟩
  rcases hf with ⟨w, hw, hy⟩
  refine ⟨v.max w, ?_, ?_⟩
  · simp only [Expr.truth?, hv, hw]
    rfl
  · rw [(Truth.passes_max v w).1, hx, hy]

theorem isNull_answers (hleft : left.value? row = some a) :
    Answers row (.isNull left) a.isNull := by
  apply answers_ofBool
  simp only [Expr.truth?, hleft, Option.map_some]

theorem isNotNull_answers (hleft : left.value? row = some a) :
    Answers row (.isNotNull left) (!a.isNull) := by
  apply answers_ofBool
  simp only [Expr.truth?, hleft, Option.map_some]

/-- Values that can be compared make a comparison unknown or give it an answer. -/
theorem truth?_of_comparable (comparison : Comparison) (hkinds : Comparable a b) :
    comparison.truth? a b =
      some (if a.isNull || b.isNull then .unknown
        else .ofBool (comparison.holds (compareValues a b))) := by
  unfold Comparison.truth?
  by_cases hnull : (a.isNull || b.isNull) = true
  · rw [if_pos hnull, if_pos hnull]
  · have hsame : a.sameKind b = true := by
      rw [Bool.or_eq_true, not_or] at hnull
      rcases hkinds with ha | hb | hsame
      · exact absurd ha hnull.1
      · exact absurd hb hnull.2
      · exact hsame
    rw [if_neg hnull, if_neg hnull, if_pos hsame]

theorem truth?_compare (comparison : Comparison) (hleft : left.value? row = some a)
    (hright : right.value? row = some b) (hkinds : Comparable a b) :
    (Expr.compare comparison left right).truth? row =
      some (if a.isNull || b.isNull then .unknown
        else .ofBool (comparison.holds (compareValues a b))) := by
  simp only [Expr.truth?, hleft, hright, Option.bind_eq_bind, Option.bind_some]
  exact truth?_of_comparable comparison hkinds

/-- A comparison is true of no null. -/
theorem compare_answers (comparison : Comparison) (hleft : left.value? row = some a)
    (hright : right.value? row = some b) (hkinds : Comparable a b) :
    Answers row (.compare comparison left right)
      (!a.isNull && !b.isNull && comparison.holds (compareValues a b)) := by
  refine ⟨_, truth?_compare comparison hleft hright hkinds, ?_⟩
  rw [← Bool.not_or]
  cases a.isNull || b.isNull with
  | true => rfl
  | false =>
      simp only [Bool.false_eq_true, if_false]
      rw [Truth.passes_ofBool, Bool.bne_false]
      rfl

/-- The contrary of a comparison is true of no null either. -/
theorem notCompare_answers (comparison : Comparison) (hleft : left.value? row = some a)
    (hright : right.value? row = some b) (hkinds : Comparable a b) :
    Answers row (.not (.compare comparison left right))
      (!a.isNull && !b.isNull && !comparison.holds (compareValues a b)) := by
  refine ⟨(if a.isNull || b.isNull then Truth.unknown
    else .ofBool (comparison.holds (compareValues a b))).swap, ?_, ?_⟩
  · rw [Expr.truth?, truth?_compare comparison hleft hright hkinds]
    rfl
  · rw [Truth.passes_swap, ← Bool.not_or]
    cases a.isNull || b.isNull with
    | true => rfl
    | false =>
        simp only [Bool.false_eq_true, if_false]
        rw [Truth.passes_ofBool]
        cases comparison.holds (compareValues a b) <;> rfl

/-- An equality is one of the comparisons. -/
theorem holds_equal (a b : Json) :
    Comparison.equal.holds (compareValues a b) = Operator.equals.relates a b :=
  (relates_equals a b).symm

theorem holds_notEqual (a b : Json) :
    Comparison.notEqual.holds (compareValues a b) = !Operator.equals.relates a b := by
  rw [relates_equals]
  rfl

/-- Every ordering is one of the comparisons. -/
theorem comparison_ordering (op : Operator) (h : op.isOrdering = true) :
    ∃ sign : Comparison, (∀ left right, comparison op left right = .compare sign left right) ∧
      ∀ a b, sign.holds (compareValues a b) = op.relates a b := by
  -- A sign that holds for the outcomes of the operator holds when the values are so related.
  have hrelates : ∀ sign : Comparison,
      (∀ ordering, sign.holds (some ordering) = op.outcomes.contains ordering) →
      sign.holds none = false →
      ∀ a b, sign.holds (compareValues a b) = op.relates a b := by
    intro sign hsome hnone a b
    unfold Operator.relates
    cases compareValues a b with
    | none => exact hnone
    | some ordering => exact hsome ordering
  cases op with
  | greaterThan =>
      exact ⟨.greater, fun _ _ => rfl, hrelates _ (fun o => by cases o <;> rfl) rfl⟩
  | greaterThanEquals =>
      exact ⟨.greaterEqual, fun _ _ => rfl, hrelates _ (fun o => by cases o <;> rfl) rfl⟩
  | lesserThan =>
      exact ⟨.less, fun _ _ => rfl, hrelates _ (fun o => by cases o <;> rfl) rfl⟩
  | lesserThanEquals =>
      exact ⟨.lessEqual, fun _ _ => rfl, hrelates _ (fun o => by cases o <;> rfl) rfl⟩
  | _ => exact absurd h (by decide)

end Operators

/-- A constant that is a finite number, a text or a truth value has its value. -/
theorem constant?_of_finite (literal : Literal) (h : literal.isFinite = true) :
    constant? literal = some literal.toJson := by
  unfold constant?
  rw [if_pos h]

/-- A membership of null is not true: it is unknown, or false of a list without values. -/
theorem listed?_null (items : List Literal) (hfinite : items.all Literal.isFinite = true) :
    ∃ value, listed? .null items = some value ∧ value ≠ .yes := by
  induction items with
  | nil => exact ⟨.no, rfl, fun h => Truth.noConfusion h⟩
  | cons item rest ih =>
      rw [List.all_cons, Bool.and_eq_true] at hfinite
      rcases ih hfinite.2 with ⟨value, hvalue, hne⟩
      refine ⟨Truth.unknown.max value, ?_, ?_⟩
      · unfold listed?
        rw [constant?_of_finite item hfinite.1, hvalue]
        rfl
      · revert hne
        cases value <;> decide

/-- A membership of a value that is present has an answer. -/
theorem listed?_present (left : Json) (hleft : left.isNull = false) (items : List Literal)
    (hfinite : items.all Literal.isFinite = true)
    (hkinds : ∀ item ∈ items, Comparable left item.toJson) :
    listed? left items =
      some (.ofBool (items.any fun item => Operator.equals.relates left item.toJson)) := by
  induction items with
  | nil => rfl
  | cons item rest ih =>
      rw [List.all_cons, Bool.and_eq_true] at hfinite
      have hrest := ih hfinite.2 (fun other hmem => hkinds other (List.mem_cons_of_mem item hmem))
      have hitem := isNull_toJson item hfinite.1
      -- Neither side is null, so the comparison is decided.
      have hfirst : Comparison.equal.truth? left item.toJson =
          some (.ofBool (Operator.equals.relates left item.toJson)) := by
        rw [truth?_of_comparable .equal (hkinds item List.mem_cons_self), hleft, hitem,
          holds_equal]
        rfl
      unfold listed?
      rw [constant?_of_finite item hfinite.1, hrest, List.any_cons]
      simp only [Option.bind_eq_bind, Option.bind_some, hfirst]
      cases Operator.equals.relates left item.toJson <;>
        cases rest.any fun item => Operator.equals.relates left item.toJson <;> rfl

/-- A match of a text in lower case is a search that the case of letters does not count in. -/
theorem like?_lower (op : Operator) (hop : op.isPattern = true) (needle s : String) :
    like? (likePattern op needle) (.string (Text.toLower s)) =
      some (.ofBool (op.finds needle (.string s))) := by
  simp only [like?, Operator.finds]
  rw [likeMatches_likePattern op hop]
  unfold Text.toLower
  rw [String.toList_ofList]

end Polyquery.Sql
