import Polyquery.Proofs.Json.Rounding
import Polyquery.Proofs.Memory.Found

/-!
# The Order for Sorting as a Preorder

Sorting asks for a total preorder, and the order of values is not quite one. It is
put together from orders that do not fit: values that are in no order count as equal,
so that `1` is equal to `"a"` and `"a"` is equal to `0`, and a whole number is compared
exactly with another one but as a floating-point number with everything else. Equality
that is not transitive leaves a sort without any guarantee, since a row may be kept
from its place by one that it is equal to.

Three values blur when this happens to them. `Json.Blurs` says which ones do, by the
two reasons there are, and `blurs_iff` that these are all. Everywhere else the order
is transitive. So what is to be kept out of the values of a sort key is known, and
without it the comparison of rows is a total preorder and the rows come out sorted.

A number is compared by the one it is rounded to, and only two of the same rank are
then compared exactly (`compareNumbers_eq`). In this form the order is that of pairs,
and what is left to go wrong is the second component, which not all numbers have.

## Main definitions

* `exactOrder`: The order of numbers that are rounded to the same one.
* `Json.Blurs`: Three values on which the order is not transitive.
* `OrdersTotally`: A total preorder on some elements.
* `QueryParts.SortsSharply`: Sort keys whose values do not blur.
* `QueryParts.AnsweredInOrder`: An answer with sorted rows.

## Theorems

* `compareNumbers_eq`: The order of numbers.
* `sortOrder_refl`, `sortOrder_swap`, `sortOrder_trans`: The laws of the order.
* `blurs_iff`, `not_blurs_of_kind`: What blurs and what does not.
* `OrdersTotally.then`: Two orders one after the other.
* `result_ordered`, `sorting_preorder`: Rows come out sorted.
-/

namespace Polyquery

open Rounding

section Numbers

/-- The number that stands for a number among the floating-point numbers. -/
def Number.value? (a : Number) : Option FloatValue :=
  floatValue a.toFloat

/-- The order of two numbers that floating-point numbers cannot tell apart. -/
def exactOrder (a b : Number) : Ordering :=
  match a.toInt64?, b.toInt64? with
  | some i, some j => compare i j
  | _, _ => .eq

theorem value_of_int64 {a : Number} {i : Int} (h : a.toInt64? = some i) :
    a.value? = some (closestInt i) := by
  cases a with
  | float x => exact absurd h (by rintro ⟨⟩)
  | int n =>
      rw [Number.toInt64?] at h
      split at h
      · rw [← Option.some.inj h]
        exact floatValue_ofInt n
      · exact absurd h (by rintro ⟨⟩)

/-- Two whole numbers are in the order of the numbers that they are rounded to, unless these are
    the same. -/
theorem compare_closest (i j : Int) : compare i j =
    (compare (closestInt i).rank (closestInt j).rank).then (compare i j) := by
  -- Rounding keeps the order of integers, though it may make unequal ones equal.
  cases h : compare i j with
  | lt =>
      have hle := rank_closestInt_mono (Int.le_of_lt (Int.compare_eq_lt.mp h))
      cases hrank : compare (closestInt i).rank (closestInt j).rank with
      | gt => exact absurd hrank (compare_le_iff_le.mpr hle)
      | _ => rfl
  | eq =>
      have hrank : compare (closestInt j).rank (closestInt j).rank = .eq :=
        compare_eq_iff_eq.mpr rfl
      rw [Int.compare_eq_eq.mp h, hrank]
      rfl
  | gt =>
      have hle := rank_closestInt_mono (Int.le_of_lt (Int.compare_eq_gt.mp h))
      cases hrank : compare (closestInt i).rank (closestInt j).rank with
      | lt => exact absurd hrank (compare_ge_iff_ge.mpr hle)
      | _ => rfl

/-- Numbers are compared as floating-point numbers, and if that does not tell them apart exactly. -/
theorem compareNumbers_eq {a b : Number} {x y : FloatValue} (ha : a.value? = some x)
    (hb : b.value? = some y) :
    compareNumbers a b = some ((compare x.rank y.rank).then (exactOrder a b)) := by
  have hfloats : compareFloats a.toFloat b.toFloat = some (compare x.rank y.rank) := by
    rw [compareFloats_eq, show floatValue a.toFloat = some x from ha,
      show floatValue b.toFloat = some y from hb]
    rfl
  rw [compareNumbers, exactOrder, hfloats]
  cases hi : a.toInt64? with
  | none => rw [Ordering.then_eq]
  | some i =>
      cases hj : b.toInt64? with
      | none => rw [Ordering.then_eq]
      | some j =>
          rw [value_of_int64 hi] at ha
          rw [value_of_int64 hj] at hb
          rw [← Option.some.inj ha, ← Option.some.inj hb, ← compare_closest]

/-- What is no number is in no order. -/
theorem compareNumbers_none {a b : Number} (h : a.value? = none ∨ b.value? = none) :
    compareNumbers a b = none := by
  have hfloats : compareFloats a.toFloat b.toFloat = none := by
    rw [compareFloats_eq]
    rcases h with h | h
    · rw [show floatValue a.toFloat = none from h, Option.bind_none]
    · rw [show floatValue b.toFloat = none from h]
      cases floatValue a.toFloat <;> rfl
  rw [compareNumbers, hfloats]
  cases hi : a.toInt64? with
  | none => rfl
  | some i =>
      cases hj : b.toInt64? with
      | none => rfl
      | some j =>
          rw [value_of_int64 hi, value_of_int64 hj] at h
          exact (h.elim (Option.some_ne_none _) (Option.some_ne_none _)).elim

theorem exactOrder_swap (a b : Number) : exactOrder b a = (exactOrder a b).swap := by
  unfold exactOrder
  cases a.toInt64? with
  | none => cases b.toInt64? <;> rfl
  | some i =>
      cases b.toInt64? with
      | none => rfl
      | some j => exact (Int.compare_swap i j).symm

theorem compareNumbers_swap (a b : Number) :
    compareNumbers b a = (compareNumbers a b).map Ordering.swap := by
  cases ha : a.value? with
  | none => rw [compareNumbers_none (.inl ha), compareNumbers_none (.inr ha)]; rfl
  | some x =>
      cases hb : b.value? with
      | none => rw [compareNumbers_none (.inl hb), compareNumbers_none (.inr hb)]; rfl
      | some y =>
          have hrank : compare y.rank x.rank = (compare x.rank y.rank).swap :=
            Std.OrientedCmp.eq_swap
          rw [compareNumbers_eq ha hb, compareNumbers_eq hb ha, hrank, exactOrder_swap a b,
            Option.map_some, Ordering.swap_then]

theorem exactOrder_trans {a b c : Number} (hab : (exactOrder a b).isLE = true)
    (hbc : (exactOrder b c).isLE = true)
    (hsharp : ∀ i j, a.toInt64? = some i → b.toInt64? = none → c.toInt64? = some j → i = j) :
    (exactOrder a c).isLE = true := by
  unfold exactOrder at *
  cases hi : a.toInt64? with
  | none => rfl
  | some i =>
      cases hj : c.toInt64? with
      | none => rfl
      | some k =>
          cases hb : b.toInt64? with
          | none =>
              -- Outer integers with a float between them have to be equal, as nothing blurs.
              rw [hsharp i k hi hb hj]
              exact Int.isLE_compare.mpr (Int.le_refl k)
          | some j =>
              rw [hi, hb] at hab
              rw [hb, hj] at hbc
              exact Int.isLE_compare.mpr
                ((Int.isLE_compare.mp hab).trans (Int.isLE_compare.mp hbc))

end Numbers

section Values

/-- Three values of which the first two and the last two count as equal, and the outer two do
    not. -/
inductive Json.Blurs : Json → Json → Json → Prop where
  /-- The value in the middle is in no order with the others, because it is of another kind. -/
  | kinds (a b c : Json) (order : Ordering) (hb : b.isNull = false) (hab : compareValues a b = none)
    (hbc : compareValues b c = none) (hac : compareValues a c = some order) (hne : order ≠ .eq) :
    Blurs a b c
  /-- The value in the middle is what two whole numbers are rounded to. -/
  | rounding (a b c : Number) (i j : Int) (ha : a.toInt64? = some i) (hb : b.toInt64? = none)
    (hc : c.toInt64? = some j) (hne : i ≠ j) (hab : compareNumbers a b = some .eq)
    (hbc : compareNumbers b c = some .eq) : Blurs (.number a) (.number b) (.number c)

theorem compareValues_swap (a b : Json) :
    compareValues b a = (compareValues a b).map Ordering.swap := by
  cases a with
  | number a =>
      cases b with
      | number b => exact compareNumbers_swap a b
      | _ => rfl
  | bool a =>
      cases b with
      | bool b => exact congrArg some Std.OrientedCmp.eq_swap
      | _ => rfl
  | string a =>
      cases b with
      | string b => exact congrArg some Std.OrientedCmp.eq_swap
      | _ => rfl
  | _ => cases b <;> rfl

theorem sortOrder_swap (a b : Json) : sortOrder b a = (sortOrder a b).swap := by
  unfold sortOrder
  cases a.isNull <;> cases b.isNull
  case false.false =>
    dsimp only
    rw [compareValues_swap a b]
    cases compareValues a b <;> rfl
  all_goals rfl

theorem sortOrder_refl (a : Json) : sortOrder a a = .eq := by
  have hswap := sortOrder_swap a a
  cases h : sortOrder a a with
  | eq => rfl
  | _ =>
      rw [h] at hswap
      exact absurd hswap (by simp only [Ordering.swap, reduceCtorEq, not_false_eq_true])

/-- Numbers are ordered transitively, unless one stands between two whole numbers that are rounded
    to it. -/
theorem compareNumbers_trans {a b c : Number} {x y z : FloatValue} (ha : a.value? = some x)
    (hb : b.value? = some y) (hc : c.value? = some z)
    (hsharp : ¬ (Json.number a).Blurs (.number b) (.number c))
    (hab : ((compare x.rank y.rank).then (exactOrder a b)).isLE = true)
    (hbc : ((compare y.rank z.rank).then (exactOrder b c)).isLE = true) :
    ((compare x.rank z.rank).then (exactOrder a c)).isLE = true := by
  rw [Ordering.isLE_then_iff_or] at hab hbc ⊢
  -- A strict step on the way makes the whole strict; otherwise all three have one rank.
  rcases hab with hab | ⟨hab, hexact⟩
  · left
    rcases hbc with hbc | ⟨hbc, _⟩
    · exact compare_lt_iff_lt.mpr ((compare_lt_iff_lt.mp hab).trans (compare_lt_iff_lt.mp hbc))
    · rwa [← compare_eq_iff_eq.mp hbc]
  · rcases hbc with hbc | ⟨hbc, hlater⟩
    · left
      rwa [compare_eq_iff_eq.mp hab]
    · right
      have hxz : compare x.rank z.rank = .eq := by rwa [compare_eq_iff_eq.mp hab]
      refine ⟨hxz, exactOrder_trans hexact hlater fun i j hi hnone hj => ?_⟩
      -- Two unequal integers of one rank with a float between them are what blurring is.
      by_contra hne
      have hfirst : exactOrder a b = .eq := by
        rw [exactOrder, hi, hnone]
      have hlast : exactOrder b c = .eq := by
        rw [exactOrder, hnone]
      refine hsharp (.rounding a b c i j hi hnone hj hne ?_ ?_)
      · rw [compareNumbers_eq ha hb, hab, hfirst]
        rfl
      · rw [compareNumbers_eq hb hc, hbc, hlast]
        rfl

theorem values_of_compareNumbers {a b : Number} {order : Ordering}
    (h : compareNumbers a b = some order) :
    ∃ x y, a.value? = some x ∧ b.value? = some y ∧
      (compare x.rank y.rank).then (exactOrder a b) = order := by
  cases ha : a.value? with
  | none => exact absurd (h.symm.trans (compareNumbers_none (.inl ha))) (by rintro ⟨⟩)
  | some x =>
      cases hb : b.value? with
      | none => exact absurd (h.symm.trans (compareNumbers_none (.inr hb))) (by rintro ⟨⟩)
      | some y =>
          exact ⟨x, y, rfl, rfl, Option.some.inj ((compareNumbers_eq ha hb).symm.trans h)⟩

/-- Values of one kind are ordered transitively, unless they blur. -/
theorem compareValues_trans {a b c : Json} {order : Ordering} (hnull : b.isNull = false)
    (hac : compareValues a c = some order) (hsharp : ¬ a.Blurs b c)
    (hab : ((compareValues a b).getD .eq).isLE = true)
    (hbc : ((compareValues b c).getD .eq).isLE = true) : order.isLE = true := by
  -- Where the middle value compares with neither, it blurs the two others unless they are in order.
  have hnone (hnab : compareValues a b = none) (hnbc : compareValues b c = none) :
      order.isLE = true := by
    by_contra hgt
    refine hsharp (.kinds a b c order hnull hnab hnbc hac ?_)
    rintro rfl
    exact hgt rfl
  -- The outer values are of one kind, or they would not compare.
  cases a with
  | number a =>
      cases c with
      | number c =>
          cases b with
          | number b =>
              -- Numbers compare through the floats they stand for, which the middle one may not
              -- have.
              rcases values_of_compareNumbers hac with ⟨x, z, ha, hc, rfl⟩
              cases hb : b.value? with
              | none => exact hnone (compareNumbers_none (.inr hb)) (compareNumbers_none (.inl hb))
              | some y =>
                  rw [compareValues, compareNumbers_eq ha hb] at hab
                  rw [compareValues, compareNumbers_eq hb hc] at hbc
                  exact compareNumbers_trans ha hb hc hsharp hab hbc
          | _ => exact hnone rfl rfl
      | _ => cases hac
  | string a =>
      cases c with
      | string c =>
          cases b with
          | string b =>
              rw [← Option.some.inj hac]
              exact Std.TransCmp.isLE_trans hab hbc
          | _ => exact hnone rfl rfl
      | _ => cases hac
  | bool a =>
      cases c with
      | bool c =>
          cases b with
          | bool b =>
              rw [← Option.some.inj hac]
              exact Std.TransCmp.isLE_trans hab hbc
          | _ => exact hnone rfl rfl
      | _ => cases hac
  | _ => cases hac

theorem isNull_of_compares {a b : Json} {order : Ordering} (h : compareValues a b = some order) :
    a.isNull = false ∧ b.isNull = false := by
  cases a <;> cases b <;> first | exact ⟨rfl, rfl⟩ | cases h

theorem sortOrder_eq {a b : Json} (ha : a.isNull = false) (hb : b.isNull = false) :
    sortOrder a b = (compareValues a b).getD .eq := by
  rw [sortOrder, ha, hb]

/-- The order for sorting is transitive, unless three values blur. -/
theorem sortOrder_trans {a b c : Json} (hsharp : ¬ a.Blurs b c)
    (hab : (sortOrder a b).isLE = true) (hbc : (sortOrder b c).isLE = true) :
    (sortOrder a c).isLE = true := by
  unfold sortOrder at *
  -- Null comes last, so nothing comes behind it, and only present values are left to compare.
  cases hc : c.isNull with
  | true => cases a.isNull <;> rfl
  | false =>
      rw [hc] at hbc
      cases hb : b.isNull with
      | true =>
          rw [hb] at hbc
          exact absurd hbc Bool.false_ne_true
      | false =>
          rw [hb] at hab hbc
          cases ha : a.isNull with
          | true =>
              rw [ha] at hab
              exact absurd hab Bool.false_ne_true
          | false =>
              rw [ha] at hab
              dsimp only at hab hbc ⊢
              cases hac : compareValues a c with
              -- Values that do not compare count as equal.
              | none => rfl
              | some order => exact compareValues_trans hb hac hsharp hab hbc

theorem Json.Blurs.symm {a b c : Json} (h : a.Blurs b c) : c.Blurs b a := by
  cases h with
  | kinds a b c order hb hab hbc hac hne =>
      refine .kinds c b a order.swap hb ?_ ?_ ?_ (fun h => hne (Ordering.swap_eq_eq.mp h))
      · rw [compareValues_swap b c, hbc, Option.map_none]
      · rw [compareValues_swap a b, hab, Option.map_none]
      · rw [compareValues_swap a c, hac, Option.map_some]
  | rounding a b c i j ha hb hc hne hab hbc =>
      refine .rounding c b a j i hc hb ha (Ne.symm hne) ?_ ?_
      · rw [compareNumbers_swap b c, hbc, Option.map_some, Ordering.swap]
      · rw [compareNumbers_swap a b, hab, Option.map_some, Ordering.swap]

/-- A blur is what keeps equality from being transitive. -/
theorem blurs_iff (a b c : Json) :
    a.Blurs b c ↔ sortOrder a b = .eq ∧ sortOrder b c = .eq ∧ sortOrder a c ≠ .eq := by
  constructor
  · intro h
    -- The middle value compares with neither, or it is a float between unequal integers.
    cases h with
    | kinds a b c order hb hab hbc hac hne =>
        rcases isNull_of_compares hac with ⟨ha, hc⟩
        rw [sortOrder_eq ha hb, sortOrder_eq hb hc, sortOrder_eq ha hc, hab, hbc, hac]
        exact ⟨rfl, rfl, hne⟩
    | rounding a b c i j ha hb hc hne hab hbc =>
        have hac : compareNumbers a c = some (compare i j) := by
          rw [compareNumbers, ha, hc]
        rw [sortOrder_eq rfl rfl, sortOrder_eq rfl rfl, sortOrder_eq rfl rfl, compareValues,
          compareValues, compareValues, hab, hbc, hac]
        exact ⟨rfl, rfl, fun h => hne (Int.compare_eq_eq.mp h)⟩
  · rintro ⟨hab, hbc, hne⟩
    -- Without blurring the order is transitive both ways, which makes the outer values equal.
    by_contra hsharp
    have hle : (sortOrder a c).isLE = true :=
      sortOrder_trans hsharp (by rw [hab]; rfl) (by rw [hbc]; rfl)
    have hge : (sortOrder c a).isLE = true := by
      refine sortOrder_trans (fun h => hsharp h.symm) (b := b) ?_ ?_
      · rw [sortOrder_swap b c, hbc]; rfl
      · rw [sortOrder_swap a b, hab]; rfl
    rw [sortOrder_swap a c] at hge
    exact hne (Ordering.eq_eq_of_isLE_of_isLE_swap hle hge)

end Values

/-- Values of one kind and nulls do not blur. -/
theorem not_blurs_of_kind (kind : SortKind) {a b c : Json} (ha : kind.Orders a) (hb : kind.Orders b)
    (hc : kind.Orders c) : ¬ a.Blurs b c := by
  rw [blurs_iff]
  rintro ⟨hab, hbc, hac⟩
  have hfirst := sortOrder_tells kind a b ha hb
  have hlast := sortOrder_tells kind b c hb hc
  rw [hab] at hfirst
  rw [hbc] at hlast
  rw [show a = c from Eq.trans hfirst hlast] at hac
  exact hac (sortOrder_refl c)

example : sortOrder (.ofInt 9007199254740993) (.number (.float 9007199254740992)) = .eq := by
  decide

example : sortOrder (.number (.float 9007199254740992)) (.ofInt 9007199254740992) = .eq := by
  decide

/-- A comparison is a total preorder on some elements: no element is before itself, two elements
    are told apart in the same way from either side, and the order is transitive. -/
structure OrdersTotally {α : Type} (compare : α → α → Ordering) (P : α → Prop) : Prop where
  refl : ∀ a, P a → compare a a = .eq
  swap : ∀ a b, P a → P b → compare b a = (compare a b).swap
  trans : ∀ a b c, P a → P b → P c → (compare a b).isLE = true → (compare b c).isLE = true →
    (compare a c).isLE = true

section Comparisons

variable {α : Type} {P : α → Prop} {first second : α → α → Ordering}

/-- What stands between two equal elements is equal to both. -/
theorem OrdersTotally.eq_between (h : OrdersTotally first P) {a b c : α} (ha : P a) (hb : P b)
    (hc : P c) (hab : (first a b).isLE = true) (hbc : (first b c).isLE = true)
    (hac : first a c = .eq) : first a b = .eq ∧ first b c = .eq := by
  have hca : (first c a).isLE = true := by
    rw [h.swap a c ha hc, hac]
    rfl
  have hba := h.trans b c a hb hc ha hbc hca
  have hcb := h.trans c a b hc ha hb hca hab
  rw [h.swap a b ha hb] at hba
  rw [h.swap b c hb hc] at hcb
  exact ⟨Ordering.eq_eq_of_isLE_of_isLE_swap hab hba,
    Ordering.eq_eq_of_isLE_of_isLE_swap hbc hcb⟩

theorem OrdersTotally.reverse (h : OrdersTotally first P) (direction : Direction) :
    OrdersTotally (fun a b => direction.apply (first a b)) P := by
  cases direction with
  | ascending => exact h
  | descending =>
      refine ⟨fun a ha => ?_, fun a b ha hb => ?_, fun a b c ha hb hc hab hbc => ?_⟩
      · rw [Direction.apply, h.refl a ha]
        rfl
      · rw [Direction.apply, Direction.apply, h.swap a b ha hb]
      · rw [Direction.apply, ← h.swap _ _ ha hb] at hab
        rw [Direction.apply, ← h.swap _ _ hb hc] at hbc
        rw [Direction.apply, ← h.swap _ _ ha hc]
        exact h.trans c b a hc hb ha hbc hab

/-- Two comparisons one after the other. -/
theorem OrdersTotally.then (h : OrdersTotally first P) (hsecond : OrdersTotally second P) :
    OrdersTotally (fun a b => (first a b).then (second a b)) P := by
  refine ⟨fun a ha => ?_, fun a b ha hb => ?_, fun a b c ha hb hc hab hbc => ?_⟩
  · rw [h.refl a ha, hsecond.refl a ha]
    rfl
  · rw [h.swap a b ha hb, hsecond.swap a b ha hb, Ordering.swap_then]
  · have hfirst := h.trans a b c ha hb hc (Ordering.isLE_left_of_isLE_then hab)
      (Ordering.isLE_left_of_isLE_then hbc)
    -- Only where the first order is even does the second one decide.
    cases hac : first a c with
    | lt => rfl
    | gt =>
        rw [hac] at hfirst
        exact absurd hfirst Bool.false_ne_true
    | eq =>
        rcases h.eq_between ha hb hc (Ordering.isLE_left_of_isLE_then hab)
          (Ordering.isLE_left_of_isLE_then hbc) hac with ⟨heq, hequal⟩
        rw [heq] at hab
        rw [hequal] at hbc
        exact hsecond.trans a b c ha hb hc hab hbc

end Comparisons

/-- No three values of a sort expression blur on the rows. -/
def QueryParts.SortsSharply (clock : Clock) (parts : QueryParts) (rows : List Rows) : Prop :=
  ∀ x ∈ parts.sortExpressions, ∀ a ∈ rows, ∀ b ∈ rows, ∀ c ∈ rows,
    ¬ (x.valueOn clock a).Blurs (x.valueOn clock b) (x.valueOn clock c)

section Rows

variable {clock : Clock}

/-- The comparison of rows by sort keys is a total preorder, as long as no values of a key blur. -/
theorem ordersTotally_compareRows (P : Rows → Prop) (keys : List SortKey)
    (hsharp : ∀ x ∈ keys.flatMap SortKey.expressions, ∀ a b c, P a → P b → P c →
      ¬ (x.valueOn clock a).Blurs (x.valueOn clock b) (x.valueOn clock c)) :
    OrdersTotally (compareRows clock keys) P := by
  induction keys with
  | nil => exact ⟨fun _ _ => rfl, fun _ _ _ _ => rfl, fun _ _ _ _ _ _ _ _ => rfl⟩
  | cons key rest ih =>
      rw [List.flatMap_cons, List.forall_mem_append] at hsharp
      cases key with
      | native piece => exact ih hsharp.2
      | simple key =>
          have hvalues : OrdersTotally (fun a b => sortOrder (key.expression.valueOn clock a)
              (key.expression.valueOn clock b)) P :=
            ⟨fun _ _ => sortOrder_refl _, fun _ _ _ _ => sortOrder_swap _ _,
              fun a b c ha hb hc => sortOrder_trans
                (hsharp.1 key.expression (List.mem_singleton_self _) a b c ha hb hc)⟩
          exact (hvalues.reverse key.direction).then (ih hsharp.2)

theorem distinctOutputs_sublist (rows : List Candidate) : (distinctOutputs rows).Sublist rows := by
  induction rows using List.reverseRecOn with
  | nil => exact .slnil
  | append_singleton rows c ih =>
      rw [distinctOutputs_concat]
      split
      · exact ih.trans (List.sublist_append_left rows [c])
      · exact ih.append (.refl [c])

/-- An answer whose rows are in order. Rows that are equal to earlier ones may be left out. -/
structure QueryParts.AnsweredInOrder (clock : Clock) (parts : QueryParts) (found sorted : List Rows)
    (rows : List Record) : Prop where
  ordered : sorted.Pairwise fun a b => (compareRows clock parts.sorts a b).isLE = true
  all : parts.distinct = false → sorted.Perm found
  covered : sorted.Subperm found
  outputs : rows = match parts.pagination with
    | some page => page.window (sorted.map (parts.outputOn clock))
    | none => sorted.map (parts.outputOn clock)

variable {parts : QueryParts} {found : List Rows} {plan : SortPlan} {candidate : Rows → Candidate}

variable (found candidate) in
theorem exists_kept (distinct : Bool) : ∃ kept : List Rows, kept.Sublist found ∧
    (distinct = false → kept = found) ∧
    (if distinct then distinctOutputs (found.map candidate) else found.map candidate) =
      kept.map candidate := by
  cases distinct with
  | false => exact ⟨found, .refl found, fun _ => rfl, rfl⟩
  | true =>
      rcases List.sublist_map_iff.mp (distinctOutputs_sublist (found.map candidate)) with
        ⟨kept, hkept, heq⟩
      exact ⟨kept, hkept, fun h => absurd h.symm Bool.false_ne_true, heq⟩

/-- The rows of a result are in order. -/
theorem result_ordered (hplan : SortPlan.ofKeys clock parts.sorts = .ok plan)
    (hnative : ∀ key ∈ parts.sorts, key.isNative = false)
    (horders : OrdersTotally (compareRows clock parts.sorts) (· ∈ found))
    (hcandidate : ∀ on ∈ found, (candidate on).MadeFrom clock parts plan on) :
    ∃ sorted, parts.AnsweredInOrder clock found sorted
      (resultRows plan parts.distinct parts.pagination [] (found.map candidate)) := by
  rcases exists_kept found candidate parts.distinct with
    ⟨kept, hkept, hall, hcandidates⟩
  have hperm := insertionSort_perm (fun a b => plan.precedes (candidate a) (candidate b)) kept
  have hmem : ∀ on ∈ kept, on ∈ found := fun on hon => hkept.subset hon
  have hcompare : ∀ a ∈ kept, ∀ b ∈ kept, RowOrder.compareAll (candidate a) (candidate b)
      plan.orders = compareRows clock parts.sorts a b := fun a ha b hb =>
    compareAll_eq clock _ _ a b parts.sorts hnative 0 plan [] [] hplan rfl rfl
      (hcandidate a (hmem a ha)).keys (hcandidate b (hmem b hb)).keys
  refine ⟨insertionSort (fun a b => plan.precedes (candidate a) (candidate b)) kept, ?_,
    fun hdistinct => hall hdistinct ▸ hperm, hperm.subperm.trans hkept.subperm, ?_⟩
  · apply pairwise_insertionSort
    · refine List.pairwise_of_forall_mem_list fun a ha b hb hpasses => ?_
      rw [SortPlan.precedes, hcompare b hb a ha, beq_iff_eq] at hpasses
      rw [hpasses]
      rfl
    -- What does not come strictly before the other is not before it, as seen from the other side.
    · refine List.pairwise_of_forall_mem_list fun a ha b hb hstays => ?_
      rw [SortPlan.precedes, hcompare b hb a ha, horders.swap a b (hmem a ha) (hmem b hb)] at hstays
      cases h : compareRows clock parts.sorts a b with
      | gt =>
          rw [h] at hstays
          exact absurd hstays (by decide)
      | _ => rfl
    · exact fun a ha b hb c hc => horders.trans a b c (hmem a ha) (hmem b hb) (hmem c hc)
  · have houtputs : (insertionSort plan.precedes (kept.map candidate)).map (·.output) =
        (insertionSort (fun a b => plan.precedes (candidate a) (candidate b)) kept).map
          (parts.outputOn clock) := by
      rw [insertionSort_map, List.map_map]
      exact List.map_congr_left fun on hon =>
        (hcandidate on (hmem on (hperm.mem_iff.mp hon))).output
    unfold resultRows
    dsimp only
    rw [hcandidates, houtputs]
    rfl

end Rows

/-- The order that rows are sorted in is reflexive, and it is the same from either side. In either
    direction it is transitive, except for three values that blur, and these are the ones with
    which equality is not transitive. As long as no values of a sort key blur, the comparison of
    what a query finds is a total preorder, and the rows come out sorted. -/
theorem sorting_preorder (direction : Direction) (a b c : Json) :
    sortOrder a a = .eq ∧
    sortOrder b a = (sortOrder a b).swap ∧
    (¬ a.Blurs b c →
      (direction.apply (sortOrder a b)).isLE = true →
      (direction.apply (sortOrder b c)).isLE = true →
      (direction.apply (sortOrder a c)).isLE = true) ∧
    (a.Blurs b c ↔ sortOrder a b = .eq ∧ sortOrder b c = .eq ∧ sortOrder a c ≠ .eq) ∧
    ∀ (store : Store) (clock : Clock) (q : AnyQuery) (found : List Rows),
      q.preprocessors = [] → (∀ key ∈ q.effective.sorts, key.isNative = false) →
      store.Found clock q found → q.effective.SortsSharply clock found →
        OrdersTotally (compareRows clock q.effective.sorts) (· ∈ found) ∧
        (q.customizers = [] → ∀ rows,
          q.handle (store.findAll clock) (store.findRows clock) = .ok rows →
            ∃ sorted, q.effective.AnsweredInOrder clock found sorted rows) := by
  refine ⟨sortOrder_refl a, sortOrder_swap a b, fun hsharp hab hbc => ?_, blurs_iff a b c,
    fun store clock q found hplain hnative hfound hsharp => ?_⟩
  · cases direction with
    | ascending => exact sortOrder_trans hsharp hab hbc
    | descending =>
        -- Descending, the two steps are taken the other way round, and so is the blurring.
        rw [Direction.apply, ← sortOrder_swap] at hab hbc ⊢
        exact sortOrder_trans (fun h => hsharp h.symm) hbc hab
  · -- Sharp sort values make every key a total preorder on what was found, and so the keys
    -- together.
    have horders := ordersTotally_compareRows (· ∈ found) q.effective.sorts
      fun x hx a b c ha hb hc => hsharp x hx a ha b hb c hc
    refine ⟨horders, fun hcustomizers rows h => ?_⟩
    rcases answer_found q hplain rows h with
      ⟨others, plan, candidate, hothers, hplan, hcandidate, rfl⟩
    rw [← found_unique hfound hothers] at hcandidate ⊢
    have hnone : q.effective.customizers = [] := by
      cases q with
      | plain q => exact hcustomizers
      | advanced q => exact hcustomizers
    rw [hnone]
    exact result_ordered hplan hnative horders hcandidate

/-- Three records with a number or a null. -/
def sampleNumbers : Store where
  records := [[("k", .null)], [("k", .ofInt 2)], [("k", .ofInt 1)]]

/-- The records sorted by the number. -/
def sampleSorted : Query where
  sorts := [.simple ⟨.property "k" none, .ascending⟩]

/-- Numbers and nulls do not blur, so one precedes the other through a third, and the records are
    sorted. -/
theorem sorting_preorder_sample :
    ¬ (Json.ofInt 1).Blurs (.ofInt 2) .null ∧
    (sortOrder (.ofInt 1) .null).isLE = true ∧
    (AnyQuery.plain sampleSorted).preprocessors = [] ∧
    ∃ sorted, (AnyQuery.plain sampleSorted).effective.AnsweredInOrder ⟨"", "", ""⟩
      (sampleNumbers.records.map .single) sorted
      [[("k", .ofInt 1)], [("k", .ofInt 2)], [("k", .null)]] := by
  have hnull : SortKind.integer.Orders .null := .inl rfl
  have hone : SortKind.integer.Orders (.ofInt 1) := .inr ⟨1, by decide, by decide, rfl⟩
  have htwo : SortKind.integer.Orders (.ofInt 2) := .inr ⟨2, by decide, by decide, rfl⟩
  have hsharp : ¬ (Json.ofInt 1).Blurs (.ofInt 2) .null :=
    not_blurs_of_kind .integer hone htwo hnull
  have hkinds : (AnyQuery.plain sampleSorted).effective.SortsSharply ⟨"", "", ""⟩
      (sampleNumbers.records.map .single) := by
    have hvalue : ∀ on ∈ sampleNumbers.records.map Rows.single,
        SortKind.integer.Orders ((Expression.property "k" none).valueOn ⟨"", "", ""⟩ on) := by
      intro on hon
      rcases List.mem_map.mp hon with ⟨record, hrecord, rfl⟩
      simp only [sampleNumbers, List.mem_cons, List.not_mem_nil, or_false] at hrecord
      rcases hrecord with rfl | rfl | rfl
      · exact hnull
      · exact htwo
      · exact hone
    intro x hx a ha b hb c hc
    rw [List.mem_singleton.mp hx]
    exact not_blurs_of_kind .integer (hvalue a ha) (hvalue b hb) (hvalue c hc)
  have hnative : ∀ key ∈ (AnyQuery.plain sampleSorted).effective.sorts, key.isNative = false := by
    intro key hkey
    rw [List.mem_singleton.mp hkey]
    rfl
  have horder := sorting_preorder .ascending (.ofInt 1) (.ofInt 2) .null
  exact ⟨hsharp, horder.2.2.1 hsharp (by decide) (by decide), rfl,
    (horder.2.2.2.2 sampleNumbers ⟨"", "", ""⟩ (.plain sampleSorted) _ rfl hnative
      ⟨none, rfl, rfl⟩ hkinds).2 rfl _ rfl⟩

end Polyquery
