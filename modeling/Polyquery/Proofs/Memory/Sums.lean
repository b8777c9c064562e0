import Mathlib
import Polyquery.Proofs.Backend.Columns

/-!
# Sums of Whole Numbers

The sum of whole numbers is taken from left to right in 64 signed bits, and once a sum
on the way does not fit, all numbers are summed up again in floating point. So it is
not enough that the total fits. Whether the sum is whole is decided by the sums of the
first few numbers (`sum_whole`), and these depend on the order of the records.

The order plays no part where no order can leave the range. The sum of some of the
numbers is largest for the positive ones and least for the negative ones, and there is
an order that begins with either. Both sums have to fit, and this is enough
(`fitsThroughout_perm`).

## Main definitions

* `Fits`, `FitsThroughout`: Sums that stay within 64 signed bits.
* `gains`, `losses`: The positive and the negative ones of some numbers.
* `Argument.WholeOn`: An argument that yields whole numbers on a group.

## Theorems

* `wholeSum_eq_some`: The sum from left to right.
* `sum_whole`: The sum of whole numbers.
* `sum_between`, `fitsThroughout_perm`: The sums in any order.
* `sum_order`: Sums of an argument on a group.
-/

namespace Polyquery

/-- A whole number that fits into 64 signed bits. -/
def Fits (n : Int) : Prop :=
  minInt64 ≤ n ∧ n ≤ maxInt64

instance : DecidablePred Fits := fun n =>
  inferInstanceAs (Decidable (minInt64 ≤ n ∧ n ≤ maxInt64))

/-- Every sum of the first few numbers fits. -/
def FitsThroughout (numbers : List Int) : Prop :=
  ∀ before, before <+: numbers → Fits before.sum

instance : DecidablePred FitsThroughout := fun numbers =>
  decidable_of_iff (∀ before ∈ numbers.inits, Fits before.sum)
    (forall_congr' fun before => imp_congr_left (List.mem_inits before numbers))

/-- The positive ones of some numbers. -/
def gains (numbers : List Int) : List Int :=
  numbers.filter fun n => 0 < n

/-- The negative ones of some numbers. -/
def losses (numbers : List Int) : List Int :=
  numbers.filter fun n => n < 0

section LeftToRight

open Aggregate

/-- There is a sum if it fits on the way, and then it is exact. -/
theorem wholeSum_eq_some (start : Int) (hstart : Fits start) (numbers : List Int) (total : Int) :
    wholeSum start numbers = some total ↔
      (∀ before, before <+: numbers → Fits (start + before.sum)) ∧ total = start + numbers.sum := by
  induction numbers generalizing start with
  | nil =>
      simp only [wholeSum, List.prefix_nil, forall_eq, List.sum_nil, Int.add_zero, hstart,
        true_and, Option.some.injEq, eq_comm]
  | cons n rest ih =>
      simp only [wholeSum, List.prefix_cons_iff, List.sum_cons]
      split
      case isTrue hnext =>
        -- A sum on the way in the rest is one that begins with this number, too.
        rw [ih (start + n) hnext, ← Int.add_assoc]
        refine and_congr_left fun _ => ⟨fun h before hbefore => ?_, fun h before hbefore => ?_⟩
        · rcases hbefore with rfl | ⟨others, rfl, hothers⟩
          · rwa [List.sum_nil, Int.add_zero]
          · rw [List.sum_cons, ← Int.add_assoc]
            exact h others hothers
        · have hlonger := h (n :: before) (.inr ⟨before, rfl, hbefore⟩)
          rwa [List.sum_cons, ← Int.add_assoc] at hlonger
      case isFalse hnext =>
        -- The first step leaves the range already.
        refine iff_of_false (by rintro ⟨⟩) fun h => hnext ?_
        have hfirst := h.1 [n] (.inr ⟨[], rfl, List.nil_prefix⟩)
        rwa [List.sum_singleton] at hfirst

theorem fits_zero : Fits 0 := by
  decide

theorem mapM_toInt64 (numbers : List Int) (h : ∀ n ∈ numbers, Fits n) :
    (numbers.map Json.ofInt).mapM Json.toInt64? = some numbers := by
  induction numbers with
  | nil => rfl
  | cons n rest ih =>
      rw [List.forall_mem_cons] at h
      have hfirst : (Json.ofInt n).toInt64? = some n := if_pos h.1.2
      rw [List.map_cons, List.mapM_cons, hfirst, ih h.2]
      rfl

theorem filterMap_toFloat (numbers : List Int) :
    (numbers.map Json.ofInt).filterMap Json.toFloat? = numbers.map Float.ofInt := by
  rw [List.filterMap_map]
  exact congrFun (List.filterMap_eq_map (f := Float.ofInt)) numbers

theorem ofInt_ne_ofFloat (n : Int) (x : Float) : Json.ofInt n ≠ .ofFloat x := by
  unfold Json.ofInt Json.ofFloat
  split <;> rintro ⟨⟩

/-- The sum of whole numbers is whole and exact if it fits on the way, and otherwise the sum of
    the floating-point numbers next to them. -/
theorem sum_whole (numbers : List Int) (hsome : numbers ≠ []) (h : ∀ n ∈ numbers, Fits n) :
    (FitsThroughout numbers → sum (numbers.map Json.ofInt) = .ofInt numbers.sum) ∧
    (¬ FitsThroughout numbers → sum (numbers.map Json.ofInt) =
      .ofFloat (floatSum (numbers.map Float.ofInt))) := by
  have hvalues : (numbers.map Json.ofInt).isEmpty = false := by
    rw [List.isEmpty_map]
    exact List.isEmpty_eq_false_iff.mpr hsome
  have hsum (total : Int) : wholeSum 0 numbers = some total ↔
      FitsThroughout numbers ∧ total = numbers.sum := by
    unfold FitsThroughout
    simpa only [Int.zero_add] using wholeSum_eq_some 0 fits_zero numbers total
  rw [sum, hvalues, if_neg Bool.false_ne_true, mapM_toInt64 numbers h, filterMap_toFloat]
  dsimp only
  refine ⟨fun hfits => ?_, fun hleaves => ?_⟩
  · rw [(hsum numbers.sum).mpr ⟨hfits, rfl⟩]
  · cases hwhole : wholeSum 0 numbers with
    | none => rfl
    | some total => exact absurd ((hsum total).mp hwhole).1 hleaves

end LeftToRight

section AnyOrder

variable {numbers : List Int}

theorem sum_gains_cons (n : Int) (rest : List Int) :
    (gains (n :: rest)).sum = max n 0 + (gains rest).sum := by
  rw [gains, List.filter_cons, gains]
  split
  case isTrue h => rw [List.sum_cons, Int.max_eq_left (Int.le_of_lt (of_decide_eq_true h))]
  case isFalse h =>
    rw [decide_eq_true_eq, Int.not_lt] at h
    rw [Int.max_eq_right h, Int.zero_add]

theorem sum_losses_cons (n : Int) (rest : List Int) :
    (losses (n :: rest)).sum = min n 0 + (losses rest).sum := by
  rw [losses, List.filter_cons, losses]
  split
  case isTrue h => rw [List.sum_cons, Int.min_eq_left (Int.le_of_lt (of_decide_eq_true h))]
  case isFalse h =>
    rw [decide_eq_true_eq, Int.not_lt] at h
    rw [Int.min_eq_right h, Int.zero_add]

/-- What is added up of some numbers lies between the sum of the negative ones and the sum of the
    positive ones. -/
theorem sum_between {chosen : List Int} (h : chosen.Subperm numbers) :
    (losses numbers).sum ≤ chosen.sum ∧ chosen.sum ≤ (gains numbers).sum := by
  rcases h with ⟨arranged, hperm, hsublist⟩
  rw [← hperm.sum_eq]
  clear hperm
  induction hsublist with
  | slnil => exact ⟨Int.le_refl _, Int.le_refl _⟩
  | cons n _ ih =>
      rw [sum_gains_cons, sum_losses_cons]
      omega
  | cons_cons n _ ih =>
      rw [sum_gains_cons, sum_losses_cons, List.sum_cons]
      omega

/-- Sums fit on the way in every order if those of the positive and of the negative numbers do. -/
theorem fitsThroughout_perm (hgains : Fits (gains numbers).sum)
    (hlosses : Fits (losses numbers).sum)
    {others : List Int} (h : others.Perm numbers) : FitsThroughout others := by
  intro before hbefore
  have hbetween := sum_between (hbefore.sublist.subperm.trans h.subperm)
  exact ⟨hlosses.1.trans hbetween.1, hbetween.2.trans hgains.2⟩

end AnyOrder

/-- An argument yields whole numbers on the records of a group, apart from nulls. They fit into 64
    signed bits. -/
structure Argument.WholeOn (clock : Clock) (argument : Argument) (group : List Record)
    (numbers : List Int) : Prop where
  values : argument.presentOn clock group = numbers.map Json.ofInt
  fits : ∀ n ∈ numbers, Fits n

section Groups

variable {clock : Clock} {argument : Argument} {group : List Record} {numbers : List Int}

theorem presentOn_append (others : List Record) : argument.presentOn clock (group ++ others) =
    argument.presentOn clock group ++ argument.presentOn clock others := by
  rw [Argument.presentOn, List.map_append, List.filter_append]
  rfl

/-- Records that are chosen by their values have the values that are chosen. -/
theorem presentOn_filter (p : Json → Bool) :
    argument.presentOn clock (group.filter fun record =>
      p (argument.valueOn clock (.single record))) = (argument.presentOn clock group).filter p := by
  unfold Argument.presentOn
  rw [List.filter_filter]
  simp only [Bool.and_comm (p _)]
  rw [← List.filter_filter, List.filter_map (p := p)]
  rfl

/-- The records of a group in another order have the same numbers in another order. -/
theorem Argument.WholeOn.perm (h : argument.WholeOn clock group numbers) {others : List Record}
    (hperm : others.Perm group) :
    ∃ arranged, arranged.Perm numbers ∧ argument.WholeOn clock others arranged := by
  have hvalues : (argument.presentOn clock others).Perm (numbers.map Json.ofInt) :=
    h.values ▸ argument.presentOn_perm clock hperm
  have hnumbers : List.Forall₂ (fun value n => value = Json.ofInt n) (numbers.map Json.ofInt)
      numbers := List.forall₂_map_left_iff.mpr (List.forall₂_same.mpr fun _ _ => rfl)
  -- The numbers are moved along with the values that they stand for.
  rcases List.perm_comp_forall₂ hvalues hnumbers with ⟨arranged, harranged, hsame⟩
  refine ⟨arranged, hsame, ?_, fun n hn => h.fits n (hsame.mem_iff.mp hn)⟩
  exact List.forall₂_eq_eq_eq ▸ List.forall₂_map_right_iff.mpr harranged

/-- The records of a group can be put in an order in which chosen numbers come first. -/
theorem Argument.WholeOn.chosenFirst (h : argument.WholeOn clock group numbers) (p : Int → Bool) :
    ∃ others, others.Perm group ∧
      argument.WholeOn clock others (numbers.filter p ++ numbers.filter fun n => !p n) := by
  have hchosen (q : Json → Bool) (r : Int → Bool) (hq : ∀ n ∈ numbers, q (.ofInt n) = r n) :
      (argument.presentOn clock group).filter q = (numbers.filter r).map Json.ofInt := by
    rw [h.values, List.filter_map]
    exact congrArg _ (List.filter_congr hq)
  -- A record is asked for the number that it has, and put first if the number is chosen.
  have hfirst : ∀ n ∈ numbers, (Json.ofInt n).toInt64?.any p = p n := fun n hn => by
    rw [show (Json.ofInt n).toInt64? = some n from if_pos (h.fits n hn).2, Option.any_some]
  refine ⟨_, List.filter_append_perm
    (fun record => (argument.valueOn clock (.single record)).toInt64?.any p) group, ?_, ?_⟩
  · rw [presentOn_append, presentOn_filter fun value => value.toInt64?.any p,
      presentOn_filter fun value => !value.toInt64?.any p, List.map_append]
    congr 1
    · exact hchosen _ _ hfirst
    · exact hchosen _ _ fun n hn => congrArg (!·) (hfirst n hn)
  · intro n hn
    rcases List.mem_append.mp hn with hn | hn
    · exact h.fits n (List.mem_filter.mp hn).1
    · exact h.fits n (List.mem_filter.mp hn).1

variable (clock argument group numbers) in
/-- The sum of an argument on a group. -/
theorem valueOn_sum (hvalid : Expression.validArguments [argument] = true) (label : Option String)
    (h : argument.WholeOn clock group numbers) (hsome : numbers ≠ []) (on : Rows)
    (hon : on.group = group) :
    (FitsThroughout numbers → (Expression.call .sum [argument] label).valueOn clock on =
      .ofInt numbers.sum) ∧
    (¬ FitsThroughout numbers → (Expression.call .sum [argument] label).valueOn clock on =
      .ofFloat (Aggregate.floatSum (numbers.map Float.ofInt))) := by
  rw [Expression.valueOn_aggregate clock .sum Aggregate.sum rfl argument hvalid label on, hon,
    h.values]
  exact sum_whole numbers hsome h.fits

end Groups

/-- The sum of an argument that yields whole numbers on a group. It is whole, and then it is the
    exact one, if and only if all sums of the first few numbers fit into 64 signed bits; otherwise
    it is summed up in floating point. It is whole in every order of the records if and only if
    both the positive and the negative numbers have a sum that fits. So it is in the rows of an
    answer, each for the records that the row is about. -/
theorem sum_order (clock : Clock) (argument : Argument)
    (hvalid : Expression.validArguments [argument] = true) :
    (∀ label group numbers, argument.WholeOn clock group numbers → numbers ≠ [] →
      (∀ on : Rows, on.group = group →
        ((Expression.call .sum [argument] label).valueOn clock on = .ofInt numbers.sum ↔
          FitsThroughout numbers) ∧
        (¬ FitsThroughout numbers → (Expression.call .sum [argument] label).valueOn clock on =
          .ofFloat (Aggregate.floatSum (numbers.map Float.ofInt)))) ∧
      ((∀ on : Rows, on.group.Perm group →
          (Expression.call .sum [argument] label).valueOn clock on = .ofInt numbers.sum) ↔
        Fits (gains numbers).sum ∧ Fits (losses numbers).sum)) ∧
    ∀ (store : Store) (q : AnyQuery) list before after name rows, q.effective.Lists list →
      q.preprocessors = [] → q.customizers = [] →
      list.effective = before ++ .call .sum [argument] (some name) :: after →
      (∀ x ∈ after, x.label? ≠ some name) →
      q.handle (store.findAll clock) (store.findRows clock) = .ok rows →
      ∀ row ∈ rows, ∃ on, store.RangesOver clock q on ∧
        ∀ numbers, argument.WholeOn clock on.group numbers → numbers ≠ [] →
          (List.lookup name row = some (.ofInt numbers.sum) ↔ FitsThroughout numbers) := by
  -- An integer and a float are never the same value, so the result tells which one was taken.
  have hiff : ∀ label group numbers, argument.WholeOn clock group numbers → numbers ≠ [] →
      ∀ on : Rows, on.group = group →
        ((Expression.call .sum [argument] label).valueOn clock on = .ofInt numbers.sum ↔
          FitsThroughout numbers) := by
    intro label group numbers hwhole hsome on hon
    have hsum := valueOn_sum clock argument group numbers hvalid label hwhole hsome on hon
    refine ⟨fun h => by_contra fun hleaves => ?_, hsum.1⟩
    exact ofInt_ne_ofFloat _ _ (h.symm.trans (hsum.2 hleaves))
  constructor
  · intro label group numbers hwhole hsome
    refine ⟨fun on hon => ⟨hiff label group numbers hwhole hsome on hon,
      (valueOn_sum clock argument group numbers hvalid label hwhole hsome on hon).2⟩,
      fun hall => ?_, fun hfits on hon => ?_⟩
    · -- The numbers of one sign can come first, and then their sum is one on the way.
      have hchosen (p : Int → Bool) : Fits (numbers.filter p).sum := by
        rcases hwhole.chosenFirst p with ⟨others, hperm, hothers⟩
        have hsame := List.filter_append_perm p numbers
        have hsum := hall (.ofGroup others) hperm
        rw [← hsame.sum_eq] at hsum
        have hne : numbers.filter p ++ numbers.filter (fun n => !p n) ≠ [] :=
          fun heq => hsome (List.nil_perm.mp (heq ▸ hsame))
        exact ((hiff label others _ hothers hne (.ofGroup others) rfl).mp hsum)
          _ (List.prefix_append _ _)
      exact ⟨hchosen _, hchosen _⟩
    · -- In any other order the numbers are permuted, and still fit on the way.
      rcases hwhole.perm hon with ⟨arranged, hperm, harranged⟩
      have hne : arranged ≠ [] := fun heq => hsome (List.nil_perm.mp (heq ▸ hperm))
      rw [(hiff label on.group arranged harranged hne on rfl).mpr
        (fitsThroughout_perm hfits.1 hfits.2 hperm), hperm.sum_eq]
  · intro store q list before after name rows hlists hplain hcustomizers hlist hlast h row hrow
    rcases rows_columns q list hlists hplain hcustomizers store clock rows h with
      ⟨names, _, heach⟩
    rcases heach row hrow with ⟨on, hon, hof⟩
    refine ⟨on, hon, fun numbers hwhole hsome => ?_⟩
    -- Under the name the row has the value of the last column with it, the sum.
    rw [hof.values before _ after name hlist rfl hlast, Option.some.injEq]
    exact hiff (some name) on.group numbers hwhole hsome on rfl

/-- The total of a number. -/
def sampleSum : ExpressionList where
  names := []
  expressions := [.call .sum [.expression (.property "n" none)] (some "total")]

/-- Three numbers of which the first two together are too large. -/
def sampleGains : List Record :=
  [[("n", .ofInt maxInt64)], [("n", .ofInt 1)], [("n", .ofInt (-1))]]

/-- The total of the three numbers fits. It is whole when the negative one comes first, and not in
    every order. -/
theorem sum_order_sample :
    Argument.WholeOn ⟨"", "", ""⟩ (.expression (.property "n" none)) sampleGains
      [maxInt64, 1, -1] ∧
    Fits [maxInt64, 1, -1].sum ∧
    (¬ ∀ on : Rows, on.group.Perm sampleGains →
      (Expression.call .sum [.expression (.property "n" none)] (some "total")).valueOn
        ⟨"", "", ""⟩ on = .ofInt [maxInt64, 1, -1].sum) ∧
    ∃ on, Store.RangesOver ⟨sampleGains.reverse, 5⟩ ⟨"", "", ""⟩
        (.advanced { select := some (.items sampleSum) }) on ∧
      ∀ numbers, Argument.WholeOn ⟨"", "", ""⟩ (.expression (.property "n" none)) on.group numbers →
        numbers ≠ [] → (some (Json.ofInt maxInt64) = some (.ofInt numbers.sum) ↔
          FitsThroughout numbers) := by
  have hvalid : Expression.validArguments [.expression (.property "n" none)] = true := rfl
  have hwhole : Argument.WholeOn ⟨"", "", ""⟩ (.expression (.property "n" none)) sampleGains
      [maxInt64, 1, -1] := ⟨rfl, by decide⟩
  have horder := sum_order ⟨"", "", ""⟩ (.expression (.property "n" none)) hvalid
  refine ⟨hwhole, by decide, fun hall => ?_, ?_⟩
  · have hgains := ((horder.1 (some "total") sampleGains _ hwhole (by decide)).2.mp hall).1
    exact absurd hgains (by decide)
  · exact horder.2 ⟨sampleGains.reverse, 5⟩ (.advanced { select := some (.items sampleSum) })
      sampleSum [] [] "total" [[("total", .ofInt maxInt64)]] (.inl rfl) rfl rfl rfl
      (fun _ h => absurd h List.not_mem_nil) rfl _ List.mem_cons_self

end Polyquery
