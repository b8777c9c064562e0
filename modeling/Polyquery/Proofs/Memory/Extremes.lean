import Polyquery.Proofs.Memory.Order

/-!
# The Least and the Greatest Value of a Group

The least and the greatest value are looked for from left to right, and the best value
so far is given up only for one that is strictly better. Among values of one kind this
finds an extreme one, whatever their order: the value that is kept at a step is as good
as both that it was chosen from (`better_leads`), and being as good is transitive, so
what is kept in the end is as good as all of them (`foldl_better_leads`).

It is also the only extreme value. Two of them would be as good as each other, and
values that are in an order are then the same (`Extreme.unique`). What an extreme value
is does not mention the order in which the values come, and this is all that is needed
for it to be the same when the records of the group come in another order.

Looking for the least and for the greatest value are one thing, done in two directions.

## Main definitions

* `Direction.Leads`: A value is another one or comes before it.
* `Direction.Extreme`: The first of some values in a direction.

## Theorems

* `Json.Below.irrefl`, `Leads.trans`, `Leads.antisymm`: The order of values.
* `better_leads`, `foldl_better_leads`: A step of the search and the search.
* `extreme_of_kind`: What the search finds.
* `Extreme.unique`, `Extreme.perm`: There is one extreme value in all orders.
* `extremes_of_group`: The least and the greatest value and their number.
-/

namespace Polyquery

/-- A value is another one or comes before it in a direction. -/
def Direction.Leads (direction : Direction) (a b : Json) : Prop :=
  a = b ∨ direction.Below a b

/-- A value is one of some values, and none of them comes before it in a direction. If there are
    no values it is null, and only then. -/
structure Direction.Extreme (direction : Direction) (values : List Json) (value : Json) : Prop where
  null_iff : value = .null ↔ values = []
  mem : values ≠ [] → value ∈ values
  leads : ∀ other ∈ values, direction.Leads value other

section Order

variable {direction : Direction} {a b c : Json}

theorem Json.Below.irrefl : ¬ a.Below a := by
  intro h
  cases h with
  | null _ hne => exact hne rfl
  | integer m _ hlt => exact Int.lt_irrefl m hlt
  | string s _ hlt => exact String.lt_irrefl s hlt

theorem Direction.Leads.trans (hab : direction.Leads a b) (hbc : direction.Leads b c) :
    direction.Leads a c := by
  rcases hab with rfl | hab
  · exact hbc
  · rcases hbc with rfl | hbc
    · exact .inr hab
    · exact .inr (hab.trans hbc)

theorem Direction.Leads.antisymm (hab : direction.Leads a b) (hba : direction.Leads b a) :
    a = b := by
  rcases hab with hab | hab
  · exact hab
  · rcases hba with hba | hba
    · exact hba.symm
    · -- Each would come before itself.
      have hself := hab.trans hba
      cases direction <;> exact absurd hself Json.Below.irrefl

end Order

section Search

open Aggregate

variable (direction : Direction) {kind : SortKind}

/-- The value that is kept of two is one of them and leads both. -/
theorem better_leads {best value : Json} (hbest : kind.Orders best) (hvalue : kind.Orders value)
    (hpresent : best ≠ .null) (hother : value ≠ .null) :
    (better (direction.apply .lt) best value = best ∨
      better (direction.apply .lt) best value = value) ∧
    direction.Leads (better (direction.apply .lt) best value) best ∧
    direction.Leads (better (direction.apply .lt) best value) value := by
  rcases compareValues_tells kind value best hvalue hbest hother hpresent with
    ⟨answer, hanswer, htells⟩
  have htold := tells_reverse direction value best answer htells
  -- The new value is taken exactly if it comes before the best one.
  have hwanted : (some answer == some (direction.apply .lt)) = (direction.apply answer == .lt) := by
    cases direction <;> cases answer <;> rfl
  unfold better
  rw [hanswer, hwanted]
  cases hread : direction.apply answer with
  | lt =>
      rw [hread] at htold
      exact ⟨.inr rfl, .inr htold, .inl rfl⟩
  | eq =>
      -- Equal in the order of one kind is equal.
      rw [hread] at htold
      obtain rfl : value = best := htold
      exact ⟨.inl rfl, .inl rfl, .inl rfl⟩
  | gt =>
      rw [hread] at htold
      exact ⟨.inl rfl, .inl rfl, .inr htold⟩

/-- The search ends with one of the values, and it leads all of them. -/
theorem foldl_better_leads (best : Json) (values : List Json)
    (hkind : ∀ value ∈ best :: values, kind.Orders value ∧ value ≠ .null) :
    values.foldl (better (direction.apply .lt)) best ∈ best :: values ∧
      ∀ value ∈ best :: values,
        direction.Leads (values.foldl (better (direction.apply .lt)) best) value := by
  induction values generalizing best with
  | nil => exact ⟨List.mem_cons_self, fun value hvalue => .inl (List.mem_singleton.mp hvalue).symm⟩
  | cons next rest ih =>
      rw [List.forall_mem_cons, List.forall_mem_cons] at hkind
      rcases hkind with ⟨hbest, hnext, hrest⟩
      rcases better_leads direction hbest.1 hnext.1 hbest.2 hnext.2 with
        ⟨hchosen, hleads, hleadsNext⟩
      rw [List.foldl_cons]
      -- From here on the better of the first two stands for both of them.
      generalize better (direction.apply .lt) best next = kept at hchosen hleads hleadsNext ⊢
      have hkept : kind.Orders kept ∧ kept ≠ .null := by
        rcases hchosen with rfl | rfl
        · exact hbest
        · exact hnext
      rcases ih kept (List.forall_mem_cons.mpr ⟨hkept, hrest⟩) with ⟨hmem, hall⟩
      rw [List.forall_mem_cons] at hall
      refine ⟨?_, ?_⟩
      · rcases List.mem_cons.mp hmem with hkeeps | hlater
        · -- What was kept of the first two stays until the end.
          rw [hkeeps]
          rcases hchosen with rfl | rfl
          · exact List.mem_cons_self
          · exact List.mem_cons_of_mem _ List.mem_cons_self
        · exact List.mem_cons_of_mem _ (List.mem_cons_of_mem _ hlater)
      · rw [List.forall_mem_cons, List.forall_mem_cons]
        exact ⟨hall.1.trans hleads, hall.1.trans hleadsNext, hall.2⟩

/-- Among values of one kind the search finds an extreme one. -/
theorem extreme_of_kind (values : List Json)
    (hkind : ∀ value ∈ values, kind.Orders value ∧ value ≠ .null) :
    direction.Extreme values (extreme (direction.apply .lt) values) := by
  cases values with
  | nil => exact ⟨iff_of_true rfl rfl, fun h => absurd rfl h, fun _ h => absurd h List.not_mem_nil⟩
  | cons first rest =>
      rcases foldl_better_leads direction first rest hkind with ⟨hmem, hleads⟩
      refine ⟨?_, fun _ => hmem, hleads⟩
      exact iff_of_false (hkind _ hmem).2 (List.cons_ne_nil first rest)

end Search

namespace Direction.Extreme

variable {direction : Direction} {values others : List Json} {a b : Json}

/-- There is no second extreme value. -/
theorem unique (ha : direction.Extreme values a) (hb : direction.Extreme values b) : a = b := by
  by_cases hnone : values = []
  · rw [ha.null_iff.mpr hnone, hb.null_iff.mpr hnone]
  · exact (ha.leads b (hb.mem hnone)).antisymm (hb.leads a (ha.mem hnone))

/-- An extreme value is one in every order of the values. -/
theorem perm (h : direction.Extreme values a) (hperm : others.Perm values) :
    direction.Extreme others a := by
  have hnone : others = [] ↔ values = [] := by
    rw [← List.length_eq_zero_iff, ← List.length_eq_zero_iff, hperm.length_eq]
  refine ⟨h.null_iff.trans hnone.symm, fun hsome => ?_, fun other hother => ?_⟩
  · exact hperm.mem_iff.mpr (h.mem (hnone.not.mp hsome))
  · exact h.leads other (hperm.mem_iff.mp hother)

end Direction.Extreme

/-- A call of an aggregate has an evaluator, which reduces the values of the argument. -/
theorem aggregate_evaluator (clock : Clock) (argument : Argument) (function : Function)
    (reduce : List Json → Json)
    (hhandler : (evaluationTable clock).handlers.lookup function =
      some (Evaluator.aggregate reduce))
    (harity : function.arity = .exactly 1)
    (hvalid : Expression.validArguments [argument] = true) (label : Option String) :
    ∃ f, (Expression.call function [argument] label).evaluator clock = .ok f ∧
      ∀ on : Rows, f on = reduce (argument.presentOn clock on.group) := by
  have hcall : (Expression.call function [argument] label).valid = true := by
    rw [Expression.valid, harity, hvalid]
    rfl
  rcases Expression.evaluator_of_valid clock _ hcall with ⟨f, hf⟩
  refine ⟨f, hf, fun on => ?_⟩
  rw [Expression.valueOn_eq clock on _ f hf]
  exact Expression.valueOn_aggregate clock function reduce hhandler argument hvalid label on

/-- The least and the greatest value of an argument on a group and the number of its values, nulls
    left out, where the argument is evaluated on each record of the group by itself. If the values
    are whole numbers, or texts, or truth values, the least one is the one of them that no other
    comes before, the greatest one is the one that comes before no other, and both are null only
    if there is no value. The records may come in any order. -/
theorem extremes_of_group (clock : Clock) (argument : Argument)
    (hvalid : Expression.validArguments [argument] = true) (label : Option String) :
    ∃ least greatest number : Evaluator,
      (Expression.call .min [argument] label).evaluator clock = .ok least ∧
      (Expression.call .max [argument] label).evaluator clock = .ok greatest ∧
      (Expression.call .count [argument] label).evaluator clock = .ok number ∧
      ∀ (on : Rows) (kind : SortKind),
        (∀ value ∈ argument.presentOn clock on.group, kind.Orders value) →
        Direction.ascending.Extreme (argument.presentOn clock on.group) (least on) ∧
        Direction.descending.Extreme (argument.presentOn clock on.group) (greatest on) ∧
        number on = .ofNat (argument.presentOn clock on.group).length ∧
        ∀ other : Rows, other.group.Perm on.group →
          least other = least on ∧ greatest other = greatest on ∧ number other = number on := by
  rcases aggregate_evaluator clock argument .min (Aggregate.extreme .lt) rfl rfl hvalid label with
    ⟨least, hleast, hleastOn⟩
  rcases aggregate_evaluator clock argument .max (Aggregate.extreme .gt) rfl rfl hvalid label with
    ⟨greatest, hgreatest, hgreatestOn⟩
  rcases aggregate_evaluator clock argument .count Aggregate.count rfl rfl hvalid label with
    ⟨number, hnumber, hnumberOn⟩
  refine ⟨least, greatest, number, hleast, hgreatest, hnumber, fun on kind hkind => ?_⟩
  -- What is said of a group holds of it in any order, because its values are of the kind then.
  have hextreme : ∀ direction : Direction, ∀ other : Rows, other.group.Perm on.group →
      direction.Extreme (argument.presentOn clock on.group)
        (Aggregate.extreme (direction.apply .lt) (argument.presentOn clock other.group)) := by
    intro direction other hperm
    have hvalues := argument.presentOn_perm clock hperm
    refine (extreme_of_kind direction (argument.presentOn clock other.group) fun value hvalue =>
      ⟨hkind value (hvalues.mem_iff.mp hvalue), ?_⟩).perm hvalues.symm
    exact (isNull_eq_false_iff value).mp (argument.presentOn_present clock other.group value hvalue)
  have hleastIs : ∀ other : Rows, other.group.Perm on.group →
      Direction.ascending.Extreme (argument.presentOn clock on.group) (least other) := by
    intro other hperm
    rw [hleastOn other]
    exact hextreme .ascending other hperm
  have hgreatestIs : ∀ other : Rows, other.group.Perm on.group →
      Direction.descending.Extreme (argument.presentOn clock on.group) (greatest other) := by
    intro other hperm
    rw [hgreatestOn other]
    exact hextreme .descending other hperm
  refine ⟨hleastIs on (.refl _), hgreatestIs on (.refl _), hnumberOn on, fun other hperm =>
    ⟨(hleastIs other hperm).unique (hleastIs on (.refl _)),
      (hgreatestIs other hperm).unique (hgreatestIs on (.refl _)), ?_⟩⟩
  rw [hnumberOn, hnumberOn, Aggregate.count, Aggregate.count,
    (argument.presentOn_perm clock hperm).length_eq]

/-- The size of a number. -/
def sampleSize : Argument :=
  .expression (.call .abs [.expression (.property "n" none)] none)

/-- Three numbers and a record without one. -/
def sampleSizes : List Record :=
  [[("n", .ofInt (-3))], [("n", .ofInt 2)], [], [("n", .ofInt 3)]]

/-- The least size of the numbers is found whether it comes first or not. -/
theorem extremes_of_group_sample :
    Expression.validArguments [sampleSize] = true ∧
    (∀ value ∈ sampleSize.presentOn ⟨"", "", ""⟩ sampleSizes, SortKind.integer.Orders value) ∧
    ∃ least : Evaluator,
      (Expression.call .min [sampleSize] none).evaluator ⟨"", "", ""⟩ = .ok least ∧
      Direction.ascending.Extreme [.ofInt 3, .ofInt 2, .ofInt 3] (least (.ofGroup sampleSizes)) ∧
      least (.ofGroup sampleSizes.reverse) = least (.ofGroup sampleSizes) := by
  have hvalid : Expression.validArguments [sampleSize] = true := rfl
  have hvalues : sampleSize.presentOn ⟨"", "", ""⟩ sampleSizes = [.ofInt 3, .ofInt 2, .ofInt 3] :=
    rfl
  have hkind : ∀ value ∈ sampleSize.presentOn ⟨"", "", ""⟩ sampleSizes,
      SortKind.integer.Orders value := by
    rw [hvalues]
    simp only [List.forall_mem_cons, List.not_mem_nil, false_implies, forall_const, and_true]
    exact ⟨.inr ⟨3, by decide, by decide, rfl⟩, .inr ⟨2, by decide, by decide, rfl⟩,
      .inr ⟨3, by decide, by decide, rfl⟩⟩
  rcases extremes_of_group ⟨"", "", ""⟩ sampleSize hvalid none with
    ⟨least, _, _, hevaluator, _, _, hgroup⟩
  rcases hgroup (.ofGroup sampleSizes) .integer hkind with ⟨hleast, _, _, horder⟩
  exact ⟨hvalid, hkind, least, hevaluator, hleast,
    (horder (.ofGroup sampleSizes.reverse) sampleSizes.reverse_perm).1⟩

end Polyquery
