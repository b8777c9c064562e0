import Mathlib.Data.List.Induction
import Polyquery.Memory.Result

/-!
# Sorting by Insertion

An element is inserted from the end of what is sorted already, and it stays behind
everything that it does not come strictly before. So no order has to be assumed to
see where it lands: it is enough to say of the elements that pass each other and of
those that do not how they are to stand (`pairwise_insertionSort`). That the order
is stable is then no further argument. It is part of the relation, once the elements
carry their places.

For the places to be carried along, sorting has to be seen as independent of what an
element is beside the comparison (`insertionSort_map`).

## Theorems

* `insertReversed_perm`, `insertionSort_perm`: Nothing is lost or made.
* `insertionSort_map`: Sorting looks at nothing but the comparison.
* `pairwise_insertReversed`, `pairwise_insertionSort`: What holds between the
  elements in order.
* `mem_resultRows`: Every row of a result is the output of a row that was found.
-/

namespace Polyquery

section Insertion

variable {α : Type} (precedes : α → α → Bool)

theorem insertReversed_perm (a : α) (sorted : List α) :
    (insertReversed precedes a sorted).Perm (a :: sorted) := by
  induction sorted with
  | nil => exact .refl _
  | cons b rest ih =>
      rw [insertReversed]
      split
      · exact (ih.cons b).trans (.swap a b rest)
      · exact .refl _

theorem insertionSort_concat (as : List α) (a : α) :
    insertionSort precedes (as ++ [a]) =
      (insertReversed precedes a (insertionSort precedes as).reverse).reverse := by
  unfold insertionSort
  rw [List.foldl_append, List.reverse_reverse]
  rfl

/-- Sorting keeps every element as often as it is there. -/
theorem insertionSort_perm (as : List α) : (insertionSort precedes as).Perm as := by
  induction as using List.reverseRecOn with
  | nil => exact .refl _
  | append_singleton as a ih =>
      rw [insertionSort_concat]
      refine (List.reverse_perm _).trans ((insertReversed_perm precedes a _).trans ?_)
      exact (((List.reverse_perm _).trans ih).cons a).trans (List.perm_append_singleton a as).symm

theorem mem_insertionSort (as : List α) (a : α) : a ∈ insertionSort precedes as ↔ a ∈ as :=
  (insertionSort_perm precedes as).mem_iff

section Mapping

variable {β : Type} (f : β → α)

theorem insertReversed_map (b : β) (sorted : List β) :
    insertReversed precedes (f b) (sorted.map f) =
      (insertReversed (fun x y => precedes (f x) (f y)) b sorted).map f := by
  induction sorted with
  | nil => rfl
  | cons first rest ih =>
      rw [List.map_cons, insertReversed, insertReversed, ih]
      split <;> rfl

/-- Sorting looks at the elements through the comparison only. -/
theorem insertionSort_map (bs : List β) :
    insertionSort precedes (bs.map f) =
      (insertionSort (fun x y => precedes (f x) (f y)) bs).map f := by
  induction bs using List.reverseRecOn with
  | nil => rfl
  | append_singleton bs b ih =>
      rw [List.map_append, List.map_singleton, insertionSort_concat, insertionSort_concat, ih,
        ← List.map_reverse, insertReversed_map, List.map_reverse]

end Mapping

section Order

variable {R : α → α → Prop}

/-- An element that is put where it belongs. The list is in order from its last element to its
    first. -/
theorem pairwise_insertReversed (a : α) (sorted : List α)
    (hsorted : sorted.Pairwise fun x y => R y x)
    (hpasses : ∀ b ∈ sorted, precedes a b = true → R a b)
    (hstays : ∀ b ∈ sorted, precedes a b = false → R b a)
    (htrans : ∀ b ∈ sorted, ∀ c ∈ sorted, R c b → R b a → R c a) :
    (insertReversed precedes a sorted).Pairwise fun x y => R y x := by
  induction sorted with
  | nil => exact List.pairwise_singleton _ a
  | cons b rest ih =>
      rcases List.pairwise_cons.mp hsorted with ⟨hbefore, hrest⟩
      rw [insertReversed]
      cases hpass : precedes a b with
      | true =>
          rw [if_pos rfl, List.pairwise_cons]
          -- What is passed stays last, also after the new element has found its place.
          constructor
          · intro c hc
            rcases List.mem_cons.mp ((insertReversed_perm precedes a rest).mem_iff.mp hc)
              with rfl | hold
            · exact hpasses b List.mem_cons_self hpass
            · exact hbefore c hold
          · exact ih hrest (fun c hc => hpasses c (List.mem_cons_of_mem b hc))
              (fun c hc => hstays c (List.mem_cons_of_mem b hc))
              (fun c hc d hd => htrans c (List.mem_cons_of_mem b hc) d (List.mem_cons_of_mem b hd))
      | false =>
          have hb := hstays b List.mem_cons_self hpass
          rw [if_neg Bool.false_ne_true, List.pairwise_cons]
          refine ⟨fun c hc => ?_, hsorted⟩
          rcases List.mem_cons.mp hc with rfl | hold
          · exact hb
          -- What comes before the element that is not passed comes before the new one, too.
          · exact htrans b List.mem_cons_self c hc (hbefore c hold) hb

/-- The elements in order. It is enough to know how two elements are to stand when the later one
    passes the earlier one and when it does not. -/
theorem pairwise_insertionSort (as : List α)
    (hpasses : as.Pairwise fun a b => precedes b a = true → R b a)
    (hstays : as.Pairwise fun a b => precedes b a = false → R a b)
    (htrans : ∀ a ∈ as, ∀ b ∈ as, ∀ c ∈ as, R a b → R b c → R a c) :
    (insertionSort precedes as).Pairwise R := by
  induction as using List.reverseRecOn with
  | nil => exact .nil
  | append_singleton as a ih =>
      rcases List.pairwise_append.mp hpasses with ⟨hpasses, _, hpass⟩
      rcases List.pairwise_append.mp hstays with ⟨hstays, _, hstay⟩
      have hmem : ∀ b ∈ (insertionSort precedes as).reverse, b ∈ as := fun b hb =>
        (mem_insertionSort precedes as b).mp (List.mem_reverse.mp hb)
      have hold : ∀ b ∈ (insertionSort precedes as).reverse, b ∈ as ++ [a] := fun b hb =>
        List.mem_append_left [a] (hmem b hb)
      have hnew : a ∈ as ++ [a] := List.mem_append_right as (List.mem_singleton_self a)
      -- The new element is later than everything that is sorted, whatever the order of it is.
      rw [insertionSort_concat, List.pairwise_reverse]
      apply pairwise_insertReversed
      · rw [List.pairwise_reverse]
        exact ih hpasses hstays fun b hb c hc d hd => htrans b (List.mem_append_left [a] hb)
          c (List.mem_append_left [a] hc) d (List.mem_append_left [a] hd)
      · exact fun b hb => hpass b (hmem b hb) a (List.mem_singleton_self a)
      · exact fun b hb => hstay b (hmem b hb) a (List.mem_singleton_self a)
      · exact fun b hb c hc => htrans c (hold c hc) b (hold b hb) a hnew

end Order

end Insertion

section Rows

theorem distinctFrom_subset (kept rows : List Candidate) (c : Candidate)
    (h : c ∈ distinctFrom kept rows) : c ∈ kept ∨ c ∈ rows := by
  induction rows generalizing kept with
  | nil => exact .inl h
  | cons row rest ih =>
      rw [distinctFrom] at h
      split at h
      · rcases ih kept h with hkept | hrest
        · exact .inl hkept
        · exact .inr (List.mem_cons_of_mem row hrest)
      · rcases ih (kept ++ [row]) h with hkept | hrest
        · rcases List.mem_append.mp hkept with hold | hnew
          · exact .inl hold
          · exact .inr (List.mem_cons.mpr (.inl (List.mem_singleton.mp hnew)))
        · exact .inr (List.mem_cons_of_mem row hrest)

/-- No step of a result makes a row, as long as no customizer does. -/
theorem mem_resultRows (plan : SortPlan) (distinct : Bool) (page : Option Pagination)
    (rows : List Candidate) (row : Record) (h : row ∈ resultRows plan distinct page [] rows) :
    ∃ c ∈ rows, row = c.output := by
  have houtput : ∀ kept : List Candidate, (∀ c ∈ kept, c ∈ rows) →
      row ∈ (insertionSort plan.precedes kept).map (·.output) → ∃ c ∈ rows, row = c.output := by
    intro kept hkept hrow
    rcases List.mem_map.mp hrow with ⟨c, hc, heq⟩
    exact ⟨c, hkept c ((mem_insertionSort plan.precedes kept c).mp hc), heq.symm⟩
  have hsubset : ∀ c ∈ (if distinct then distinctOutputs rows else rows), c ∈ rows := by
    intro c hc
    split at hc
    · exact (distinctFrom_subset [] rows c hc).resolve_left List.not_mem_nil
    · exact hc
  cases page with
  | none => exact houtput _ hsubset h
  | some page => exact houtput _ hsubset (List.mem_of_mem_drop (List.mem_of_mem_take h))

end Rows

end Polyquery
