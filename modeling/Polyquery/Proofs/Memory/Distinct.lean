import Mathlib.Data.List.Induction
import Polyquery.Proofs.Memory.Sorting

/-!
# Distinct Rows

Of several rows with equal outputs the first one stays. The rows are gone through
from the first to the last, and each is compared with the ones that have stayed.
That is less than all the ones before it, and it is enough because equality is
transitive: a row that has been dropped is equal to one that has stayed.

Rows are told apart by their places here, since two rows may be the same in every
other respect and only one of them stays.

## Main definitions

* `IsFirst`: An element that is equal to none before it.

## Theorems

* `exists_first`: Every element is equal to a first one.
* `distinctOutputs_concat`: One more row.
* `distinctOutputs_firsts`: The rows that stay.
-/

namespace Polyquery

section Firsts

variable {α : Type} (same : α → α → Bool)

/-- An element with its place that is equal to none before it. -/
def IsFirst (as : List α) (place : α × Nat) : Prop :=
  ∀ earlier ∈ as.zipIdx, earlier.2 < place.2 → same earlier.1 place.1 = false

variable {same} {as : List α}

theorem zipIdx_concat (as : List α) (a : α) :
    (as ++ [a]).zipIdx = as.zipIdx ++ [(a, as.length)] := by
  rw [List.zipIdx_append, Nat.zero_add, List.zipIdx_singleton]

theorem pairwise_zipIdx (as : List α) : as.zipIdx.Pairwise fun a b => a.2 < b.2 := by
  induction as using List.reverseRecOn with
  | nil => exact .nil
  | append_singleton as a ih =>
      rw [zipIdx_concat, List.pairwise_append]
      refine ⟨ih, List.pairwise_singleton _ _, fun earlier hearlier last hlast => ?_⟩
      rw [List.mem_singleton.mp hlast]
      exact List.snd_lt_of_mem_zipIdx hearlier

theorem exists_place {a : α} (h : a ∈ as) : ∃ place ∈ as.zipIdx, place.1 = a := by
  rw [← List.zipIdx_map_fst 0 as] at h
  exact List.mem_map.mp h

variable (same) in
/-- Every element is equal to a first one. -/
theorem exists_first (hrefl : ∀ a ∈ as, same a a = true)
    (htrans : ∀ a ∈ as, ∀ b ∈ as, ∀ c ∈ as, same a b = true → same b c = true → same a c = true)
    (place : α × Nat) (h : place ∈ as.zipIdx) :
    ∃ first ∈ as.zipIdx, IsFirst same as first ∧ same first.1 place.1 = true := by
  -- An element that is no first one is equal to an earlier one, so the induction is on places.
  induction hn : place.2 using Nat.strongRecOn generalizing place with
  | ind n ih =>
      by_cases hfirst : IsFirst same as place
      · exact ⟨place, h, hfirst, hrefl _ (List.fst_mem_of_mem_zipIdx h)⟩
      · simp only [IsFirst, not_forall, Bool.not_eq_false] at hfirst
        rcases hfirst with ⟨earlier, hearlier, hlt, hsame⟩
        rcases ih earlier.2 (hn ▸ hlt) earlier hearlier rfl with ⟨first, hmem, hfirst, hequal⟩
        exact ⟨first, hmem, hfirst, htrans _ (List.fst_mem_of_mem_zipIdx hmem) _
          (List.fst_mem_of_mem_zipIdx hearlier) _ (List.fst_mem_of_mem_zipIdx h) hequal hsame⟩

/-- What comes later makes no difference to whether an element is a first one. -/
theorem isFirst_concat (a : α) (place : α × Nat) (h : place.2 < as.length) :
    IsFirst same (as ++ [a]) place ↔ IsFirst same as place := by
  unfold IsFirst
  rw [zipIdx_concat, List.forall_mem_append, List.forall_mem_singleton]
  exact and_iff_left fun hlater => absurd hlater (Nat.lt_asymm h)

theorem isFirst_last (a : α) :
    IsFirst same (as ++ [a]) (a, as.length) ↔ ∀ b ∈ as, same b a = false := by
  unfold IsFirst
  rw [zipIdx_concat, List.forall_mem_append, List.forall_mem_singleton]
  constructor
  · intro h b hb
    rcases exists_place hb with ⟨place, hplace, rfl⟩
    exact h.1 place hplace (List.snd_lt_of_mem_zipIdx hplace)
  · intro h
    exact ⟨fun earlier hearlier _ => h _ (List.fst_mem_of_mem_zipIdx hearlier),
      fun hlt => absurd hlt (Nat.lt_irrefl _)⟩

/-- The first elements of a longer list are those of the list, and the new one if it is equal to
    none of them. -/
theorem firsts_concat (a : α) (place : α × Nat) :
    place ∈ (as ++ [a]).zipIdx ∧ IsFirst same (as ++ [a]) place ↔
      (place ∈ as.zipIdx ∧ IsFirst same as place) ∨
        place = (a, as.length) ∧ ∀ b ∈ as, same b a = false := by
  rw [zipIdx_concat, List.mem_append, List.mem_singleton, or_and_right]
  refine or_congr (and_congr_right fun hplace => ?_) (and_congr_right ?_)
  · exact isFirst_concat a place (List.snd_lt_of_mem_zipIdx hplace)
  · rintro rfl
    exact isFirst_last a

end Firsts

section Rows

/-- Whether two rows have equal outputs. -/
def Candidate.same (a b : Candidate) : Bool :=
  (Json.object a.output).same (.object b.output)

theorem distinctFrom_concat (rows : List Candidate) (c : Candidate) :
    ∀ kept, distinctFrom kept (rows ++ [c]) =
      if (distinctFrom kept rows).any (·.same c) then distinctFrom kept rows
      else distinctFrom kept rows ++ [c] := by
  induction rows with
  | nil => exact fun kept => rfl
  | cons row rest ih =>
      intro kept
      rw [List.cons_append, distinctFrom, distinctFrom]
      split
      · exact ih kept
      · exact ih (kept ++ [row])

theorem distinctOutputs_concat (rows : List Candidate) (c : Candidate) :
    distinctOutputs (rows ++ [c]) =
      if (distinctOutputs rows).any (·.same c) then distinctOutputs rows
      else distinctOutputs rows ++ [c] :=
  distinctFrom_concat rows c []

variable {α : Type} (f : α → Candidate)

/-- The rows that stay are the first ones, in the order in which they are. -/
theorem distinctOutputs_firsts (as : List α)
    (hrefl : ∀ a ∈ as, (f a).same (f a) = true)
    (htrans : ∀ a ∈ as, ∀ b ∈ as, ∀ c ∈ as, (f a).same (f b) = true → (f b).same (f c) = true →
      (f a).same (f c) = true) :
    ∃ kept : List (α × Nat), distinctOutputs (as.map f) = kept.map (fun place => f place.1) ∧
      kept.Sublist as.zipIdx ∧ ∀ place, place ∈ kept ↔
        place ∈ as.zipIdx ∧ IsFirst (fun a b => (f a).same (f b)) as place := by
  induction as using List.reverseRecOn with
  | nil => exact ⟨[], rfl, .slnil, fun place => by simp only [List.zipIdx_nil, List.not_mem_nil,
      false_and]⟩
  | append_singleton as a ih =>
      have hold : ∀ b ∈ as, b ∈ as ++ [a] := fun b hb => List.mem_append_left [a] hb
      have hnew : a ∈ as ++ [a] := List.mem_append_right as (List.mem_singleton_self a)
      rcases ih (fun b hb => hrefl b (hold b hb)) (fun b hb c hc d hd =>
        htrans b (hold b hb) c (hold c hc) d (hold d hd)) with ⟨kept, hkept, hsub, hmem⟩
      simp only [firsts_concat]
      rw [List.map_append, List.map_singleton, distinctOutputs_concat, hkept]
      by_cases hnone : ∀ b ∈ as, (f b).same (f a) = false
      · have hstays : ((kept.map fun place => f place.1).any (·.same (f a))) = false := by
          rw [List.any_map, List.any_eq_false]
          intro place hplace
          exact ne_true_of_eq_false (hnone _ (List.fst_mem_of_mem_zipIdx (hsub.subset hplace)))
        refine ⟨kept ++ [(a, as.length)], ?_, ?_, fun place => ?_⟩
        · rw [hstays, if_neg Bool.false_ne_true, List.map_append, List.map_singleton]
        · rw [zipIdx_concat]
          exact hsub.append (.refl _)
        · rw [List.mem_append, List.mem_singleton, hmem, and_iff_left hnone]
      · have hdrops : ((kept.map fun place => f place.1).any (·.same (f a))) = true := by
          simp only [not_forall, Bool.not_eq_false] at hnone
          rcases hnone with ⟨b, hb, hsame⟩
          rcases exists_place hb with ⟨place, hplace, rfl⟩
          -- The row that it is equal to may have been dropped, but then for one that has stayed.
          rcases exists_first (fun a b => (f a).same (f b))
            (fun b hb => hrefl b (hold b hb)) (fun b hb c hc d hd =>
              htrans b (hold b hb) c (hold c hc) d (hold d hd)) place hplace with
            ⟨first, hfirst, hisFirst, hequal⟩
          refine List.any_eq_true.mpr ⟨f first.1, ?_, ?_⟩
          · exact List.mem_map_of_mem (f := fun place => f place.1)
              ((hmem first).mpr ⟨hfirst, hisFirst⟩)
          · exact htrans _ (hold _ (List.fst_mem_of_mem_zipIdx hfirst)) _ (hold _ hb) _ hnew
              hequal hsame
        refine ⟨kept, ?_, ?_, fun place => ?_⟩
        · rw [hdrops, if_pos rfl]
        · rw [zipIdx_concat]
          exact hsub.trans (List.sublist_append_left _ _)
        · rw [hmem]
          exact (or_iff_left fun hlast => hnone hlast.2).symm

end Rows

end Polyquery
