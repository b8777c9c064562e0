import Mathlib.Algebra.Group.Nat.Even
import Polyquery.Proofs.Condition.Faults

/-!
# Native Pieces in Conditions

Where a native piece lies in a condition, and what a filter says of it. A piece is
held by a condition under a number of negations, which is counted on the way down
to it. Whether the piece is to be turned around depends on whether that number is
odd, and a piece cannot be turned around. A filter therefore tells two things of
every piece in its condition: it lies under an even number of negations, and the
backend has compiled it.

A connective leaves out its empty children, so it has to be seen that no piece is
lost with them. A condition with a piece in it is not empty (`Holds.nonempty`).

## Main definitions

* `Condition.Holds`: A piece somewhere in a condition.

## Theorems

* `Holds.nonempty`: No piece is in an empty condition.
* `Holds.visited`: The walk reaches every piece, under the flag that the
  negations make.
* `native_of_filter`: The pieces of a condition with a filter.
-/

namespace Polyquery

namespace Condition

/-- A native piece lies in a condition, under some number of negations. -/
inductive Holds (piece : Native) : Condition → (turns : Nat) → Prop where
  | here : Holds piece (.native piece) 0
  | and (children : List Condition) (child : Condition) (turns : Nat) (hmem : child ∈ children)
    (h : Holds piece child turns) : Holds piece (.and children) turns
  | or (children : List Condition) (child : Condition) (turns : Nat) (hmem : child ∈ children)
    (h : Holds piece child turns) : Holds piece (.or children) turns
  | not (child : Condition) (turns : Nat) (h : Holds piece child turns) :
    Holds piece (.not child) (turns + 1)

end Condition

/-- The nodes of a child that is not empty are among those of its siblings. -/
theorem visits_subset {children : List Condition} {child : Condition} (hmem : child ∈ children)
    (hne : child.isEmpty = false) (negated : Bool) (above : Nat) :
    child.visits negated above ⊆ Condition.visitsAll children negated above := by
  induction children with
  | nil => exact absurd hmem List.not_mem_nil
  | cons first rest ih =>
      rw [Condition.visitsAll]
      rcases List.mem_cons.mp hmem with rfl | hrest
      · rw [if_neg (Bool.eq_false_iff.mp hne)]
        exact List.subset_append_left _ _
      · split
        · exact ih hrest
        · exact List.subset_append_of_subset_right _ (ih hrest)

namespace Condition.Holds

variable {piece : Native} {c : Condition} {turns : Nat}

theorem nonempty (h : c.Holds piece turns) : c.isEmpty = false := by
  induction h with
  | here => rfl
  | and children child turns hmem _ ih =>
      rw [Condition.isEmpty]
      exact allEmpty_of_mem children child hmem ih
  | or children child turns hmem _ ih =>
      rw [Condition.isEmpty]
      exact allEmpty_of_mem children child hmem ih
  | not child turns _ ih =>
      rw [Condition.isEmpty]
      exact ih

/-- The walk reaches every piece, and the flag has turned as often as there are negations. -/
theorem visited (h : c.Holds piece turns) :
    ∀ (negated : Bool) (above : Nat), ∃ visit ∈ c.visits negated above,
      visit.node = .native piece ∧ (visit.negated = negated ↔ Even turns) := by
  induction h with
  | here =>
      intro negated above
      rw [Condition.visits]
      exact ⟨_, List.mem_singleton.mpr rfl, rfl, iff_of_true rfl Even.zero⟩
  | and children child turns hmem hchild ih =>
      intro negated above
      rcases ih negated (above + 1) with ⟨visit, hvisit, hnode, hflag⟩
      rw [Condition.visits]
      exact ⟨visit, List.mem_cons_of_mem _ (visits_subset hmem hchild.nonempty _ _ hvisit), hnode,
        hflag⟩
  | or children child turns hmem hchild ih =>
      intro negated above
      rcases ih negated (above + 1) with ⟨visit, hvisit, hnode, hflag⟩
      rw [Condition.visits]
      exact ⟨visit, List.mem_cons_of_mem _ (visits_subset hmem hchild.nonempty _ _ hvisit), hnode,
        hflag⟩
  | not child turns _ ih =>
      intro negated above
      rcases ih (!negated) (above + 1) with ⟨visit, hvisit, hnode, hflag⟩
      rw [Condition.visits]
      refine ⟨visit, List.mem_cons_of_mem _ hvisit, hnode, ?_⟩
      -- One more negation turns the flag once more.
      rw [Nat.even_add_one, ← hflag]
      cases visit.negated <;> cases negated <;> decide

end Condition.Holds

/-- In a condition with a filter every piece lies under an even number of negations and is
    compiled by the backend. -/
theorem native_of_filter {φ : Type} (t : Interpretation φ) (maxDepth : Nat) (c : Condition)
    (f : Option φ) (h : t.filter (some c) maxDepth = .ok f) (piece : Native) (turns : Nat)
    (hholds : c.Holds piece turns) : Even turns ∧ ∃ compiled, t.native piece = .ok compiled := by
  have hcompiles : ∃ compiled, t.condition c (.root maxDepth) = .ok compiled := by
    simp only [Interpretation.filter, hholds.nonempty, Bool.false_eq_true, if_false] at h
    rcases map_eq_ok.mp h with ⟨compiled, hcompiled, _⟩
    exact ⟨compiled, hcompiled⟩
  rcases hholds.visited false 0 with ⟨visit, hvisit, hnode, hflag⟩
  have hfaultless := (t.condition_ok_iff c (.root maxDepth)).mp hcompiles visit hvisit
  simp only [Interpretation.fault?, hnode] at hfaultless
  split at hfaultless
  · exact absurd hfaultless (by simp only [reduceCtorEq, not_false_eq_true])
  · split at hfaultless
    · exact absurd hfaultless (by simp only [reduceCtorEq, not_false_eq_true])
    · rename_i hnegated
      exact ⟨hflag.mp (Bool.not_eq_true _ ▸ hnegated), errorOf?_eq_none.mp hfaultless⟩

end Polyquery
