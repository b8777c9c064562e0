import Polyquery.Proofs.Condition.Equations
import Polyquery.Proofs.Condition.Shape

/-!
# What Holds of a Compiled Condition

A property of filters that comparisons bring with them and connectives keep is
a property of every compiled condition. The walk puts the filters of
comparisons together and makes nothing else by itself but the filter that
restricts nothing, so these three are all that has to be looked at. Whether a
filter reads only certain columns, or only certain fields, is such a property.

Native pieces are filters that a backend takes as they are. Nothing is known
of them, so the conditions here have none.

## Main definitions

* `Interpretation.Keeps`: A property that connectives keep.

## Theorems

* `assemble_keeps`: Parts under a connective.
* `condition_keeps`, `conditions_keep`: Every node of a condition.
* `filter_keeps`: A filter.
-/

namespace Polyquery

namespace Interpretation

variable {φ : Type} {t : Interpretation φ} {P : φ → Prop}

/-- A property of filters that holds of the filter that restricts nothing, and that several
    filters under a connective have when each of them has it. -/
structure Keeps (t : Interpretation φ) (P : φ → Prop) : Prop where
  matchAll : P t.matchAll
  combine : ∀ connective parts, (∀ part ∈ parts, P part) → P (t.combine connective parts)

theorem assemble_keeps (h : t.Keeps P) (connective : Connective) (ctx : WalkContext)
    (parts : List φ) (hparts : ∀ part ∈ parts, P part) : P (t.assemble connective ctx parts) := by
  cases parts with
  | nil => exact h.matchAll
  | cons first rest =>
      cases rest with
      | nil => exact hparts first List.mem_cons_self
      | cons second others => exact h.combine _ _ hparts

mutual

/-- The filter of a node has the property when the filters of its comparisons have it. -/
theorem condition_keeps (h : t.Keeps P) :
    ∀ (c : Condition) (ctx : WalkContext) (f : φ), c.nativeFree = true →
      (∀ leaf ∈ c.leaves, ∀ ctx f, t.simple leaf ctx = .ok f → P f) →
      t.condition c ctx = .ok f → P f
  | .simple leaf, ctx, f, _, hleaves, hf => by
      rcases bind_eq_ok.mp hf with ⟨below, _, hsimple⟩
      exact hleaves leaf (by simp only [Condition.leaves, List.mem_singleton]) below f hsimple
  | .and children, ctx, f, hnative, hleaves, hf => by
      simp only [Condition.nativeFree] at hnative
      simp only [Condition.leaves] at hleaves
      rcases bind_eq_ok.mp hf with ⟨below, _, hf⟩
      rcases bind_eq_ok.mp hf with ⟨parts, hparts, hassembled⟩
      rw [← Except.ok.inj hassembled]
      -- What is assembled keeps the property when its parts do.
      exact assemble_keeps h .and below parts
        (conditions_keep h children below parts hnative hleaves hparts)
  | .or children, ctx, f, hnative, hleaves, hf => by
      simp only [Condition.nativeFree] at hnative
      simp only [Condition.leaves] at hleaves
      rcases bind_eq_ok.mp hf with ⟨below, _, hf⟩
      rcases bind_eq_ok.mp hf with ⟨parts, hparts, hassembled⟩
      rw [← Except.ok.inj hassembled]
      exact assemble_keeps h .or below parts
        (conditions_keep h children below parts hnative hleaves hparts)
  | .not child, ctx, f, hnative, hleaves, hf => by
      simp only [Condition.nativeFree] at hnative
      simp only [Condition.leaves] at hleaves
      rcases bind_eq_ok.mp hf with ⟨below, _, hchild⟩
      exact condition_keeps h child below.flip f hnative hleaves hchild
  | .native piece, _, _, hnative, _, _ => by
      exact absurd hnative (by simp only [Condition.nativeFree, reduceCtorEq, not_false_eq_true])

/-- The filters of the children of a node have the property, too. -/
theorem conditions_keep (h : t.Keeps P) :
    ∀ (children : List Condition) (ctx : WalkContext) (parts : List φ),
      Condition.allNativeFree children = true →
      (∀ leaf ∈ Condition.leavesAll children, ∀ ctx f, t.simple leaf ctx = .ok f → P f) →
      t.conditions children ctx = .ok parts → ∀ part ∈ parts, P part
  | [], ctx, parts, _, _, hparts => by
      rw [← Except.ok.inj hparts]
      exact fun part hmem => absurd hmem List.not_mem_nil
  | child :: rest, ctx, parts, hnative, hleaves, hparts => by
      simp only [Condition.allNativeFree, Bool.and_eq_true] at hnative
      simp only [Condition.leavesAll, List.mem_append] at hleaves
      have hothers := fun parts => conditions_keep h rest ctx parts hnative.2
        (fun leaf hmem => hleaves leaf (.inr hmem))
      cases hempty : child.isEmpty with
      | true =>
          -- An empty child leaves no trace among the results.
          rw [conditions_empty t child rest ctx hempty] at hparts
          exact hothers parts hparts
      | false =>
          rw [conditions_cons t child rest ctx hempty] at hparts
          rcases bind_eq_ok.mp hparts with ⟨first, hfirst, hparts⟩
          rcases bind_eq_ok.mp hparts with ⟨others, hrest, hparts⟩
          rw [← Except.ok.inj hparts]
          intro part hmem
          rcases List.mem_cons.mp hmem with heq | htail
          · rw [heq]
            exact condition_keeps h child ctx first hnative.1
              (fun leaf hmem => hleaves leaf (.inl hmem)) hfirst
          · exact hothers others hrest part htail

end

/-- The filter of an optional condition has the property when the filters of its comparisons
    have it. -/
theorem filter_keeps (h : t.Keeps P) (condition : Option Condition) (maxDepth : Nat) (f : φ)
    (hnative : ∀ c, condition = some c → c.nativeFree = true)
    (hleaves : ∀ c, condition = some c →
      ∀ leaf ∈ c.leaves, ∀ ctx f, t.simple leaf ctx = .ok f → P f)
    (hf : t.filter condition maxDepth = .ok (some f)) : P f := by
  cases condition with
  | none => exact absurd (Except.ok.inj hf) (by simp only [reduceCtorEq, not_false_eq_true])
  | some c =>
      simp only [filter] at hf
      split at hf
      · exact absurd (Except.ok.inj hf) (by simp only [reduceCtorEq, not_false_eq_true])
      · cases hcompiled : t.condition c (.root maxDepth) with
        | error e =>
            rw [hcompiled] at hf
            exact absurd hf (by simp only [Except.map, reduceCtorEq, not_false_eq_true])
        | ok g =>
            rw [hcompiled] at hf
            simp only [Except.map, Except.ok.injEq, Option.some.injEq] at hf
            rw [← hf]
            exact condition_keeps h c _ g (hnative c rfl) (hleaves c rfl) hcompiled

end Interpretation

end Polyquery
