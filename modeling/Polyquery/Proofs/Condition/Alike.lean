import Polyquery.Proofs.Condition.Place

/-!
# Conditions that Compile Alike

Two conditions that nothing tells apart by compiling them. Besides the walk
there are two more ways in which a condition is looked at: whether it is empty,
and what its simple conditions are. The first decides whether a part of a query
counts at all, the second which rules are checked, which relations are joined
and what is aggregated. Conditions that agree in all three are alike, and they
stay alike when the same condition is put around both.

An empty condition among the children of a connective is looked at in none of
these ways, so a connective is alike with or without it (`insert_alike`).

## Main definitions

* `Condition.Alike`: Conditions that nothing tells apart.
* `Condition.InsertsEmpty`: A condition with one more child somewhere, which is
  empty.

## Theorems

* `fill_alike`: Conditions with parts that are alike.
* `insert_alike`: A connective with one more empty child.
* `alike_of_insertsEmpty`: The same anywhere in a condition.
-/

namespace Polyquery

namespace Condition

/-- Two conditions that nothing tells apart by compiling them. -/
structure Alike (new old : Condition) : Prop where
  isEmpty : new.isEmpty = old.isEmpty
  leaves : new.leaves = old.leaves
  compiles : ∀ {φ : Type} (t : Interpretation φ) (ctx : WalkContext),
    t.condition new ctx = t.condition old ctx

/-- The second condition is the first one with an empty child inserted in one of its
    connectives. -/
inductive InsertsEmpty : Condition → Condition → Prop where
  | insert (place : Place) (connective : Connective) (before after : List Condition)
    (e : Condition) (h : e.isEmpty = true) :
    InsertsEmpty (place.fill (.joined connective (before ++ after)))
      (place.fill (.joined connective (before ++ e :: after)))

theorem Alike.refl (c : Condition) : c.Alike c :=
  ⟨rfl, rfl, fun _ _ => rfl⟩

end Condition

open Condition

/-- Conditions are alike when their parts at the same place are and the rest is the same. -/
theorem fill_alike (place : Place) {new old : Condition} (h : new.Alike old) :
    (place.fill new).Alike (place.fill old) := by
  refine ⟨isEmpty_fill place h.isEmpty, leaves_fill place h.leaves, ?_⟩
  intro φ t ctx
  -- Nothing stops a replacement that compiles alike.
  have hsame := Interpretation.fill_same t (fun _ => False) place h.isEmpty
    (fun ctx => .inl (h.compiles t ctx)) ctx
  exact hsame.eq_of_not not_false

/-- An empty condition among others is left out by the walk. -/
theorem conditions_insert {φ : Type} (t : Interpretation φ) (before after : List Condition)
    (e : Condition) (he : e.isEmpty = true) (ctx : WalkContext) :
    t.conditions (before ++ e :: after) ctx = t.conditions (before ++ after) ctx := by
  induction before with
  | nil => exact t.conditions_empty e after ctx he
  | cons child before ih =>
      -- What comes before the empty condition is compiled, or left out, as it was.
      rw [List.cons_append, List.cons_append]
      cases hchild : child.isEmpty with
      | true =>
          rw [t.conditions_empty child _ ctx hchild, t.conditions_empty child _ ctx hchild, ih]
      | false =>
          rw [t.conditions_cons child _ ctx hchild, t.conditions_cons child _ ctx hchild, ih]

/-- A connective is alike with one more child that is empty. -/
theorem insert_alike (connective : Connective) (before after : List Condition) (e : Condition)
    (he : e.isEmpty = true) :
    (Condition.joined connective (before ++ e :: after)).Alike
      (.joined connective (before ++ after)) := by
  refine ⟨?_, ?_, ?_⟩
  · simp only [isEmpty_joined, allEmpty_append, allEmpty, he, Bool.true_and]
  · simp only [leaves_joined, leavesAll_append, leavesAll, leaves_of_empty e he, List.nil_append]
  · intro φ t ctx
    by_cases hdepth : ctx.depth < ctx.maxDepth
    · rw [t.condition_joined connective _ ctx hdepth, t.condition_joined connective _ ctx hdepth,
        conditions_insert t before after e he]
    · have hfull : ctx.maxDepth ≤ ctx.depth := Nat.le_of_not_lt hdepth
      rw [t.condition_of_full _ ctx hfull, t.condition_of_full _ ctx hfull]

theorem alike_of_insertsEmpty {old new : Condition} (h : old.InsertsEmpty new) :
    new.Alike old := by
  cases h with
  | insert place connective before after e he =>
      exact fill_alike place (insert_alike connective before after e he)

end Polyquery
