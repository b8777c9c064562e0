import Polyquery.Proofs.Condition.Equations
import Polyquery.Proofs.Condition.Shape

/-!
# The Laws of De Morgan for Compiled Conditions

A conjunction turned around compiles to the very filter of the disjunction of
its parts turned around, and the other way about. Nothing is asked of the
backend: the leaves may look at the depth they stand at, and may fail.

The two sides are different trees. On one side the `not` stands above the
connective, on the other side one `not` stands above each part. Still every
part is reached through two nodes and under the same flag, so it is compiled
in the same context, and the errors come in the same order. The one place
where the sides could part is the limit itself. If only one unit of depth is
left, the first side fails at the connective and the second at the first part
that is not empty, with the same error. This is why some part must not be
empty: with none, the second side would have nothing to fail at.

A native piece cannot be turned around at all, so the parts must not be native
pieces for the second side to exist.

## Main definitions

* `Connective.dual`: The connective that stands for another one when it is
  turned around.

## Theorems

* `conditions_turned`: Parts turned around, while there is depth left.
* `conditions_turned_of_full`: Parts turned around, at the limit.
* `condition_not_joined`: Both laws for the trees.
* `deMorgan`: Both laws, with the parts turned around by `Condition.negation`.
-/

namespace Polyquery

/-- The connective that stands for another one when it is turned around. -/
def Connective.dual : Connective → Connective
  | .and => .or
  | .or => .and

theorem under_not (connective : Connective) (negated : Bool) :
    connective.under (!negated) = connective.dual.under negated := by
  cases connective <;> cases negated <;> rfl

namespace Interpretation

variable {φ : Type}

/-- Under the turned flag parts are joined as the dual connective joins them. -/
theorem assemble_flip (t : Interpretation φ) (connective : Connective) (ctx : WalkContext)
    (parts : List φ) :
    t.assemble connective ctx.flip parts = t.assemble connective.dual ctx parts := by
  match parts with
  | [] => rfl
  | [_] => rfl
  | first :: second :: rest =>
      simp only [assemble, WalkContext.flip]
      rw [under_not]

/-- While there is depth left, parts turned around compile as the parts do one node
    further down under the turned flag. -/
theorem conditions_turned (t : Interpretation φ) (children : List Condition) (ctx : WalkContext)
    (h : ctx.depth < ctx.maxDepth) :
    t.conditions (children.map .not) ctx = t.conditions children ctx.below.flip := by
  induction children with
  | nil => rfl
  | cons child rest ih =>
      rw [List.map_cons]
      cases hempty : child.isEmpty with
      | true =>
          have hnot : (Condition.not child).isEmpty = true := by
            simp only [Condition.isEmpty, hempty]
          rw [conditions_empty t _ _ ctx hnot, conditions_empty t child rest _ hempty, ih]
      | false =>
          have hnot : (Condition.not child).isEmpty = false := by
            simp only [Condition.isEmpty, hempty]
          rw [conditions_cons t _ _ ctx hnot, conditions_cons t child rest _ hempty,
            condition_not t child ctx h, ih]

/-- At the limit, the first part that is not empty is where parts turned around fail. -/
theorem conditions_turned_of_full (t : Interpretation φ) (children : List Condition)
    (ctx : WalkContext) (h : ctx.maxDepth ≤ ctx.depth)
    (hsome : Condition.allEmpty children = false) :
    t.conditions (children.map .not) ctx = .error (.depthExceeded ctx.maxDepth) := by
  induction children with
  | nil => exact absurd hsome (by simp only [Condition.allEmpty, reduceCtorEq, not_false_eq_true])
  | cons child rest ih =>
      rw [List.map_cons]
      cases hempty : child.isEmpty with
      | true =>
          -- An empty child is left out, turned or not.
          have hnot : (Condition.not child).isEmpty = true := by
            simp only [Condition.isEmpty, hempty]
          have hrest : Condition.allEmpty rest = false := by
            simpa only [Condition.allEmpty, hempty, Bool.true_and] using hsome
          rw [conditions_empty t _ _ ctx hnot]
          exact ih hrest
      | false =>
          have hnot : (Condition.not child).isEmpty = false := by
            simp only [Condition.isEmpty, hempty]
          rw [conditions_cons t _ _ ctx hnot, condition_of_full t _ ctx h, error_bind]

/-- A connective turned around compiles as the dual connective of its parts turned
    around. -/
theorem condition_not_joined (t : Interpretation φ) (connective : Connective)
    (children : List Condition) (ctx : WalkContext)
    (hsome : Condition.allEmpty children = false) :
    t.condition (.not (.joined connective children)) ctx =
      t.condition (.joined connective.dual (children.map .not)) ctx := by
  by_cases houter : ctx.depth < ctx.maxDepth
  · rw [condition_not t _ ctx houter, condition_joined t connective.dual _ ctx houter]
    by_cases hinner : ctx.below.depth < ctx.below.maxDepth
    · have hflip : ctx.below.flip.depth < ctx.below.flip.maxDepth := hinner
      rw [condition_joined t connective children _ hflip, conditions_turned t children _ hinner]
      -- Both sides reach the parts through two nodes, in either order.
      have hcontext : ctx.below.flip.below = ctx.below.below.flip := rfl
      rw [hcontext]
      congr 1
      funext parts
      exact assemble_flip t connective ctx.below.below parts
    · have hfull : ctx.below.maxDepth ≤ ctx.below.depth := Nat.le_of_not_lt hinner
      have hflip : ctx.below.flip.maxDepth ≤ ctx.below.flip.depth := hfull
      rw [condition_of_full t _ _ hflip, conditions_turned_of_full t children _ hfull hsome]
      rfl
  · have hfull : ctx.maxDepth ≤ ctx.depth := Nat.le_of_not_lt houter
    rw [condition_of_full t _ ctx hfull, condition_of_full t _ ctx hfull]

end Interpretation

/-- A list is not all empty when one of its conditions is not. -/
theorem allEmpty_of_mem (children : List Condition) (c : Condition) (hmem : c ∈ children)
    (hc : c.isEmpty = false) : Condition.allEmpty children = false := by
  induction children with
  | nil => exact absurd hmem List.not_mem_nil
  | cons child rest ih =>
      simp only [Condition.allEmpty]
      rcases List.mem_cons.mp hmem with heq | htail
      · rw [← heq, hc, Bool.false_and]
      · rw [ih htail, Bool.and_false]

/-- Conditions of which none is a native piece can all be turned around. -/
theorem mapM_negation (children : List Condition)
    (hnative : ∀ c ∈ children, c.isNative = false) :
    children.mapM Condition.negation = .ok (children.map .not) := by
  induction children with
  | nil => rfl
  | cons child rest ih =>
      have hchild : Condition.negation child = .ok (.not child) := by
        unfold Condition.negation
        rw [hnative child List.mem_cons_self]
        rfl
      have hrest := ih (fun c hc => hnative c (List.mem_cons_of_mem child hc))
      rw [List.mapM_cons, hchild, ok_bind, hrest, ok_bind]
      rfl

/-- The laws of De Morgan for every backend: compiling a connective turned around and
    compiling the dual connective of its parts turned around have the same outcome, be
    it a filter or an error. -/
theorem deMorgan {φ : Type} (t : Interpretation φ) (children : List Condition)
    (ctx : WalkContext) (hnative : ∀ c ∈ children, c.isNative = false)
    (hsome : ∃ c ∈ children, c.isEmpty = false) :
    ∃ turned, children.mapM Condition.negation = .ok turned ∧
      t.condition (.not (.and children)) ctx = t.condition (.or turned) ctx ∧
      t.condition (.not (.or children)) ctx = t.condition (.and turned) ctx := by
  rcases hsome with ⟨c, hmem, hc⟩
  have hfilled := allEmpty_of_mem children c hmem hc
  exact ⟨children.map .not, mapM_negation children hnative,
    Interpretation.condition_not_joined t .and children ctx hfilled,
    Interpretation.condition_not_joined t .or children ctx hfilled⟩

/-- A backend whose filters are the depths of the leaves. -/
def depthInterpretation : Interpretation (List Nat) where
  simple := fun _ ctx => .ok [ctx.depth]
  native := fun _ => .ok []
  combine := fun _ parts => parts.flatten
  matchAll := []

/-- Both laws for a backend whose leaves look at their depth. -/
theorem deMorgan_sample :
    ∃ turned, [.or [], sampleCondition].mapM Condition.negation = .ok turned ∧
      depthInterpretation.condition (.not (.and [.or [], sampleCondition])) (.root 8) =
        depthInterpretation.condition (.or turned) (.root 8) ∧
      depthInterpretation.condition (.not (.or [.or [], sampleCondition])) (.root 8) =
        depthInterpretation.condition (.and turned) (.root 8) :=
  deMorgan depthInterpretation [.or [], sampleCondition] (.root 8) (by decide) (by decide)

end Polyquery
