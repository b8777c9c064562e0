import Polyquery.Condition.Walk
import Polyquery.Proofs.Outcome

/-!
# Equations of the Walk

The walk over a condition, one node at a time. A node first spends one unit of
depth, and what it does then depends on its kind only. The two connectives do
the same up to the name they join their parts under, so they are one node here,
`Condition.joined`.

Whether a unit of depth is left is the only question a node asks of its
context before it looks at its children. `descend_of_lt` and `descend_of_le`
answer it, and the equations below are stated for a node that has already
descended, so that no later proof has to split on the limit again.

## Main definitions

* `WalkContext.below`: The context one node further down.
* `Condition.joined`: Several conditions under a connective.

## Theorems

* `descend_of_lt`, `descend_of_le`: Whether a unit of depth is left.
* `room_below`: The units that are left below a node.
* `condition_of_full`: No node is compiled once the limit is reached.
* `condition_joined`, `condition_not`: A node that has descended.
* `conditions_empty`, `conditions_cons`: The children of a node.
-/

namespace Polyquery

/-- The context one node further down. -/
def WalkContext.below (ctx : WalkContext) : WalkContext :=
  { ctx with depth := ctx.depth + 1 }

theorem descend_of_lt (ctx : WalkContext) (h : ctx.depth < ctx.maxDepth) :
    ctx.descend = .ok ctx.below := by
  unfold WalkContext.descend
  rw [if_neg (by omega)]
  rfl

theorem descend_of_le (ctx : WalkContext) (h : ctx.maxDepth ≤ ctx.depth) :
    ctx.descend = .error (.depthExceeded ctx.maxDepth) := by
  unfold WalkContext.descend
  rw [if_pos h]

/-- Room for a node and what is below it is room for the node, and then for the rest. -/
theorem room_below (ctx : WalkContext) (height : Nat)
    (h : ctx.depth + (height + 1) ≤ ctx.maxDepth) :
    ctx.depth < ctx.maxDepth ∧ ctx.below.depth + height ≤ ctx.below.maxDepth := by
  simp only [WalkContext.below]
  omega

/-- Several conditions under a connective. -/
def Condition.joined : Connective → List Condition → Condition
  | .and, children => .and children
  | .or, children => .or children

namespace Interpretation

variable {φ : Type}

/-- No node is compiled once the limit is reached, whatever it is. -/
theorem condition_of_full (t : Interpretation φ) (c : Condition) (ctx : WalkContext)
    (h : ctx.maxDepth ≤ ctx.depth) :
    t.condition c ctx = .error (.depthExceeded ctx.maxDepth) := by
  cases c <;> simp only [condition, descend_of_le ctx h, error_bind]

theorem condition_joined (t : Interpretation φ) (connective : Connective)
    (children : List Condition) (ctx : WalkContext) (h : ctx.depth < ctx.maxDepth) :
    t.condition (.joined connective children) ctx =
      (t.conditions children ctx.below).map (t.assemble connective ctx.below) := by
  cases connective <;> simp only [Condition.joined, condition, descend_of_lt ctx h, ok_bind] <;>
    cases t.conditions children ctx.below <;> rfl

theorem condition_not (t : Interpretation φ) (child : Condition) (ctx : WalkContext)
    (h : ctx.depth < ctx.maxDepth) :
    t.condition (.not child) ctx = t.condition child ctx.below.flip := by
  simp only [condition, descend_of_lt ctx h, ok_bind]

/-- A child that is empty is left out. -/
theorem conditions_empty (t : Interpretation φ) (child : Condition) (rest : List Condition)
    (ctx : WalkContext) (h : child.isEmpty = true) :
    t.conditions (child :: rest) ctx = t.conditions rest ctx := by
  simp only [conditions, h, if_true]

/-- The first child that is not empty is compiled before the others. -/
theorem conditions_cons (t : Interpretation φ) (child : Condition) (rest : List Condition)
    (ctx : WalkContext) (h : child.isEmpty = false) :
    t.conditions (child :: rest) ctx = (do
      let part ← t.condition child ctx
      let parts ← t.conditions rest ctx
      return part :: parts) := by
  simp only [conditions, h, Bool.false_eq_true, if_false]

end Interpretation

end Polyquery
