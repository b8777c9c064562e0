import Polyquery.Proofs.Condition.Emptiness
import Polyquery.Proofs.Condition.Equations

/-!
# Places in a Condition

What happens to a condition when a part of it is replaced, wherever the part
stands. A place is the way from the root to the part: the nodes on the way,
each with the children beside it. `Place.fill` puts a condition there, so a
condition with a part at a place is the place filled with the part, and
replacing the part is filling the place with something else.

A replacement is judged where it is made. If the new part is empty whenever
the old one is, no node on the way leaves out more or fewer children than
before, and if the new part has the outcome of the old one, every node on the
way has its old outcome, too. `fill_same` carries this up the way, and it
leaves room for a new part that the depth limit may stop: then the limit stops
the whole. Whether it does is asked in the context in which the walk reaches
the place, `Place.inner`.

## Main definitions

* `Condition.Step`, `Condition.Place`: The nodes on a way, and a way.
* `Condition.Place.fill`: A condition put at a place.
* `Condition.Place.inner`: The context at a place.

## Theorems

* `isEmpty_fill`, `leaves_fill`: Emptiness and leaves after a replacement.
* `inner_height_le`: What is below a place is part of the height.
* `conditions_replaced`: One child replaced.
* `fill_same`: The outcome after a replacement.
-/

namespace Polyquery

namespace Condition

/-- A node on the way to a place. -/
inductive Step where
  /-- A connective with the children on either side of the way. -/
  | joined (connective : Connective) (before after : List Condition)
  | not
  deriving Repr

/-- A way from the root of a condition to one of its nodes. -/
abbrev Place := List Step

/-- The node with a condition as the child on the way. -/
def Step.fill : Step → Condition → Condition
  | .joined connective before after, c => .joined connective (before ++ c :: after)
  | .not, c => .not c

/-- The condition that has a given one at a place. -/
def Place.fill (place : Place) (c : Condition) : Condition :=
  place.foldr Step.fill c

/-- The context of the child on the way. -/
def Step.inner : Step → WalkContext → WalkContext
  | .joined _ _ _, ctx => ctx.below
  | .not, ctx => ctx.below.flip

/-- The context in which the walk reaches a place. -/
def Place.inner (place : Place) (ctx : WalkContext) : WalkContext :=
  place.foldl (fun ctx step => step.inner ctx) ctx

end Condition

open Condition

theorem fill_cons (step : Step) (place : Place) (c : Condition) :
    Place.fill (step :: place) c = step.fill (place.fill c) :=
  rfl

theorem inner_cons (step : Step) (place : Place) (ctx : WalkContext) :
    Place.inner (step :: place) ctx = place.inner (step.inner ctx) :=
  rfl

/-- A step goes one node down. -/
theorem step_depth (step : Step) (ctx : WalkContext) :
    (step.inner ctx).depth = ctx.depth + 1 := by
  cases step <;> rfl

theorem step_maxDepth (step : Step) (ctx : WalkContext) :
    (step.inner ctx).maxDepth = ctx.maxDepth := by
  cases step <;> rfl

theorem place_maxDepth (place : Place) (ctx : WalkContext) :
    (place.inner ctx).maxDepth = ctx.maxDepth := by
  induction place generalizing ctx with
  | nil => rfl
  | cons step place ih =>
      rw [inner_cons, ih, step_maxDepth]

theorem isEmpty_joined (connective : Connective) (children : List Condition) :
    (Condition.joined connective children).isEmpty = allEmpty children := by
  cases connective <;> simp only [Condition.joined, Condition.isEmpty]

theorem leaves_joined (connective : Connective) (children : List Condition) :
    (Condition.joined connective children).leaves = leavesAll children := by
  cases connective <;> simp only [Condition.joined, Condition.leaves]

theorem height_joined (connective : Connective) (children : List Condition) :
    (Condition.joined connective children).height = heightAll children + 1 := by
  cases connective <;> simp only [Condition.joined, Condition.height]

/-- A node is empty or not as it was, if the new child is. -/
theorem isEmpty_step (step : Step) {new old : Condition} (h : new.isEmpty = old.isEmpty) :
    (step.fill new).isEmpty = (step.fill old).isEmpty := by
  cases step with
  | joined connective before after =>
      simp only [Step.fill, isEmpty_joined, allEmpty_append, allEmpty, h]
  | not => simp only [Step.fill, Condition.isEmpty, h]

/-- A replacement that is empty or not as the part was leaves the whole so. -/
theorem isEmpty_fill (place : Place) {new old : Condition}
    (h : new.isEmpty = old.isEmpty) :
    (place.fill new).isEmpty = (place.fill old).isEmpty := by
  induction place with
  | nil => exact h
  | cons step place ih => exact isEmpty_step step ih

/-- A replacement with the same leaves leaves the leaves of the whole as they are. -/
theorem leaves_fill (place : Place) {new old : Condition} (h : new.leaves = old.leaves) :
    (place.fill new).leaves = (place.fill old).leaves := by
  induction place with
  | nil => exact h
  | cons step place ih =>
      rw [fill_cons, fill_cons]
      cases step with
      | joined connective before after =>
          simp only [Step.fill, leaves_joined, leavesAll_append, leavesAll, ih]
      | not =>
          simp only [Step.fill, Condition.leaves]
          exact ih

/-- A whole is not empty if a part of it is not. -/
theorem isEmpty_fill_of_part (place : Place) {c : Condition} (h : c.isEmpty = false) :
    (place.fill c).isEmpty = false := by
  induction place with
  | nil => exact h
  | cons step place ih =>
      rw [fill_cons]
      cases step with
      | joined connective before after =>
          simp only [Step.fill, isEmpty_joined, allEmpty_append, allEmpty, ih, Bool.false_and,
            Bool.and_false]
      | not =>
          simp only [Step.fill, Condition.isEmpty]
          exact ih

/-- The nodes above a place and those of the part below it are on one way. -/
theorem inner_height_le (place : Place) (c : Condition) (hne : c.isEmpty = false)
    (ctx : WalkContext) :
    (place.inner ctx).depth + c.height ≤ ctx.depth + (place.fill c).height := by
  induction place generalizing ctx with
  | nil => exact Nat.le_refl _
  | cons step place ih =>
      have hbelow := ih (step.inner ctx)
      have hchild := isEmpty_fill_of_part place hne
      rw [step_depth] at hbelow
      rw [fill_cons, inner_cons]
      cases step with
      | joined connective before after =>
          have hamong := height_le_heightAll before after (Place.fill place c) hchild
          simp only [Step.fill, height_joined]
          omega
      | not =>
          simp only [Step.fill, Condition.height]
          omega

namespace Interpretation

variable {φ : Type} (t : Interpretation φ) {new old : Condition}

/-- Children of which one is replaced. If both are empty, both are left out. -/
theorem conditions_replaced {stopped : Prop} {e : CompileError} {ctx : WalkContext}
    (before after : List Condition) (hempty : new.isEmpty = old.isEmpty)
    (h : SameUnless stopped e (t.condition new ctx) (t.condition old ctx)) :
    SameUnless stopped e (t.conditions (before ++ new :: after) ctx)
      (t.conditions (before ++ old :: after) ctx) := by
  induction before with
  | nil =>
      rw [List.nil_append, List.nil_append]
      cases hold : old.isEmpty with
      | true =>
          rw [conditions_empty t new after ctx (hempty.trans hold),
            conditions_empty t old after ctx hold]
          exact .refl _
      | false =>
          rw [conditions_cons t new after ctx (hempty.trans hold),
            conditions_cons t old after ctx hold]
          exact h.bind fun _ => .refl _
  | cons child before ih =>
      rw [List.cons_append, List.cons_append]
      cases hchild : child.isEmpty with
      | true =>
          rw [conditions_empty t child _ ctx hchild, conditions_empty t child _ ctx hchild]
          exact ih
      | false =>
          -- The children before the replaced one come first, with their errors.
          rw [conditions_cons t child _ ctx hchild, conditions_cons t child _ ctx hchild]
          exact (SameUnless.refl _).bind fun _ => ih.bind fun _ => .refl _

/-- A node whose child on the way is replaced. -/
theorem step_same (stopped : WalkContext → Prop) (step : Step)
    (hempty : new.isEmpty = old.isEmpty)
    (h : ∀ ctx, SameUnless (stopped ctx) (.depthExceeded ctx.maxDepth) (t.condition new ctx)
      (t.condition old ctx)) (ctx : WalkContext) :
    SameUnless (stopped (step.inner ctx)) (.depthExceeded ctx.maxDepth)
      (t.condition (step.fill new) ctx) (t.condition (step.fill old) ctx) := by
  by_cases hdepth : ctx.depth < ctx.maxDepth
  · cases step with
    | joined connective before after =>
        simp only [Step.fill]
        rw [condition_joined t connective _ ctx hdepth, condition_joined t connective _ ctx hdepth]
        exact (conditions_replaced t before after hempty (h ctx.below)).map _
    | not =>
        simp only [Step.fill]
        rw [condition_not t new ctx hdepth, condition_not t old ctx hdepth]
        exact h ctx.below.flip
  · -- At the limit the node itself fails, whatever its children are.
    have hfull : ctx.maxDepth ≤ ctx.depth := Nat.le_of_not_lt hdepth
    rw [condition_of_full t _ ctx hfull, condition_of_full t _ ctx hfull]
    exact .refl _

/-- A condition of which a part is replaced, at any place. -/
theorem fill_same (stopped : WalkContext → Prop) (place : Place)
    (hempty : new.isEmpty = old.isEmpty)
    (h : ∀ ctx, SameUnless (stopped ctx) (.depthExceeded ctx.maxDepth) (t.condition new ctx)
      (t.condition old ctx)) (ctx : WalkContext) :
    SameUnless (stopped (place.inner ctx)) (.depthExceeded ctx.maxDepth)
      (t.condition (place.fill new) ctx) (t.condition (place.fill old) ctx) := by
  induction place generalizing ctx with
  | nil => exact h ctx
  | cons step place ih =>
      exact step_same t (fun ctx => stopped (Place.inner place ctx)) step
        (isEmpty_fill place hempty) ih ctx

end Interpretation

end Polyquery
