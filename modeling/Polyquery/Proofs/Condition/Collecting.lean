import Polyquery.Proofs.Condition.Emptiness

/-!
# Leaves Collected with a Stack

The leaves of a condition are defined by recursion and collected with a stack.
That both are the same is seen from what a step keeps: what has been found,
followed by the leaves of all that is on the stack, is the same list before and
after (`total_step`). Here the steps are counted. A step looks at one node and
leaves the others, so there is a step for each node of the condition
(`exists_last`), and nothing but an empty stack stops the collector before
(`exists_step`).

A condition may have nothing to collect without being empty: a native piece is
no leaf and does restrict records. There is no other such condition.

## Main definitions

* `LeafCollector.after`: The collector after a number of steps.

## Theorems

* `total_after`: What several steps keep.
* `exists_last`: The collector stops after a step for each node.
* `leaves_collected`: What is collected of a condition.
-/

namespace Polyquery

namespace LeafCollector

/-- The collector after a number of steps, unless it stops before. -/
def after : Nat → LeafCollector → Option LeafCollector
  | 0, collector => some collector
  | steps + 1, collector =>
    match collector.step with
    | none => none
    | some next => after steps next

theorem after_succ {collector next : LeafCollector} (h : collector.step = some next)
    (steps : Nat) : collector.after (steps + 1) = next.after steps := by
  rw [after, h]

/-- There is a step as long as there is something on the stack. -/
theorem exists_step (collector : LeafCollector) (h : collector.stack ≠ []) :
    ∃ next, collector.step = some next := by
  cases hstep : collector.step with
  | none => exact absurd (stack_eq_nil hstep) h
  | some next => exact ⟨next, rfl⟩

theorem step_empty (collector : LeafCollector) (h : collector.stack = []) :
    collector.step = none := by
  rcases collector with ⟨found, stack⟩
  obtain rfl : stack = [] := h
  rfl

theorem nodes_pos (c : Condition) : 0 < c.nodes := by
  cases c <;> simp only [Condition.nodes] <;> omega

/-- No node is left exactly when the stack is empty. -/
theorem remaining_eq_zero_iff (collector : LeafCollector) :
    collector.remaining = 0 ↔ collector.stack = [] := by
  rw [remaining]
  cases collector.stack with
  | nil => simp only [Condition.nodesAll]
  | cons c rest =>
      have hnode := nodes_pos c
      simp only [Condition.nodesAll, reduceCtorEq, iff_false]
      omega

/-- Steps find what comes next and lose nothing. -/
theorem total_after {collector last : LeafCollector} (steps : Nat)
    (h : collector.after steps = some last) : last.total = collector.total := by
  induction steps generalizing collector with
  | zero => rw [Option.some.inj h]
  | succ steps ih =>
      cases hstep : collector.step with
      | none => simp only [after, hstep, reduceCtorEq] at h
      | some next =>
          rw [after_succ hstep] at h
          rw [ih h, total_step hstep]

/-- The collector takes a step for each node that is left, and stops there. -/
theorem exists_last (collector : LeafCollector) :
    ∃ last, collector.after collector.remaining = some last ∧ last.step = none := by
  -- The induction is on the nodes that are left, of which a step takes one.
  induction hsteps : collector.remaining generalizing collector with
  | zero => exact ⟨collector, rfl, collector.step_empty ((remaining_eq_zero_iff _).mp hsteps)⟩
  | succ steps ih =>
      have hstack : collector.stack ≠ [] := by
        rw [ne_eq, ← remaining_eq_zero_iff]
        omega
      rcases collector.exists_step hstack with ⟨next, hstep⟩
      have hless := remaining_step hstep
      rw [after_succ hstep]
      exact ih next (by omega)

end LeafCollector

open LeafCollector

/-- Collecting the simple conditions of a condition comes to an end after a step for each node,
    and has then found the leaves of the condition from left to right, each as often as it
    occurs, under whatever negations. A condition is empty exactly when nothing is collected
    from it and there is no native piece in it. -/
theorem leaves_collected (c : Condition) :
    (∃ last, (start c).after c.nodes = some last ∧ last.step = none ∧
      last.found.toList = c.leaves) ∧
    c.collectLeaves = c.leaves ∧
    (c.isEmpty = true ↔ c.collectLeaves = [] ∧ c.nativeFree = true) := by
  refine ⟨?_, c.collectLeaves_eq, by rw [c.collectLeaves_eq, isEmpty_iff]⟩
  have hnodes : (start c).remaining = c.nodes := by
    simp only [remaining, start, Condition.nodesAll, Nat.add_zero]
  have hleaves : (start c).total = c.leaves := by
    simp only [total, start, Condition.leavesAll, List.append_nil, List.nil_append]
  rcases (start c).exists_last with ⟨last, hafter, hlast⟩
  rw [hnodes] at hafter
  refine ⟨last, hafter, hlast, ?_⟩
  rw [← hleaves, ← total_after c.nodes hafter, total, stack_eq_nil hlast, Condition.leavesAll,
    List.append_nil]

end Polyquery
