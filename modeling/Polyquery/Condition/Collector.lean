import Polyquery.Condition

/-!
# Collecting the Simple Conditions

The rules of a query, the joins it needs and what it aggregates are found in
its simple conditions, whatever connectives are around them. They are collected
with a stack of the conditions that are still to be looked into, so that a
condition may be nested to any depth. The condition on top is taken off the
stack. If it is a simple one, it is found; otherwise its children are put on
the stack in its place, the last child first, which leaves the first one on
top.

A step takes one node off the stack and puts only nodes below it there, so the
number of nodes on the stack and below it tells how many steps are left.

## Main definitions

* `Condition.nodes`: The number of nodes of a condition.
* `LeafCollector`: What has been found and what is to be looked into.
* `LeafCollector.step`: One condition taken off the stack.
* `LeafCollector.collect`: Steps until the stack is empty.
* `Condition.collectLeaves`: The simple conditions of a condition.

## Theorems

* `pushAll_reverse`: Children that are pushed from the last to the first.
* `remaining_step`, `total_step`: What a step takes from the stack and what it
  keeps.
* `collect_eq`, `collectLeaves_eq`: What is collected are the leaves from left
  to right.
-/

namespace Polyquery

namespace Condition

mutual

/-- The number of nodes of a condition. -/
def nodes : Condition → Nat
  | .simple _ => 1
  | .and children => nodesAll children + 1
  | .or children => nodesAll children + 1
  | .not child => child.nodes + 1
  | .native _ => 1

/-- The number of nodes of several conditions. -/
def nodesAll : List Condition → Nat
  | [] => 0
  | child :: rest => child.nodes + nodesAll rest

end

theorem nodesAll_append (before after : List Condition) :
    nodesAll (before ++ after) = nodesAll before + nodesAll after := by
  induction before with
  | nil => simp only [List.nil_append, nodesAll, Nat.zero_add]
  | cons child rest ih => simp only [List.cons_append, nodesAll, ih, Nat.add_assoc]

theorem leavesAll_append (before after : List Condition) :
    leavesAll (before ++ after) = leavesAll before ++ leavesAll after := by
  induction before with
  | nil => simp only [List.nil_append, leavesAll]
  | cons child rest ih => simp only [List.cons_append, leavesAll, ih, List.append_assoc]

end Condition

/-- The simple conditions that have been found, and a stack of conditions to be looked into, of
    which the first one is on top. -/
structure LeafCollector where
  found : Array SimpleCondition
  stack : List Condition
  deriving Repr

namespace LeafCollector

/-- The collector that is to look into a condition. -/
def start (c : Condition) : LeafCollector :=
  ⟨#[], [c]⟩

/-- A stack with conditions put on it one after the other. -/
def pushAll (stack conditions : List Condition) : List Condition :=
  conditions.foldl (fun stack c => c :: stack) stack

/-- Children that are pushed from the last to the first lie on the stack in their order. -/
theorem pushAll_reverse (stack children : List Condition) :
    pushAll stack children.reverse = children ++ stack := by
  rw [pushAll, List.foldl_reverse, List.foldr_cons_eq_append, List.map_id']

/-- The collector after one more condition has been taken off the stack, unless it is empty. -/
def step : LeafCollector → Option LeafCollector
  | ⟨_, []⟩ => none
  | ⟨found, .simple leaf :: stack⟩ => some ⟨found.push leaf, stack⟩
  | ⟨found, .and children :: stack⟩ => some ⟨found, pushAll stack children.reverse⟩
  | ⟨found, .or children :: stack⟩ => some ⟨found, pushAll stack children.reverse⟩
  | ⟨found, .not child :: stack⟩ => some ⟨found, child :: stack⟩
  | ⟨found, .native _ :: stack⟩ => some ⟨found, stack⟩

/-- The number of nodes that have not been looked at. -/
def remaining (collector : LeafCollector) : Nat :=
  Condition.nodesAll collector.stack

/-- A step leaves one node less. -/
theorem remaining_step {collector next : LeafCollector} (h : collector.step = some next) :
    next.remaining + 1 = collector.remaining := by
  unfold step at h
  split at h
  case h_1 => cases h
  all_goals
    obtain rfl := Option.some.inj h
    simp only [remaining, pushAll_reverse, Condition.nodesAll_append, Condition.nodesAll,
      Condition.nodes]
    omega

/-- What has been found and, behind it, what is still to be found. -/
def total (collector : LeafCollector) : List SimpleCondition :=
  collector.found.toList ++ Condition.leavesAll collector.stack

/-- A step finds what comes next and loses nothing. -/
theorem total_step {collector next : LeafCollector} (h : collector.step = some next) :
    next.total = collector.total := by
  unfold step at h
  split at h
  case h_1 => cases h
  all_goals
    obtain rfl := Option.some.inj h
    simp only [total, pushAll_reverse, Condition.leavesAll_append, Condition.leavesAll,
      Condition.leaves, Array.toList_push, List.append_assoc, List.nil_append, List.cons_append]

/-- A collector that cannot step has an empty stack. -/
theorem stack_eq_nil {collector : LeafCollector} (h : collector.step = none) :
    collector.stack = [] := by
  unfold step at h
  split at h
  case h_1 => rfl
  all_goals cases h

/-- What has been found when the stack is empty. Like a structural recursion, it is unfolded in
    the evaluation of closed terms. -/
@[semireducible]
def collect (collector : LeafCollector) : List SimpleCondition :=
  match _h : collector.step with
  | none => collector.found.toList
  | some next => next.collect
termination_by collector.remaining
decreasing_by
  have hless := remaining_step _h
  omega

/-- In the end everything has been found. -/
theorem collect_eq (collector : LeafCollector) : collector.collect = collector.total := by
  fun_induction collect collector with
  | case1 collector hstep =>
      rw [total, stack_eq_nil hstep, Condition.leavesAll, List.append_nil]
  | case2 collector next hstep ih => rw [ih, total_step hstep]

end LeafCollector

/-- The simple conditions of a condition, collected with a stack. -/
def Condition.collectLeaves (c : Condition) : List SimpleCondition :=
  (LeafCollector.start c).collect

/-- What is collected are the leaves of the condition from left to right. -/
theorem Condition.collectLeaves_eq (c : Condition) : c.collectLeaves = c.leaves := by
  rw [collectLeaves, LeafCollector.collect_eq]
  simp only [LeafCollector.total, LeafCollector.start, leavesAll, List.append_nil, List.nil_append]

end Polyquery
