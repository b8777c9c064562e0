import Polyquery.Proofs.Condition.Shape

/-!
# Empty Conditions

What an empty condition has no part in. It has no leaf, and among other
conditions it adds nothing to their leaves and to their height. Whether all of
several conditions are empty is asked of each of them.

## Theorems

* `allEmpty_append`: Conditions in two lists.
* `isEmpty_iff`, `allEmpty_iff`: A condition without leaves and native pieces.
* `leaves_of_empty`: An empty condition has no leaf.
* `heightAll_of_empty`: Empty conditions have no height together.
* `height_le_heightAll`: A condition is not higher than the list it is in.
-/

namespace Polyquery

theorem allEmpty_append (before after : List Condition) :
    Condition.allEmpty (before ++ after) =
      (Condition.allEmpty before && Condition.allEmpty after) := by
  induction before with
  | nil => simp only [List.nil_append, Condition.allEmpty, Bool.true_and]
  | cons child rest ih => simp only [List.cons_append, Condition.allEmpty, ih, Bool.and_assoc]

mutual

/-- A condition is empty exactly when there is neither a leaf nor a native piece in it. -/
theorem isEmpty_iff : ∀ c : Condition, c.isEmpty = true ↔ c.leaves = [] ∧ c.nativeFree = true
  | .simple leaf => by
      simp only [Condition.isEmpty, Condition.leaves, Bool.false_eq_true, reduceCtorEq, false_and]
  | .and children => by
      simp only [Condition.isEmpty, Condition.leaves, Condition.nativeFree]
      exact allEmpty_iff children
  | .or children => by
      simp only [Condition.isEmpty, Condition.leaves, Condition.nativeFree]
      exact allEmpty_iff children
  | .not child => by
      simp only [Condition.isEmpty, Condition.leaves, Condition.nativeFree]
      exact isEmpty_iff child
  | .native piece => by
      simp only [Condition.isEmpty, Condition.nativeFree, Bool.false_eq_true, and_false]

theorem allEmpty_iff : ∀ children : List Condition, Condition.allEmpty children = true ↔
    Condition.leavesAll children = [] ∧ Condition.allNativeFree children = true
  | [] => by
      simp only [Condition.allEmpty, Condition.leavesAll, Condition.allNativeFree, and_self]
  | child :: rest => by
      simp only [Condition.allEmpty, Condition.leavesAll, Condition.allNativeFree,
        Bool.and_eq_true, List.append_eq_nil_iff, isEmpty_iff child, allEmpty_iff rest]
      exact and_and_and_comm

end

/-- An empty condition has no leaf. -/
theorem leaves_of_empty (c : Condition) (h : c.isEmpty = true) : c.leaves = [] :=
  ((isEmpty_iff c).mp h).1

/-- Empty conditions have no height together. -/
theorem heightAll_of_empty (children : List Condition) (h : Condition.allEmpty children = true) :
    Condition.heightAll children = 0 := by
  induction children with
  | nil => simp only [Condition.heightAll]
  | cons child rest ih =>
      simp only [Condition.allEmpty, Bool.and_eq_true] at h
      simp only [Condition.heightAll, h.1, if_true]
      exact ih h.2

/-- A condition that is not empty is not higher than the conditions it is among. -/
theorem height_le_heightAll (before after : List Condition) (c : Condition)
    (hne : c.isEmpty = false) : c.height ≤ Condition.heightAll (before ++ c :: after) := by
  induction before with
  | nil =>
      simp only [List.nil_append, Condition.heightAll, hne, Bool.false_eq_true, if_false]
      exact Nat.le_max_left _ _
  | cons child rest ih =>
      simp only [List.cons_append, Condition.heightAll]
      split
      · exact ih
      · exact Nat.le_trans ih (Nat.le_max_right _ _)

end Polyquery
