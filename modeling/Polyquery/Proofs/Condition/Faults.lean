import Polyquery.Proofs.Condition.DeMorgan
import Polyquery.Proofs.Condition.Emptiness

/-!
# The First Fault of a Walk

When a condition compiles, and with which error it does not. Three things can
go wrong at a node: it lies below the depth limit, it is a native piece that is
turned around, or the backend fails on it. Each of them is a matter of the node
alone, once it is known at which depth and under which flag the walk reaches
it. `Condition.visits` is the list of the nodes with just that, from left to
right and each node before those below it. Children of a connective that are
empty are not on the list, while the child of a negation is there even if it is
empty.

The walk compiles a condition exactly when no node on the list has a fault, and
otherwise ends with the fault of the first node that has one
(`condition_fault`, `condition_outcome`). The results of other nodes have no
part in this, which is why a statement on errors alone can be carried through
the induction.

The greatest depth on the list is what `Condition.height` measures. With
leaves that never fail, a condition compiles exactly when it is not too high,
and since every node on the way into a condition that is not empty leads to a
leaf, its height is found at its leaves (`leafDepths_le_iff`).

## Main definitions

* `Visit`: A node with its depth and its flag.
* `Condition.visits`: The nodes in the order of the walk.
* `Condition.leafDepths`: The depths of all leaves.
* `Interpretation.fault?`: What is wrong with a node.

## Theorems

* `visits_depth_le_iff`: The depths of the nodes and the height.
* `visits_leaves`: The leaves among the nodes are those of the condition.
* `leafDepths_le_iff`: The depths of the leaves and the height.
* `condition_fault`, `conditions_fault`: The error of a walk, by induction.
* `condition_ok_iff`, `fault_eq_none_iff`: A walk and a node without a fault.
* `filter_ok_iff`, `filter_error`: The conditions with a filter, and the error of a
  filter without native pieces.
* `condition_outcome`: The outcome of every walk.
-/

namespace Polyquery

/-- A node as the walk reaches it. -/
structure Visit where
  node : Condition
  /-- Whether the node is turned around. -/
  negated : Bool
  /-- The number of nodes on the way to the node, itself included. -/
  depth : Nat
  deriving Repr

/-- The simple condition at a node. -/
def Visit.leaf? (visit : Visit) : Option SimpleCondition :=
  match visit.node with
  | .simple leaf => some leaf
  | _ => none

namespace Condition

mutual

/-- The nodes of a condition in the order of the walk, where some nodes stand above it. -/
def visits : Condition → (negated : Bool) → (above : Nat) → List Visit
  | .simple leaf, negated, above => [⟨.simple leaf, negated, above + 1⟩]
  | .and children, negated, above =>
    ⟨.and children, negated, above + 1⟩ :: visitsAll children negated (above + 1)
  | .or children, negated, above =>
    ⟨.or children, negated, above + 1⟩ :: visitsAll children negated (above + 1)
  | .not child, negated, above =>
    ⟨.not child, negated, above + 1⟩ :: child.visits (!negated) (above + 1)
  | .native piece, negated, above => [⟨.native piece, negated, above + 1⟩]

/-- The nodes of those conditions that are not empty. -/
def visitsAll : List Condition → (negated : Bool) → (above : Nat) → List Visit
  | [], _, _ => []
  | child :: rest, negated, above =>
    if child.isEmpty then visitsAll rest negated above
    else child.visits negated above ++ visitsAll rest negated above

end

mutual

/-- The depths of the leaves of a condition, where some nodes stand above it. -/
def leafDepths : Condition → (above : Nat) → List Nat
  | .simple _, above => [above + 1]
  | .and children, above => leafDepthsAll children (above + 1)
  | .or children, above => leafDepthsAll children (above + 1)
  | .not child, above => child.leafDepths (above + 1)
  | .native _, _ => []

/-- The depths of the leaves of several conditions. -/
def leafDepthsAll : List Condition → (above : Nat) → List Nat
  | [], _ => []
  | child :: rest, above => child.leafDepths above ++ leafDepthsAll rest above

end

end Condition

mutual

/-- No node lies deeper than the height allows, and some node lies that deep. -/
theorem visits_depth_le_iff (limit : Nat) :
    ∀ (c : Condition) (negated : Bool) (above : Nat),
      (∀ visit ∈ c.visits negated above, visit.depth ≤ limit) ↔ above + c.height ≤ limit
  | .simple leaf, negated, above => by
      simp only [Condition.visits, Condition.height, List.forall_mem_singleton]
  | .and children, negated, above => by
      simp only [Condition.visits, Condition.height, List.forall_mem_cons]
      rw [visitsAll_depth_le_iff limit children negated (above + 1)]
      omega
  | .or children, negated, above => by
      simp only [Condition.visits, Condition.height, List.forall_mem_cons]
      rw [visitsAll_depth_le_iff limit children negated (above + 1)]
      omega
  | .not child, negated, above => by
      simp only [Condition.visits, Condition.height, List.forall_mem_cons]
      rw [visits_depth_le_iff limit child (!negated) (above + 1)]
      omega
  | .native piece, negated, above => by
      simp only [Condition.visits, Condition.height, List.forall_mem_singleton]

/-- The same for several conditions, of which there may be none. -/
theorem visitsAll_depth_le_iff (limit : Nat) :
    ∀ (children : List Condition) (negated : Bool) (above : Nat),
      (above ≤ limit ∧ ∀ visit ∈ Condition.visitsAll children negated above,
        visit.depth ≤ limit) ↔ above + Condition.heightAll children ≤ limit
  | [], negated, above => by
      simp only [Condition.visitsAll, Condition.heightAll, List.not_mem_nil, false_implies,
        implies_true, and_true, Nat.add_zero]
  | child :: rest, negated, above => by
      have hrest := visitsAll_depth_le_iff limit rest negated above
      cases hempty : child.isEmpty with
      | true =>
          simp only [Condition.visitsAll, Condition.heightAll, hempty, if_true]
          exact hrest
      | false =>
          have hchild := visits_depth_le_iff limit child negated above
          simp only [Condition.visitsAll, Condition.heightAll, hempty, Bool.false_eq_true,
            if_false, List.forall_mem_append]
          rw [hchild]
          -- The greater of two heights is within the limit when both are.
          constructor
          · rintro ⟨habove, hfirst, hothers⟩
            have := hrest.mp ⟨habove, hothers⟩
            omega
          · intro hmax
            have hothers := hrest.mpr (by omega)
            exact ⟨hothers.1, by omega, hothers.2⟩

end

mutual

/-- The leaves that the walk reaches are all leaves of the condition. -/
theorem visits_leaves :
    ∀ (c : Condition) (negated : Bool) (above : Nat),
      (c.visits negated above).filterMap Visit.leaf? = c.leaves
  | .simple leaf, negated, above => by
      simp only [Condition.visits, Condition.leaves]
      rfl
  | .and children, negated, above => by
      simp only [Condition.visits, Condition.leaves, List.filterMap_cons, Visit.leaf?]
      exact visitsAll_leaves children negated (above + 1)
  | .or children, negated, above => by
      simp only [Condition.visits, Condition.leaves, List.filterMap_cons, Visit.leaf?]
      exact visitsAll_leaves children negated (above + 1)
  | .not child, negated, above => by
      simp only [Condition.visits, Condition.leaves, List.filterMap_cons, Visit.leaf?]
      exact visits_leaves child (!negated) (above + 1)
  | .native piece, negated, above => by
      simp only [Condition.visits, Condition.leaves]
      rfl

theorem visitsAll_leaves :
    ∀ (children : List Condition) (negated : Bool) (above : Nat),
      (Condition.visitsAll children negated above).filterMap Visit.leaf? =
        Condition.leavesAll children
  | [], negated, above => by
      simp only [Condition.visitsAll, Condition.leavesAll, List.filterMap_nil]
  | child :: rest, negated, above => by
      simp only [Condition.visitsAll, Condition.leavesAll]
      cases hempty : child.isEmpty with
      | true =>
          rw [if_pos rfl, leaves_of_empty child hempty, List.nil_append]
          exact visitsAll_leaves rest negated above
      | false =>
          rw [if_neg Bool.false_ne_true, List.filterMap_append,
            visits_leaves child negated above, visitsAll_leaves rest negated above]

end

mutual

/-- No native piece is reached in a condition without one. -/
theorem visits_nativeFree :
    ∀ (c : Condition) (negated : Bool) (above : Nat), c.nativeFree = true →
      ∀ visit ∈ c.visits negated above, visit.node.isNative = false
  | .simple leaf, negated, above, _ => by
      simp only [Condition.visits, List.forall_mem_singleton]
      rfl
  | .and children, negated, above, h => by
      simp only [Condition.nativeFree] at h
      simp only [Condition.visits, List.forall_mem_cons]
      exact ⟨rfl, visitsAll_nativeFree children negated (above + 1) h⟩
  | .or children, negated, above, h => by
      simp only [Condition.nativeFree] at h
      simp only [Condition.visits, List.forall_mem_cons]
      exact ⟨rfl, visitsAll_nativeFree children negated (above + 1) h⟩
  | .not child, negated, above, h => by
      simp only [Condition.nativeFree] at h
      simp only [Condition.visits, List.forall_mem_cons]
      exact ⟨rfl, visits_nativeFree child (!negated) (above + 1) h⟩
  | .native piece, negated, above, h => by
      exact absurd h (by simp only [Condition.nativeFree, reduceCtorEq, not_false_eq_true])

theorem visitsAll_nativeFree :
    ∀ (children : List Condition) (negated : Bool) (above : Nat),
      Condition.allNativeFree children = true →
      ∀ visit ∈ Condition.visitsAll children negated above, visit.node.isNative = false
  | [], negated, above, _ => by
      simp only [Condition.visitsAll, List.not_mem_nil, false_implies, implies_true]
  | child :: rest, negated, above, h => by
      simp only [Condition.allNativeFree, Bool.and_eq_true] at h
      have hrest := visitsAll_nativeFree rest negated above h.2
      cases hempty : child.isEmpty with
      | true =>
          simp only [Condition.visitsAll, hempty, if_true]
          exact hrest
      | false =>
          simp only [Condition.visitsAll, hempty, Bool.false_eq_true, if_false,
            List.forall_mem_append]
          exact ⟨visits_nativeFree child negated above h.1, hrest⟩

end

mutual

theorem leafDepths_of_empty :
    ∀ (c : Condition) (above : Nat), c.isEmpty = true → c.leafDepths above = []
  | .simple leaf, above, h => by
      exact absurd h (by simp only [Condition.isEmpty, reduceCtorEq, not_false_eq_true])
  | .and children, above, h => by
      simp only [Condition.isEmpty] at h
      simp only [Condition.leafDepths]
      exact leafDepthsAll_of_empty children (above + 1) h
  | .or children, above, h => by
      simp only [Condition.isEmpty] at h
      simp only [Condition.leafDepths]
      exact leafDepthsAll_of_empty children (above + 1) h
  | .not child, above, h => by
      simp only [Condition.isEmpty] at h
      simp only [Condition.leafDepths]
      exact leafDepths_of_empty child (above + 1) h
  | .native piece, above, h => by
      exact absurd h (by simp only [Condition.isEmpty, reduceCtorEq, not_false_eq_true])

theorem leafDepthsAll_of_empty :
    ∀ (children : List Condition) (above : Nat), Condition.allEmpty children = true →
      Condition.leafDepthsAll children above = []
  | [], above, _ => by
      simp only [Condition.leafDepthsAll]
  | child :: rest, above, h => by
      simp only [Condition.allEmpty, Bool.and_eq_true] at h
      simp only [Condition.leafDepthsAll]
      rw [leafDepths_of_empty child above h.1, leafDepthsAll_of_empty rest above h.2,
        List.nil_append]

end

mutual

/-- Every node on the way into a condition leads to a leaf, so the deepest leaf is as deep
    as the deepest node. -/
theorem leafDepths_le_iff (limit : Nat) :
    ∀ (c : Condition) (above : Nat), c.nativeFree = true → c.isEmpty = false →
      ((∀ depth ∈ c.leafDepths above, depth ≤ limit) ↔ above + c.height ≤ limit)
  | .simple leaf, above, _, _ => by
      simp only [Condition.leafDepths, Condition.height, List.forall_mem_singleton]
  | .and children, above, hnative, hne => by
      simp only [Condition.nativeFree] at hnative
      simp only [Condition.isEmpty] at hne
      simp only [Condition.leafDepths, Condition.height]
      rw [leafDepthsAll_le_iff limit children (above + 1) hnative hne]
      -- The children stand one below, which the height counts.
      omega
  | .or children, above, hnative, hne => by
      simp only [Condition.nativeFree] at hnative
      simp only [Condition.isEmpty] at hne
      simp only [Condition.leafDepths, Condition.height]
      rw [leafDepthsAll_le_iff limit children (above + 1) hnative hne]
      omega
  | .not child, above, hnative, hne => by
      simp only [Condition.nativeFree] at hnative
      simp only [Condition.isEmpty] at hne
      simp only [Condition.leafDepths, Condition.height]
      rw [leafDepths_le_iff limit child (above + 1) hnative hne]
      omega
  | .native piece, above, hnative, _ => by
      exact absurd hnative (by simp only [Condition.nativeFree, reduceCtorEq, not_false_eq_true])

/-- The same for conditions that are not all empty. -/
theorem leafDepthsAll_le_iff (limit : Nat) :
    ∀ (children : List Condition) (above : Nat), Condition.allNativeFree children = true →
      Condition.allEmpty children = false →
      ((∀ depth ∈ Condition.leafDepthsAll children above, depth ≤ limit) ↔
        above + Condition.heightAll children ≤ limit)
  | [], above, _, hne => by
      exact absurd hne (by simp only [Condition.allEmpty, reduceCtorEq, not_false_eq_true])
  | child :: rest, above, hnative, hne => by
      simp only [Condition.allNativeFree, Bool.and_eq_true] at hnative
      simp only [Condition.leafDepthsAll, Condition.heightAll, List.forall_mem_append]
      cases hchild : child.isEmpty with
      | true =>
          -- The child is not among the nodes of the walk, so the rest is not all empty.
          have hrest : Condition.allEmpty rest = false := by
            simpa only [Condition.allEmpty, hchild, Bool.true_and] using hne
          rw [if_pos rfl, leafDepths_of_empty child above hchild,
            leafDepthsAll_le_iff limit rest above hnative.2 hrest]
          simp only [List.not_mem_nil, false_implies, implies_true, true_and]
      | false =>
          have hfirst := leafDepths_le_iff limit child above hnative.1 hchild
          rw [if_neg Bool.false_ne_true, hfirst]
          -- If the rest is all empty the hypothesis says nothing of it, but then it has no height.
          cases hrest : Condition.allEmpty rest with
          | true =>
              rw [leafDepthsAll_of_empty rest above hrest, heightAll_of_empty rest hrest,
                Nat.max_zero]
              simp only [List.not_mem_nil, false_implies, implies_true, and_true]
          | false =>
              rw [leafDepthsAll_le_iff limit rest above hnative.2 hrest]
              omega

end

namespace Interpretation

variable {φ : Type} (t : Interpretation φ)

/-- What is wrong with a node by itself. The depth is looked at first, whatever the node
    is; a connective and a negation have nothing else that could be wrong with them. -/
def fault? (maxDepth : Nat) (visit : Visit) : Option CompileError :=
  if maxDepth < visit.depth then some (.depthExceeded maxDepth)
  else match visit.node with
    | .simple leaf => errorOf? (t.simple leaf ⟨visit.negated, visit.depth, maxDepth⟩)
    | .native piece => if visit.negated then some .negatedNative else errorOf? (t.native piece)
    | _ => none

/-- At the limit the first node of a condition is already too deep, whatever it is. -/
theorem condition_fault_of_full (c : Condition) (ctx : WalkContext)
    (h : ctx.maxDepth ≤ ctx.depth) :
    errorOf? (t.condition c ctx) =
      (c.visits ctx.negated ctx.depth).findSome? (t.fault? ctx.maxDepth) := by
  have hdeep : ctx.maxDepth < ctx.depth + 1 := by omega
  rw [condition_of_full t c ctx h]
  -- The first node on the list is the condition itself, so the others are not asked.
  cases c <;> simp only [errorOf?, Condition.visits, List.findSome?_cons, fault?, hdeep, if_true]

/-- The error of a connective is that of its children, because it has no fault of its own
    while there is depth left. -/
theorem joined_fault (connective : Connective) (children : List Condition) (ctx : WalkContext)
    (hchildren : errorOf? (t.conditions children ctx.below) =
      (Condition.visitsAll children ctx.negated (ctx.depth + 1)).findSome?
        (t.fault? ctx.maxDepth)) :
    errorOf? (t.condition (.joined connective children) ctx) =
      ((Condition.joined connective children).visits ctx.negated ctx.depth).findSome?
        (t.fault? ctx.maxDepth) := by
  by_cases hdepth : ctx.depth < ctx.maxDepth
  · have hlimit : ¬ ctx.maxDepth < ctx.depth + 1 := by omega
    rw [condition_joined t connective children ctx hdepth, errorOf?_map, hchildren]
    cases connective <;>
      simp only [Condition.joined, Condition.visits, List.findSome?_cons, fault?, hlimit, if_false]
  · exact condition_fault_of_full t _ ctx (Nat.le_of_not_lt hdepth)

mutual

/-- The error of a walk is the fault of the first node that has one. -/
theorem condition_fault :
    ∀ (c : Condition) (ctx : WalkContext),
      errorOf? (t.condition c ctx) =
        (c.visits ctx.negated ctx.depth).findSome? (t.fault? ctx.maxDepth)
  | .simple leaf, ctx => by
      by_cases hdepth : ctx.depth < ctx.maxDepth
      · have hlimit : ¬ ctx.maxDepth < ctx.depth + 1 := by omega
        simp only [condition, descend_of_lt ctx hdepth, ok_bind, Condition.visits,
          List.findSome?_singleton, fault?, hlimit, if_false]
        rfl
      · exact condition_fault_of_full t _ ctx (Nat.le_of_not_lt hdepth)
  | .and children, ctx =>
      joined_fault t .and children ctx (conditions_fault children ctx.below)
  | .or children, ctx =>
      joined_fault t .or children ctx (conditions_fault children ctx.below)
  | .not child, ctx => by
      by_cases hdepth : ctx.depth < ctx.maxDepth
      · have hlimit : ¬ ctx.maxDepth < ctx.depth + 1 := by omega
        have hchild := condition_fault child ctx.below.flip
        rw [condition_not t child ctx hdepth, hchild]
        simp only [Condition.visits, List.findSome?_cons, fault?, hlimit, if_false]
        -- The context of the child is the one it is listed with.
        rfl
      · exact condition_fault_of_full t _ ctx (Nat.le_of_not_lt hdepth)
  | .native piece, ctx => by
      by_cases hdepth : ctx.depth < ctx.maxDepth
      · have hlimit : ¬ ctx.maxDepth < ctx.depth + 1 := by omega
        simp only [condition, descend_of_lt ctx hdepth, ok_bind, Condition.visits,
          List.findSome?_singleton, fault?, hlimit, if_false, WalkContext.below]
        cases ctx.negated <;> rfl
      · exact condition_fault_of_full t _ ctx (Nat.le_of_not_lt hdepth)

/-- The first fault of several conditions is that of the first one that has any. -/
theorem conditions_fault :
    ∀ (children : List Condition) (ctx : WalkContext),
      errorOf? (t.conditions children ctx) =
        (Condition.visitsAll children ctx.negated ctx.depth).findSome? (t.fault? ctx.maxDepth)
  | [], ctx => by
      simp only [conditions, Condition.visitsAll, List.findSome?_nil]
      rfl
  | child :: rest, ctx => by
      have hrest := conditions_fault rest ctx
      cases hempty : child.isEmpty with
      | true =>
          rw [conditions_empty t child rest ctx hempty, hrest]
          simp only [Condition.visitsAll, hempty, if_true]
      | false =>
          rw [conditions_cons t child rest ctx hempty, errorOf?_bind, hrest,
            condition_fault child ctx]
          simp only [Condition.visitsAll, hempty, Bool.false_eq_true, if_false,
            List.findSome?_append]

end

/-- A condition compiles when no node of it has a fault. -/
theorem condition_ok_iff (c : Condition) (ctx : WalkContext) :
    (∃ f, t.condition c ctx = .ok f) ↔
      ∀ visit ∈ c.visits ctx.negated ctx.depth, t.fault? ctx.maxDepth visit = none := by
  rw [← errorOf?_eq_none, condition_fault t c ctx]
  exact List.findSome?_eq_none_iff

/-- A node that is no native piece has no fault if it is not too deep and, where it is a
    leaf, the backend compiles it. -/
theorem fault_eq_none_iff (maxDepth : Nat) (visit : Visit) (h : visit.node.isNative = false) :
    t.fault? maxDepth visit = none ↔ visit.depth ≤ maxDepth ∧
      ∀ leaf, visit.leaf? = some leaf →
        ∃ f, t.simple leaf ⟨visit.negated, visit.depth, maxDepth⟩ = .ok f := by
  unfold fault? Visit.leaf?
  by_cases hdeep : maxDepth < visit.depth
  · have hlimit : ¬ visit.depth ≤ maxDepth := by omega
    simp only [hdeep, if_true, reduceCtorEq, hlimit, false_and]
  · have hlimit : visit.depth ≤ maxDepth := by omega
    simp only [hdeep, if_false, hlimit, true_and]
    cases hnode : visit.node with
    | simple leaf =>
        simp only [Option.some.injEq, forall_eq']
        exact errorOf?_eq_none
    | native piece =>
        rw [hnode] at h
        exact absurd h (by simp only [Condition.isNative, reduceCtorEq, not_false_eq_true])
    | _ => simp only [reduceCtorEq, false_implies, implies_true]

/-- The conditions with a filter, for a backend to which the context of a leaf makes no
    difference: those that are not too high and whose leaves compile. -/
theorem filter_ok_iff (c : Condition) (maxDepth : Nat) (hnative : c.nativeFree = true)
    (hne : c.isEmpty = false) (compiles : SimpleCondition → Prop)
    (hleaf : ∀ leaf ∈ c.leaves, ∀ ctx, (∃ f, t.simple leaf ctx = .ok f) ↔ compiles leaf) :
    (∃ f, t.filter (some c) maxDepth = .ok (some f)) ↔
      c.height ≤ maxDepth ∧ ∀ leaf ∈ c.leaves, compiles leaf := by
  have hroot : (∃ f, t.filter (some c) maxDepth = .ok (some f)) ↔
      ∃ f, t.condition c (.root maxDepth) = .ok f := by
    simp only [filter, hne, Bool.false_eq_true, if_false]
    cases t.condition c (.root maxDepth) with
    | error e => simp only [Except.map, reduceCtorEq, exists_false]
    | ok f => simp only [Except.map, Except.ok.injEq, Option.some.injEq, exists_eq']
  have hheight := visits_depth_le_iff maxDepth c false 0
  rw [Nat.zero_add] at hheight
  have hmem : ∀ leaf, leaf ∈ c.leaves ↔ ∃ visit ∈ c.visits false 0, visit.leaf? = some leaf := by
    intro leaf
    rw [← visits_leaves c false 0, List.mem_filterMap]
  rw [hroot, condition_ok_iff, ← hheight]
  -- Both sides are about the same nodes: the height about all, the leaves about some.
  constructor
  · intro hnone
    have hvisit := fun visit hin =>
      (t.fault_eq_none_iff maxDepth visit (visits_nativeFree c false 0 hnative visit hin)).mp
        (hnone visit hin)
    refine ⟨fun visit hin => (hvisit visit hin).1, ?_⟩
    intro leaf hleaves
    rcases (hmem leaf).mp hleaves with ⟨visit, hin, heq⟩
    exact (hleaf leaf hleaves _).mp ((hvisit visit hin).2 leaf heq)
  · rintro ⟨hdepth, hcompiles⟩ visit hin
    refine (t.fault_eq_none_iff maxDepth visit
      (visits_nativeFree c false 0 hnative visit hin)).mpr ⟨hdepth visit hin, ?_⟩
    intro leaf heq
    have hleaves := (hmem leaf).mpr ⟨visit, hin, heq⟩
    exact (hleaf leaf hleaves _).mpr (hcompiles leaf hleaves)

/-- A filter without native pieces fails because its condition is too high or because a leaf
    fails. -/
theorem filter_error (condition : Option Condition) (maxDepth : Nat)
    (hnative : ∀ c, condition = some c → c.nativeFree = true) (e : CompileError)
    (h : t.filter condition maxDepth = .error e) :
    (∃ c, condition = some c ∧ c.isEmpty = false ∧ maxDepth < c.height ∧
      e = .depthExceeded maxDepth) ∨
    ∃ leaf ∈ leavesOf condition, ∃ ctx, t.simple leaf ctx = .error e := by
  cases hcondition : condition with
  | none =>
      rw [hcondition] at h
      exact absurd h (by simp only [filter, reduceCtorEq, not_false_eq_true])
  | some c =>
      rw [hcondition] at h
      cases hempty : c.isEmpty with
      | true =>
          exact absurd h (by simp only [filter, hempty, if_true, reduceCtorEq, not_false_eq_true])
      | false =>
          simp only [filter, hempty, Bool.false_eq_true, if_false] at h
          rw [← errorOf?_eq_some, errorOf?_map, condition_fault] at h
          rcases List.exists_of_findSome?_eq_some h with ⟨visit, hvisit, hfault⟩
          unfold fault? at hfault
          split at hfault
          · rename_i hdeep
            refine .inl ⟨c, rfl, hempty, ?_, (Option.some.inj hfault).symm⟩
            -- A node that is too deep makes the condition too high.
            have hheight := visits_depth_le_iff maxDepth c false 0
            have hnot : ¬ ∀ visit ∈ c.visits false 0, visit.depth ≤ maxDepth := by
              intro hall
              exact absurd hdeep (Nat.not_lt.mpr (hall visit hvisit))
            rw [hheight] at hnot
            omega
          · cases hnode : visit.node with
            | simple leaf =>
                rw [hnode] at hfault
                have hfound : visit.leaf? = some leaf := by simp only [Visit.leaf?, hnode]
                refine .inr ⟨leaf, ?_, _, errorOf?_eq_some.mp hfault⟩
                rw [leavesOf_some, ← visits_leaves c false 0, List.mem_filterMap]
                exact ⟨visit, hvisit, hfound⟩
            | native piece =>
                have hplain := visits_nativeFree c false 0 (hnative c hcondition) visit hvisit
                rw [hnode] at hplain
                exact absurd hplain (by simp only [Condition.isNative, reduceCtorEq,
                  not_false_eq_true])
            | _ =>
                rw [hnode] at hfault
                exact absurd hfault (by simp only [reduceCtorEq, not_false_eq_true])

/-- The outcome of every walk. A condition compiles when no node has a fault, and otherwise
    the walk ends with the fault of the first node that has one, whatever the nodes after it
    are. If leaves never fail, a condition without native pieces has a filter exactly when
    none of its leaves lies deeper than the limit. -/
theorem condition_outcome (c : Condition) (ctx : WalkContext) :
    ((∃ f, t.condition c ctx = .ok f) ↔
      ∀ visit ∈ c.visits ctx.negated ctx.depth, t.fault? ctx.maxDepth visit = none) ∧
    (∀ e, t.condition c ctx = .error e ↔
      ∃ before visit after, c.visits ctx.negated ctx.depth = before ++ visit :: after ∧
        t.fault? ctx.maxDepth visit = some e ∧
        ∀ earlier ∈ before, t.fault? ctx.maxDepth earlier = none) ∧
    ((∀ leaf ctx, ∃ f, t.simple leaf ctx = .ok f) → c.nativeFree = true → c.isEmpty = false →
      ∀ maxDepth, (∃ f, t.filter (some c) maxDepth = .ok (some f)) ↔
        ∀ depth ∈ c.leafDepths 0, depth ≤ maxDepth) := by
  refine ⟨condition_ok_iff t c ctx, ?_, ?_⟩
  · intro e
    rw [← errorOf?_eq_some, condition_fault t c ctx]
    exact List.findSome?_eq_some_iff
  · intro hleaf hnative hne maxDepth
    have hfilter := filter_ok_iff t c maxDepth hnative hne (fun _ => True)
      (fun leaf _ ctx => iff_of_true (hleaf leaf ctx) trivial)
    rw [hfilter, leafDepths_le_iff maxDepth c 0 hnative hne, Nat.zero_add]
    exact and_iff_left fun _ _ => trivial

end Interpretation

/-- A native piece that is turned around, before a leaf that lies deeper. -/
def sampleFaulty : Condition :=
  .and [
    .or [],
    .not (.or [.native ⟨1, "text", .text "raw"⟩]),
    .not (.not (.not (.simple ⟨.property "nick" none, .isNull, none⟩)))]

/-- A condition as high as the limit, the same one above it, and one of whose two faults the
    walk reports the first. -/
theorem condition_outcome_sample :
    (∃ f, depthInterpretation.filter (some sampleCondition) 4 = .ok (some f)) ∧
      (¬ ∃ f, depthInterpretation.filter (some sampleCondition) 3 = .ok (some f)) ∧
      depthInterpretation.condition sampleFaulty (.root 4) = .error .negatedNative := by
  have houtcome := Interpretation.condition_outcome depthInterpretation sampleCondition (.root 4)
  have hfilter := houtcome.2.2 (fun _ ctx => ⟨[ctx.depth], rfl⟩) rfl rfl
  have hfaulty := Interpretation.condition_outcome depthInterpretation sampleFaulty (.root 4)
  refine ⟨?_, ?_, ?_⟩
  · rw [hfilter 4]
    decide
  · rw [hfilter 3]
    decide
  · rw [hfaulty.2.1]
    exact ⟨[_, _, _], _, [_, _, _, _], rfl, rfl, by decide⟩

end Polyquery
