import Polyquery.Memory.Filter
import Polyquery.Mongo.Filter
import Polyquery.Proofs.Condition.Place
import Polyquery.Search.Filter
import Polyquery.Sql.Filter

/-!
# Wrappers that Say Nothing

A connective around a single condition says what the condition says, and so
does a condition that is turned around twice. Such wrappers turn up when
conditions are put together by programs. They cost depth, since every node
counts towards the limit, and this module shows that they cost nothing else:
with a wrapper around a part of a condition the outcome is the old one, be it
a filter or an error, or the limit is exceeded, and that only if the condition
with the wrapper is too high for the depth that is left.

This asks of a backend that it compiles a comparison in the same way at every
depth. `condition_below` then says what a node further down makes of a
condition: nothing but that the limit may be nearer. A wrapper puts its content
one or two nodes further down, where the flag is the same as before, and from
there `fill_same` carries the outcome to the root.

## Main definitions

* `Interpretation.DepthBlind`: The depth of a comparison makes no difference.
* `Condition.Wraps`: The wrappers.

## Theorems

* `condition_below`, `conditions_below`: A condition one node further down.
* `wrapper_same`: A condition with a wrapper around it.
* `wrapper_costs_depth`: A wrapper anywhere in a condition, for every backend.
-/

namespace Polyquery

/-- The depth at which a comparison stands makes no difference to a backend. -/
def Interpretation.DepthBlind {φ : Type} (t : Interpretation φ) : Prop :=
  ∀ leaf ctx depth, t.simple leaf { ctx with depth := depth } = t.simple leaf ctx

/-- A condition with a wrapper around it that says nothing. A native piece cannot be turned
    around, not even twice. -/
inductive Condition.Wraps (c : Condition) : Condition → Prop where
  | alone (connective : Connective) : Wraps c (.joined connective [c])
  | twice (h : c.isNative = false) : Wraps c (.not (.not c))

theorem height_pos (c : Condition) : 0 < c.height := by
  cases c <;> simp only [Condition.height] <;> omega

theorem flip_flip (ctx : WalkContext) : ctx.flip.flip = ctx := by
  simp only [WalkContext.flip, Bool.not_not]

namespace Interpretation

variable {φ : Type} {t : Interpretation φ}

/-- Parts are joined by the flag alone. -/
theorem assemble_below (connective : Connective) (ctx : WalkContext) :
    t.assemble connective ctx.below = t.assemble connective ctx := by
  funext parts
  match parts with
  | [] => rfl
  | [_] => rfl
  | _ :: _ :: _ => rfl

/-- Where no depth is left, the limit stops a condition one node further down. -/
theorem below_of_full (c : Condition) (ctx : WalkContext)
    (h : ctx.below.maxDepth ≤ ctx.below.depth) :
    SameUnless (ctx.maxDepth < ctx.below.depth + c.height) (.depthExceeded ctx.maxDepth)
      (t.condition c ctx.below) (t.condition c ctx) := by
  have hheight := height_pos c
  have hlimit : ctx.maxDepth ≤ ctx.below.depth := h
  exact .inr ⟨by omega, condition_of_full t c ctx.below h⟩

/-- A connective one node further down, once its children are known there. -/
theorem joined_below (connective : Connective) (children : List Condition) (ctx : WalkContext)
    (hchildren : SameUnless (ctx.maxDepth < ctx.below.below.depth + Condition.heightAll children)
      (.depthExceeded ctx.maxDepth) (t.conditions children ctx.below.below)
      (t.conditions children ctx.below)) :
    SameUnless (ctx.maxDepth < ctx.below.depth + (Condition.joined connective children).height)
      (.depthExceeded ctx.maxDepth) (t.condition (.joined connective children) ctx.below)
      (t.condition (.joined connective children) ctx) := by
  by_cases hroom : ctx.below.depth < ctx.below.maxDepth
  · have hdepth : ctx.depth < ctx.maxDepth := Nat.lt_of_succ_lt hroom
    rw [condition_joined t connective children ctx.below hroom,
      condition_joined t connective children ctx hdepth, assemble_below, height_joined]
    refine (hchildren.mono ?_).map _
    simp only [WalkContext.below]
    omega
  · exact below_of_full _ ctx (Nat.le_of_not_lt hroom)

mutual

/-- One node further down a condition has the same outcome, unless it is too high for the
    depth that is left there. -/
theorem condition_below (hblind : t.DepthBlind) :
    ∀ (c : Condition) (ctx : WalkContext),
      SameUnless (ctx.maxDepth < ctx.below.depth + c.height) (.depthExceeded ctx.maxDepth)
        (t.condition c ctx.below) (t.condition c ctx)
  | .simple leaf, ctx => by
      by_cases hroom : ctx.below.depth < ctx.below.maxDepth
      · have hdepth : ctx.depth < ctx.maxDepth := Nat.lt_of_succ_lt hroom
        have hleaf : t.simple leaf ctx.below.below = t.simple leaf ctx.below :=
          hblind leaf ctx.below _
        simp only [condition, descend_of_lt ctx.below hroom, descend_of_lt ctx hdepth, ok_bind,
          hleaf]
        exact .refl _
      · exact below_of_full _ ctx (Nat.le_of_not_lt hroom)
  | .and children, ctx =>
      joined_below .and children ctx (conditions_below hblind children ctx.below)
  | .or children, ctx =>
      joined_below .or children ctx (conditions_below hblind children ctx.below)
  | .not child, ctx => by
      by_cases hroom : ctx.below.depth < ctx.below.maxDepth
      · have hdepth : ctx.depth < ctx.maxDepth := Nat.lt_of_succ_lt hroom
        have hchild := condition_below hblind child ctx.below.flip
        rw [condition_not t child ctx.below hroom, condition_not t child ctx hdepth]
        refine hchild.mono ?_
        simp only [WalkContext.below, WalkContext.flip, Condition.height]
        omega
      · exact below_of_full _ ctx (Nat.le_of_not_lt hroom)
  | .native piece, ctx => by
      by_cases hroom : ctx.below.depth < ctx.below.maxDepth
      · have hdepth : ctx.depth < ctx.maxDepth := Nat.lt_of_succ_lt hroom
        -- A native piece sees nothing of its context but the flag.
        simp only [condition, descend_of_lt ctx.below hroom, descend_of_lt ctx hdepth, ok_bind]
        exact .refl _
      · exact below_of_full _ ctx (Nat.le_of_not_lt hroom)

/-- The same for several conditions. -/
theorem conditions_below (hblind : t.DepthBlind) :
    ∀ (children : List Condition) (ctx : WalkContext),
      SameUnless (ctx.maxDepth < ctx.below.depth + Condition.heightAll children)
        (.depthExceeded ctx.maxDepth) (t.conditions children ctx.below)
        (t.conditions children ctx)
  | [], ctx => by
      simp only [conditions]
      exact .refl _
  | child :: rest, ctx => by
      cases hempty : child.isEmpty with
      | true =>
          rw [conditions_empty t child rest _ hempty, conditions_empty t child rest _ hempty]
          simp only [Condition.heightAll, hempty, if_true]
          exact conditions_below hblind rest ctx
      | false =>
          rw [conditions_cons t child rest _ hempty, conditions_cons t child rest _ hempty]
          simp only [Condition.heightAll, hempty, Bool.false_eq_true, if_false]
          -- The higher one of the child and the rest is too high.
          have hchild : SameUnless
              (ctx.maxDepth < ctx.below.depth + max child.height (Condition.heightAll rest))
              (.depthExceeded ctx.maxDepth) (t.condition child ctx.below)
              (t.condition child ctx) :=
            (condition_below hblind child ctx).mono (by omega)
          have hrest : SameUnless
              (ctx.maxDepth < ctx.below.depth + max child.height (Condition.heightAll rest))
              (.depthExceeded ctx.maxDepth) (t.conditions rest ctx.below)
              (t.conditions rest ctx) :=
            (conditions_below hblind rest ctx).mono (by omega)
          exact hchild.bind fun _ => hrest.bind fun _ => .refl _

end

/-- A connective around a single condition compiles as the condition one node further
    down. -/
theorem condition_alone (connective : Connective) (c : Condition) (hne : c.isEmpty = false)
    (ctx : WalkContext) (hdepth : ctx.depth < ctx.maxDepth) :
    t.condition (.joined connective [c]) ctx = t.condition c ctx.below := by
  rw [condition_joined t connective [c] ctx hdepth, conditions_cons t c [] ctx.below hne]
  cases t.condition c ctx.below <;> rfl

/-- A wrapper around a condition leaves its outcome as it is, unless the condition with the
    wrapper is too high. -/
theorem wrapper_same (hblind : t.DepthBlind) {c wrapped : Condition} (hwraps : c.Wraps wrapped)
    (hne : c.isEmpty = false) (ctx : WalkContext) :
    SameUnless (ctx.maxDepth < ctx.depth + wrapped.height) (.depthExceeded ctx.maxDepth)
      (t.condition wrapped ctx) (t.condition c ctx) := by
  have hbelow := condition_below hblind c
  by_cases hdepth : ctx.depth < ctx.maxDepth
  · cases hwraps with
    | alone connective =>
        have hheight : (Condition.joined connective [c]).height = c.height + 1 := by
          simp only [height_joined, Condition.heightAll, hne, Bool.false_eq_true, if_false,
            Nat.max_zero]
        rw [condition_alone connective c hne ctx hdepth, hheight]
        refine (hbelow ctx).mono ?_
        simp only [WalkContext.below]
        omega
    | twice _ =>
        have houter : t.condition (.not (.not c)) ctx = t.condition (.not c) ctx.below.flip :=
          condition_not t (.not c) ctx hdepth
        rw [houter]
        by_cases hroom : ctx.below.depth < ctx.below.maxDepth
        · have hinner : t.condition (.not c) ctx.below.flip = t.condition c ctx.below.below := by
            rw [condition_not t c ctx.below.flip hroom]
            exact congrArg _ (flip_flip ctx.below.below)
          rw [hinner]
          -- The condition has come down by two nodes, and either may have stopped it.
          refine ((hbelow ctx.below).mono ?_).trans ((hbelow ctx).mono ?_)
          · simp only [WalkContext.below, Condition.height]
            omega
          · simp only [WalkContext.below, Condition.height]
            omega
        · have hfull : ctx.below.flip.maxDepth ≤ ctx.below.flip.depth := Nat.le_of_not_lt hroom
          refine .inr ⟨?_, condition_of_full t _ ctx.below.flip hfull⟩
          simp only [WalkContext.below, Condition.height] at hroom ⊢
          omega
  · have hfull : ctx.maxDepth ≤ ctx.depth := Nat.le_of_not_lt hdepth
    rw [condition_of_full t _ ctx hfull, condition_of_full t _ ctx hfull]
    exact .refl _

end Interpretation

theorem isEmpty_wraps {c wrapped : Condition} (h : c.Wraps wrapped) :
    wrapped.isEmpty = c.isEmpty := by
  cases h with
  | alone connective =>
      rw [isEmpty_joined]
      simp only [Condition.allEmpty, Bool.and_true]
  | twice _ => simp only [Condition.isEmpty]

/-- A wrapper around a part of a condition, at any place and for any backend that is blind
    to depth, as all four backends are: the outcome is the one without the wrapper or an
    error of the depth limit, and it is the one without the wrapper as long as there is
    depth left for the condition with it. -/
theorem wrapper_costs_depth :
    (∀ schema root, (Sql.interpretation schema root).DepthBlind) ∧
    (∀ scope, (Mongo.interpretation scope).DepthBlind) ∧
    Search.interpretation.DepthBlind ∧
    (∀ clock, (rowInterpretation clock).DepthBlind) ∧
    ∀ {φ : Type} (t : Interpretation φ), t.DepthBlind →
      ∀ (place : Condition.Place) (c wrapped : Condition), c.isEmpty = false →
        c.Wraps wrapped → ∀ ctx : WalkContext,
        (t.condition (place.fill wrapped) ctx = t.condition (place.fill c) ctx ∨
          t.condition (place.fill wrapped) ctx = .error (.depthExceeded ctx.maxDepth)) ∧
        (ctx.depth + (place.fill wrapped).height ≤ ctx.maxDepth →
          t.condition (place.fill wrapped) ctx = t.condition (place.fill c) ctx) := by
  refine ⟨fun _ _ _ _ _ => rfl, fun _ _ _ _ => rfl, fun _ _ _ => rfl, fun _ _ _ _ => rfl, ?_⟩
  intro φ t hblind place c wrapped hne hwraps ctx
  have hsame := Interpretation.fill_same t
    (fun ctx => ctx.maxDepth < ctx.depth + wrapped.height) place (isEmpty_wraps hwraps)
    (Interpretation.wrapper_same hblind hwraps hne) ctx
  constructor
  · rcases hsame with heq | ⟨_, herror⟩
    · exact .inl heq
    · exact .inr herror
  · intro hroom
    have hwrapped := (isEmpty_wraps hwraps).trans hne
    have hheight := inner_height_le place wrapped hwrapped ctx
    -- A place does not change the limit, so the wrapper is not too high where it stands.
    refine hsame.eq_of_not ?_
    rw [place_maxDepth]
    omega

/-- A comparison turned around twice below a negation, in a search engine, with as much depth
    as the whole is high. -/
theorem wrapper_costs_depth_sample :
    Search.interpretation.condition
        (.not (.or [sampleCondition, .not (.not (.simple ⟨.property "nick" none, .isNull, none⟩))]))
        (.root 6) =
      Search.interpretation.condition
        (.not (.or [sampleCondition, .simple ⟨.property "nick" none, .isNull, none⟩]))
        (.root 6) :=
  (wrapper_costs_depth.2.2.2.2 Search.interpretation wrapper_costs_depth.2.2.1
    [.not, .joined .or [sampleCondition] []] (.simple ⟨.property "nick" none, .isNull, none⟩) _
    rfl (.twice rfl) (.root 6)).2 (by decide)

end Polyquery
