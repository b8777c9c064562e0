import Polyquery.Proofs.Condition.Equations
import Polyquery.Proofs.Condition.Natives

/-!
# The Filter of a Condition

What the walk makes of a condition, told without the walk. The filter is the condition
itself: the test of each comparison stands where the comparison is, a native piece
stands where the piece is, and a connective joins what its children have become. The
flag of the negations above a part is told with the part. Nothing is said here of
depths, of errors and of what counts as empty.

A part without a comparison and without a native piece has no filter, and a connective
passes over it. So whether a condition has a filter is told by the same recursion, and
it has one exactly when it is not empty (`render_isSome`). If the walk succeeds, then
it has made this filter (`filter_rendered`), and a backend has to say only what it makes
of one piece.

The filter is told with the connectives of the backend, and these might lose what they
join. `Gathers` says of a backend that they do not. A native piece is then a part of the
filter, at whatever depth it lies in the condition (`Gathers.piece`).

## Main definitions

* `Interpretation.render`: The filter of a condition.
* `Interpretation.Renders`: A backend that is known by what it makes of a native piece.
* `Interpretation.Gathers`: A backend whose filters have as parts what they join.
* `Interpretation.FilterOf`: The filter of an optional condition, with all its pieces.

## Theorems

* `render_isSome`: The conditions with a filter.
* `condition_rendered`, `conditions_rendered`: The walk, by induction on the tree.
* `filter_rendered`: The filter of a query.
* `Gathers.piece`, `Gathers.filterOf`: The native pieces in a filter.
-/

namespace Polyquery.Interpretation

variable {φ : Type} (t : Interpretation φ)

/-- The test of a comparison under the flag, at whatever depth. -/
def leaf (comparison : SimpleCondition) (negated : Bool) : φ :=
  match t.simple comparison ⟨negated, 0, 0⟩ with
  | .ok test => test
  | .error _ => t.matchAll

/-- Filters under a connective. A single one stands for itself. -/
def joined (connective : Connective) : List φ → Option φ
  | [] => none
  | [part] => some part
  | parts => some (t.combine connective parts)

section Rendering

variable (native : Native → φ)

mutual

/-- The filter of a condition under the flag, where `native` says what a piece becomes. -/
def render : Condition → (negated : Bool) → Option φ
  | .simple comparison, negated => some (t.leaf comparison negated)
  | .and children, negated => t.joined (Connective.and.under negated) (renderAll children negated)
  | .or children, negated => t.joined (Connective.or.under negated) (renderAll children negated)
  | .not child, negated => render child !negated
  | .native piece, _ => some (native piece)

/-- The filters of those conditions that have one. -/
def renderAll : List Condition → (negated : Bool) → List φ
  | [], _ => []
  | child :: rest, negated => (render child negated).toList ++ renderAll rest negated

end

theorem joined_isSome (connective : Connective) (parts : List φ) :
    (t.joined connective parts).isSome = !parts.isEmpty := by
  match parts with
  | [] | [_] | _ :: _ :: _ => rfl

mutual

/-- The conditions with a filter are those that are not empty. -/
theorem render_isSome : ∀ (c : Condition) (negated : Bool),
    (t.render native c negated).isSome = !c.isEmpty
  | .simple _, _ | .native _, _ => by
      rw [render, Condition.isEmpty]
      rfl
  | .and children, negated => by
      rw [render, Condition.isEmpty, joined_isSome, renderAll_isEmpty]
  | .or children, negated => by
      rw [render, Condition.isEmpty, joined_isSome, renderAll_isEmpty]
  | .not child, negated => by
      rw [render, Condition.isEmpty, render_isSome child]

theorem renderAll_isEmpty : ∀ (children : List Condition) (negated : Bool),
    (t.renderAll native children negated).isEmpty = Condition.allEmpty children
  | [], _ => by
      rw [renderAll, Condition.allEmpty]
      rfl
  | child :: rest, negated => by
      rw [renderAll, Condition.allEmpty, ← renderAll_isEmpty rest negated,
        ← Bool.not_not child.isEmpty, ← render_isSome child negated]
      cases t.render native child negated <;> rfl

end

theorem render_empty {c : Condition} (h : c.isEmpty = true) (negated : Bool) :
    t.render native c negated = none := by
  rw [← Option.not_isSome_iff_eq_none, render_isSome, h]
  exact Bool.false_ne_true

theorem render_nonempty {c : Condition} (h : c.isEmpty = false) (negated : Bool) :
    ∃ f, t.render native c negated = some f := by
  rw [← Option.isSome_iff_exists, render_isSome, h]
  rfl

end Rendering

/-- A backend that looks at the flag only of all that lies above a comparison, and makes of a
    native piece what is said. -/
structure Renders (native : Native → φ) : Prop where
  simple : ∀ comparison ctx, t.simple comparison ctx = t.simple comparison ⟨ctx.negated, 0, 0⟩
  native : ∀ piece f, t.native piece = .ok f → native piece = f

theorem negated_of_descend {ctx below : WalkContext} (h : ctx.descend = .ok below) :
    below.negated = ctx.negated := by
  unfold WalkContext.descend at h
  split at h
  · exact absurd h (by rintro ⟨⟩)
  · rw [← Except.ok.inj h]

section Walking

variable {t} {native : Native → φ}

theorem Renders.leaf (h : t.Renders native) {comparison : SimpleCondition} {ctx : WalkContext}
    {f : φ} (hf : t.simple comparison ctx = .ok f) : t.leaf comparison ctx.negated = f := by
  rw [Interpretation.leaf, ← h.simple comparison ctx, hf]

/-- The node of a connective, once its children are rendered. They are not all empty, so there is
    something to join. -/
theorem joined_rendered (connective : Connective) (children : List Condition) (ctx : WalkContext)
    (hne : Condition.allEmpty children = false) :
    t.joined (connective.under ctx.negated) (t.renderAll native children ctx.negated) =
      some (t.assemble connective ctx (t.renderAll native children ctx.negated)) := by
  rw [← t.renderAll_isEmpty native children ctx.negated] at hne
  match t.renderAll native children ctx.negated, hne with
  | [_], _ | _ :: _ :: _, _ => rfl

mutual

/-- The walk makes the filter of a condition, under the flag that it has come with. -/
theorem condition_rendered (h : t.Renders native) :
    ∀ (c : Condition) (ctx : WalkContext) (f : φ), c.isEmpty = false →
      t.condition c ctx = .ok f → t.render native c ctx.negated = some f
  | .simple comparison, ctx, f, _, hf => by
      rcases bind_eq_ok.mp hf with ⟨below, hbelow, hsimple⟩
      rw [render, ← negated_of_descend hbelow, h.leaf hsimple]
  | .and children, ctx, f, hne, hf => by
      rcases bind_eq_ok.mp hf with ⟨below, hbelow, hf⟩
      rcases bind_eq_ok.mp hf with ⟨parts, hparts, hf⟩
      rw [Condition.isEmpty] at hne
      rw [render, ← negated_of_descend hbelow, joined_rendered .and children below hne,
        conditions_rendered h children below parts hparts]
      exact congrArg some (Except.ok.inj hf)
  | .or children, ctx, f, hne, hf => by
      rcases bind_eq_ok.mp hf with ⟨below, hbelow, hf⟩
      rcases bind_eq_ok.mp hf with ⟨parts, hparts, hf⟩
      rw [Condition.isEmpty] at hne
      rw [render, ← negated_of_descend hbelow, joined_rendered .or children below hne,
        conditions_rendered h children below parts hparts]
      exact congrArg some (Except.ok.inj hf)
  | .not child, ctx, f, hne, hf => by
      rcases bind_eq_ok.mp hf with ⟨below, hbelow, hf⟩
      rw [Condition.isEmpty] at hne
      -- A negation flips the polarity below it and adds no node of its own.
      rw [render, ← negated_of_descend hbelow]
      exact condition_rendered h child below.flip f hne hf
  | .native piece, ctx, f, _, hf => by
      rcases bind_eq_ok.mp hf with ⟨below, _, hf⟩
      dsimp only at hf
      -- Under an odd number of negations the piece is refused.
      split at hf
      · exact absurd hf (by rintro ⟨⟩)
      · rw [render, h.native piece f hf]

/-- The children of a node are walked one by one. -/
theorem conditions_rendered (h : t.Renders native) :
    ∀ (children : List Condition) (ctx : WalkContext) (parts : List φ),
      t.conditions children ctx = .ok parts → t.renderAll native children ctx.negated = parts
  | [], _, _, hparts => by
      rw [← Except.ok.inj hparts, renderAll]
  | child :: rest, ctx, parts, hparts => by
      cases hempty : child.isEmpty with
      | true =>
          rw [conditions_empty t child rest ctx hempty] at hparts
          rw [renderAll, t.render_empty native hempty, conditions_rendered h rest ctx parts hparts]
          rfl
      | false =>
          rw [conditions_cons t child rest ctx hempty] at hparts
          rcases bind_eq_ok.mp hparts with ⟨first, hfirst, hparts⟩
          rcases bind_eq_ok.mp hparts with ⟨others, hothers, hparts⟩
          rw [renderAll, condition_rendered h child ctx first hempty hfirst,
            conditions_rendered h rest ctx others hothers, ← Except.ok.inj hparts]
          rfl

end

/-- The filter of an optional condition is its rendering from the root. -/
theorem filter_rendered (h : t.Renders native) {condition : Option Condition} {maxDepth : Nat}
    {f : Option φ} (hf : t.filter condition maxDepth = .ok f) :
    f = condition.bind fun c => t.render native c false := by
  cases condition with
  | none => exact (Except.ok.inj hf).symm
  | some c =>
      cases hempty : c.isEmpty with
      | true =>
          simp only [filter, hempty, if_true] at hf
          rw [← Except.ok.inj hf, Option.bind_some, t.render_empty native hempty]
      | false =>
          simp only [filter, hempty, Bool.false_eq_true, if_false] at hf
          rcases map_eq_ok.mp hf with ⟨compiled, hcompiled, rfl⟩
          exact (condition_rendered h c (.root maxDepth) compiled hempty hcompiled).symm

end Walking

/-- A backend joins filters into one that has them as parts. -/
structure Gathers (Part : φ → φ → Prop) : Prop where
  alone : ∀ f, Part f f
  joined : ∀ connective parts part f, part ∈ parts → Part f part →
    Part f (t.combine connective parts)

/-- The filter of an optional condition. Every native piece of the condition is a part of it. -/
structure FilterOf (native : Native → φ) (Part : φ → φ → Prop) (condition : Option Condition)
    (filter : Option φ) : Prop where
  rendered : filter = condition.bind fun c => t.render native c false
  pieces : ∀ c piece turns, condition = some c → c.Holds piece turns →
    ∃ f, filter = some f ∧ Part (native piece) f

section Gathering

variable {t} {native : Native → φ} {Part : φ → φ → Prop}

/-- The filter of a child is among those that are joined. -/
theorem mem_renderAll {children : List Condition} {child : Condition} {negated : Bool} {f : φ}
    (hmem : child ∈ children) (hf : t.render native child negated = some f) :
    f ∈ t.renderAll native children negated := by
  induction children with
  | nil => exact absurd hmem List.not_mem_nil
  | cons first rest ih =>
      rw [renderAll, List.mem_append]
      rcases List.mem_cons.mp hmem with rfl | hrest
      · exact .inl (Option.mem_toList.mpr hf)
      · exact .inr (ih hrest)

/-- A part of a filter stays a part under a connective. A single filter stands for itself. -/
theorem Gathers.under (h : t.Gathers Part) (connective : Connective) {parts : List φ} {part f : φ}
    (hmem : part ∈ parts) (hpart : Part f part) :
    ∃ whole, t.joined connective parts = some whole ∧ Part f whole := by
  match parts, hmem with
  | [only], hmem =>
      rw [List.mem_singleton.mp hmem] at hpart
      exact ⟨only, rfl, hpart⟩
  | first :: second :: rest, hmem =>
      exact ⟨_, rfl, h.joined connective (first :: second :: rest) part f hmem hpart⟩

/-- A native piece is a part of the filter of its condition, by induction on the way to it. -/
theorem Gathers.piece (h : t.Gathers Part) {c : Condition} {piece : Native} {turns : Nat}
    (hholds : c.Holds piece turns) (negated : Bool) :
    ∃ f, t.render native c negated = some f ∧ Part (native piece) f := by
  induction hholds generalizing negated with
  | here =>
      rw [render]
      exact ⟨native piece, rfl, h.alone _⟩
  | and children child turns hmem _ ih =>
      rcases ih negated with ⟨f, hf, hpart⟩
      rw [render]
      exact h.under _ (mem_renderAll hmem hf) hpart
  | or children child turns hmem _ ih =>
      rcases ih negated with ⟨f, hf, hpart⟩
      rw [render]
      exact h.under _ (mem_renderAll hmem hf) hpart
  | not child turns _ ih =>
      -- The flag is no part of the filter, so the child may be rendered under any.
      rw [render]
      exact ih !negated

/-- The rendering of an optional condition is its filter. -/
theorem Gathers.filterOf (h : t.Gathers Part) {condition : Option Condition} {filter : Option φ}
    (hfilter : filter = condition.bind fun c => t.render native c false) :
    t.FilterOf native Part condition filter where
  rendered := hfilter
  pieces := by
    rintro c piece turns rfl hholds
    rw [hfilter]
    exact h.piece hholds false

end Gathering

end Polyquery.Interpretation
