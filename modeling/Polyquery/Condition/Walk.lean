import Polyquery.Condition

/-!
# The Walk over a Condition

How every backend compiles a condition. The walk carries a flag from the
root that says whether the condition is to be turned around, instead of
building a turned tree: `not` flips the flag, and a connective under the flag
is replaced by the other one. Leaves receive the flag and realise it with
`Polarity`, so null means the same to every backend.

What differs between backends is an `Interpretation`: what to do with a
comparison, with a native piece, and with several parts under a connective.
Children that are empty are left out, and a connective with a single part left
is that part.

Every node on the way down counts towards a depth limit.

## Main definitions

* `WalkContext`: The flag, the depth and its limit.
* `Connective`: The two ways of joining, and how the flag swaps them.
* `Polarity`: A leaf operator under the flag.
* `Interpretation`: What a backend does with the parts of a condition.
* `Interpretation.condition`: The walk.
* `Interpretation.filter`: The walk over an optional condition.
-/

namespace Polyquery

/-- Where the walk stands. -/
structure WalkContext where
  /-- Whether the condition is turned around. -/
  negated : Bool
  /-- The number of nodes on the way from the root. -/
  depth : Nat
  maxDepth : Nat
  deriving Repr, DecidableEq

namespace WalkContext

/-- The context above the root. -/
def root (maxDepth : Nat) : WalkContext :=
  ⟨false, 0, maxDepth⟩

/-- The context with the flag turned. -/
def flip (ctx : WalkContext) : WalkContext :=
  { ctx with negated := !ctx.negated }

/-- The context of a node below, unless the limit is reached. -/
def descend (ctx : WalkContext) : Except CompileError WalkContext :=
  if ctx.maxDepth ≤ ctx.depth then .error (.depthExceeded ctx.maxDepth)
  else .ok { ctx with depth := ctx.depth + 1 }

end WalkContext

/-- How several parts are joined. -/
inductive Connective where
  | and
  | or
  deriving Repr, DecidableEq

/-- The connective that stands for another one under the flag. -/
def Connective.under : Connective → (negated : Bool) → Connective
  | connective, false => connective
  | .and, true => .or
  | .or, true => .and

/-- A leaf operator under the flag. -/
structure Polarity where
  operator : Operator
  /-- Whether the operator is to be turned around where its left side is not null. -/
  wrapped : Bool
  deriving Repr, DecidableEq

/-- The operator of a leaf under the flag. An operator with a complement is replaced
    by it; the others stay and are wrapped, so that they go on to exclude null. -/
def Polarity.of (operator : Operator) : (negated : Bool) → Polarity
  | false => ⟨operator, false⟩
  | true =>
    match operator.complement? with
    | some complement => ⟨complement, false⟩
    | none => ⟨operator, true⟩

/-- What a backend does with the parts of a condition. -/
structure Interpretation (φ : Type) where
  simple : SimpleCondition → WalkContext → Except CompileError φ
  /-- Native pieces are never turned around. -/
  native : Native → Except CompileError φ
  combine : Connective → List φ → φ
  /-- The filter that restricts nothing. -/
  matchAll : φ

namespace Interpretation

variable {φ : Type}

/-- Several parts under a connective. -/
def assemble (t : Interpretation φ) (connective : Connective) (ctx : WalkContext) : List φ → φ
  | [] => t.matchAll
  | [part] => part
  | parts => t.combine (connective.under ctx.negated) parts

mutual

/-- The compiled form of a condition. -/
def condition (t : Interpretation φ) : Condition → WalkContext → Except CompileError φ
  | .simple leaf, ctx => do
    let ctx ← ctx.descend
    t.simple leaf ctx
  | .and children, ctx => do
    let ctx ← ctx.descend
    let parts ← t.conditions children ctx
    return t.assemble .and ctx parts
  | .or children, ctx => do
    let ctx ← ctx.descend
    let parts ← t.conditions children ctx
    return t.assemble .or ctx parts
  | .not child, ctx => do
    let ctx ← ctx.descend
    t.condition child ctx.flip
  | .native piece, ctx => do
    let ctx ← ctx.descend
    -- The depth is checked first, as for every node.
    if ctx.negated then throw .negatedNative
    t.native piece

/-- The compiled forms of those children that are not empty. -/
def conditions (t : Interpretation φ) : List Condition → WalkContext → Except CompileError (List φ)
  | [], _ => .ok []
  | child :: rest, ctx =>
    if child.isEmpty then t.conditions rest ctx
    else do
      let part ← t.condition child ctx
      let parts ← t.conditions rest ctx
      return part :: parts

end

/-- The compiled form of an optional condition. An empty one counts as absent. -/
def filter (t : Interpretation φ) (condition : Option Condition) (maxDepth : Nat) :
    Except CompileError (Option φ) :=
  match condition with
  | none => .ok none
  | some c => if c.isEmpty then .ok none else (t.condition c (.root maxDepth)).map some

end Interpretation

end Polyquery
