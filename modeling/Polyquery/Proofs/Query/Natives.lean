import Polyquery.Proofs.Condition.Natives
import Polyquery.Proofs.Condition.Rendering
import Polyquery.Proofs.Query.Portable

/-!
# Native Pieces of a Query

A native piece may stand in the filters of a query, among its sort keys, and for its
select or its group-by. Each place has rules of its own for what is a piece there. A
query is translated if all its pieces are of the right kinds, and if none in a filter
is to be turned around.

Every backend goes through the sort keys one after the other, and each in its own way:
the one from the last key back, the other with a document that it adds to. `SortWalk`
says what these have in common, so that what a key is turned into is told for one key
at a time.

## Main definitions

* `NativePosition`: The places of native pieces.
* `TranslatedIn`, `AdvancedQuery.Translated`: All pieces are translated.
* `SortWalk`: A way through the sort keys.

## Theorems

* `translatedIn_of_filter`, `rendered_of_filter`, `filterOf_of_filter`: A filter that
  compiles.
* `select_effective`, `projection_native`: A native selection has an effect.
* `SortWalk.entries`, `forall_native`: What the sort keys are turned into.
-/

namespace Polyquery

/-- The places where a native piece may stand. -/
inductive NativePosition where
  | condition
  | sort
  | select
  | groupBy
  deriving Repr, DecidableEq

/-- Every native piece in an optional condition is of a kind that is translated there, and none
    lies under an odd number of negations. -/
def TranslatedIn (accepts : NativePosition → Payload → Bool) (condition : Option Condition) :
    Prop :=
  ∀ c, condition = some c → ∀ piece turns, c.Holds piece turns →
    Even turns ∧ accepts .condition piece.payload = true

/-- Every native piece of a query is of a kind that is translated at its place. -/
structure AdvancedQuery.Translated (accepts : NativePosition → Payload → Bool)
    (q : AdvancedQuery) : Prop where
  filter : TranslatedIn accepts q.filter
  having : TranslatedIn accepts q.having
  sorts : ∀ piece, .native piece ∈ q.sorts → accepts .sort piece.payload = true
  select : ∀ piece, q.select = some (.native piece) → accepts .select piece.payload = true
  groupBy : ∀ piece, q.groupBy = some (.native piece) → accepts .groupBy piece.payload = true

section Parts

variable {accepts : NativePosition → Payload → Bool}

/-- A filter that compiles has its pieces compiled. That empty conditions are dropped before does
    not matter, for a condition with a piece is not empty. -/
theorem translatedIn_of_filter {φ : Type} {t : Interpretation φ} {condition : Option Condition}
    {maxDepth : Nat} {f : Option φ}
    (haccepts : ∀ piece compiled, t.native piece = .ok compiled →
      accepts .condition piece.payload = true)
    (h : t.filter (effectiveCondition condition) maxDepth = .ok f) :
    TranslatedIn accepts condition := by
  rintro c rfl piece turns hholds
  rw [filter_effective] at h
  rcases native_of_filter t maxDepth c f h piece turns hholds with ⟨heven, compiled, hcompiled⟩
  exact ⟨heven, haccepts piece compiled hcompiled⟩

/-- A filter that compiles is the rendering of its condition. -/
theorem rendered_of_filter {φ : Type} {t : Interpretation φ} {native : Native → φ}
    (hrenders : t.Renders native) {condition : Option Condition} {maxDepth : Nat} {f : Option φ}
    (h : t.filter (effectiveCondition condition) maxDepth = .ok f) :
    f = condition.bind fun c => t.render native c false := by
  rw [filter_effective] at h
  exact t.filter_rendered hrenders h

/-- A filter that compiles has all the native pieces of its condition as parts. -/
theorem filterOf_of_filter {φ : Type} {t : Interpretation φ} {native : Native → φ}
    {Part : φ → φ → Prop} (hrenders : t.Renders native) (hgathers : t.Gathers Part)
    {condition : Option Condition} {maxDepth : Nat} {f : Option φ}
    (h : t.filter (effectiveCondition condition) maxDepth = .ok f) :
    t.FilterOf native Part condition f :=
  hgathers.filterOf (rendered_of_filter hrenders h)

theorem select_effective {selection : Option Selection} {piece : Native}
    (h : selection = some (.native piece)) :
    effectiveSelection selection = some (.native piece) := by
  rw [h]
  rfl

theorem projection_native {parts : QueryParts} {piece : Native} {projection : Projection}
    (hselect : parts.select = some (.native piece)) (h : parts.projection = .ok projection) :
    projection = .native piece := by
  rw [QueryParts.projection, hselect] at h
  exact (Except.ok.inj h).symm

end Parts

section Sorting

variable {ι σ ε : Type} {run : ι → List SortKey → Except CompileError σ}
  {Entry : SortKey → ε → Prop} {Made : ι → List ε → σ → Prop}

/-- A way through the sort keys, from the first one on. `Entry` says what a key is turned into and
    `Made` what is made of all of it, from where the way starts. -/
structure SortWalk (run : ι → List SortKey → Except CompileError σ) (Entry : SortKey → ε → Prop)
    (Made : ι → List ε → σ → Prop) : Prop where
  nil : ∀ start result, run start [] = .ok result → Made start [] result
  cons : ∀ start key rest result, run start (key :: rest) = .ok result →
    ∃ next entry others, Entry key entry ∧ run next rest = .ok others ∧
      ∀ entries, Made next entries others → Made start (entry :: entries) result

/-- Each key is turned into an entry, and the result is made of these in the order of the keys. -/
theorem SortWalk.entries (h : SortWalk run Entry Made) (keys : List SortKey) :
    ∀ start result, run start keys = .ok result →
      ∃ entries, List.Forall₂ Entry keys entries ∧ Made start entries result := by
  induction keys with
  | nil => exact fun start result hrun => ⟨[], .nil, h.nil start result hrun⟩
  | cons key rest ih =>
      intro start result hrun
      rcases h.cons start key rest result hrun with ⟨next, entry, others, hentry, hrest, hmade⟩
      rcases ih next others hrest with ⟨entries, hentries, hothers⟩
      exact ⟨entry :: entries, .cons hentry hentries, hmade entries hothers⟩

/-- What an entry says of its key holds of all sort keys that are native. -/
theorem forall_native {P : Native → Prop} {keys : List SortKey} {entries : List ε}
    (h : List.Forall₂ Entry keys entries)
    (hentry : ∀ piece entry, Entry (.native piece) entry → P piece) :
    ∀ piece, .native piece ∈ keys → P piece := by
  intro piece hmem
  rcases partner_of_forall₂ h _ hmem with ⟨entry, _, hpartner⟩
  exact hentry piece entry hpartner

end Sorting

end Polyquery
