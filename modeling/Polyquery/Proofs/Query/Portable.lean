import Polyquery.Proofs.Query.Invisible

/-!
# Portable Queries

A portable query says everything in terms of queries: it holds no native piece
and no customizer, which only some backend would understand, and it has no
preprocessor, which could turn it into any other query. What a backend makes of
a portable query is therefore known from the query alone: preparing it only
checks it, and a backend that compiles prepared queries compiles the parts of
the query itself (`handle_prepared`).

The two kinds of query are treated as one. A plain query has the parts of an
advanced one that neither groups nor filters groups, and `AnyQuery.lift` is
that query.

## Main definitions

* `Query.Portable`, `AdvancedQuery.Portable`, `AnyQuery.Portable`: Portable
  queries.
* `QueryParts.Portable`: Parts without native pieces.
* `QueryParts.returned`: The expressions that a query returns.
* `AnyQuery.effective`: The parts of a query.
* `AnyQuery.handle`: What is done with a query of either kind.
* `AnyQuery.Prepares`: A query that passes the checks.
* `compilePlain`, `compileGrouped`: A backend by what it makes of the parts.

## Theorems

* `filter_effective`, `leavesOf_effective`: Conditions that restrict nothing.
* `portable_effective`: The parts of a portable query.
* `projection_returned`, `projection_entity`, `projection_unnamed`: The
  projection of a portable query, and one that fails.
* `handle_prepared`, `prepares_of_compiles`: A backend on a portable query.
-/

namespace Polyquery

/-- Whether a sort key is a native piece. -/
def SortKey.isNative : SortKey → Bool
  | .simple _ => false
  | .native _ => true

/-- Whether a selection is a native piece. -/
def Selection.isNative : Selection → Bool
  | .items _ => false
  | .native _ => true

/-- A plain query without native pieces, customizers and preprocessors. -/
structure Query.Portable (q : Query) : Prop where
  filter : ∀ c, q.filter = some c → c.nativeFree = true
  sorts : ∀ key ∈ q.sorts, key.isNative = false
  select : ∀ columns, q.select = some columns → columns.isNative = false
  preprocessors : q.preprocessors = []
  customizers : q.customizers = []

/-- An advanced query without native pieces, customizers and preprocessors. -/
structure AdvancedQuery.Portable (q : AdvancedQuery) : Prop where
  query : q.toQuery.Portable
  groupBy : ∀ columns, q.groupBy = some columns → columns.isNative = false
  having : ∀ c, q.having = some c → c.nativeFree = true

/-- Parts without native pieces and customizers. -/
structure QueryParts.Portable (parts : QueryParts) : Prop where
  filter : ∀ c, parts.filter = some c → c.nativeFree = true
  sorts : ∀ key ∈ parts.sorts, key.isNative = false
  select : ∀ columns, parts.select = some columns → columns.isNative = false
  groupBy : ∀ columns, parts.groupBy = some columns → columns.isNative = false
  having : ∀ c, parts.having = some c → c.nativeFree = true
  customizers : parts.customizers = []

/-- The expressions of a projection. -/
def Projection.expressions : Projection → List Expression
  | .items columns => columns.map (·.2)
  | _ => []

/-- The expressions that a query returns: those of the select, or else the group keys. -/
def QueryParts.returned (parts : QueryParts) : List Expression :=
  match parts.select, parts.groupBy with
  | some select, _ => select.expressions
  | none, some keys => keys.expressions
  | none, none => []

namespace AnyQuery

/-- A query of either kind without native pieces, customizers and preprocessors. -/
def Portable : AnyQuery → Prop
  | .plain q => q.Portable
  | .advanced q => q.Portable

/-- The parts of a query that have an effect. -/
def effective (q : AnyQuery) : QueryParts :=
  .ofAdvanced q.lift

/-- What is done with a query, by its kind. -/
def handle {α : Type} (plain : Query → α) (advanced : AdvancedQuery → α) : AnyQuery → α
  | .plain q => plain q
  | .advanced q => advanced q

/-- A query that passes the checks that come before compiling. -/
def Prepares (q : AnyQuery) : Prop :=
  q.handle (fun q => ∃ p, q.prepare = .ok p) (fun q => ∃ p, q.prepare = .ok p)

end AnyQuery

/-- What has an effect is a part of the query. -/
theorem effectiveCondition_some (condition : Option Condition) (c : Condition)
    (h : effectiveCondition condition = some c) : condition = some c ∧ c.isEmpty = false := by
  unfold effectiveCondition at h
  rw [Option.filter_eq_some_iff] at h
  exact ⟨h.1, by simpa only [Bool.not_eq_true'] using h.2⟩

/-- A condition that restricts nothing makes the same filter as none. -/
theorem filter_effective {φ : Type} (t : Interpretation φ) (condition : Option Condition)
    (maxDepth : Nat) :
    t.filter (effectiveCondition condition) maxDepth = t.filter condition maxDepth := by
  cases condition with
  | none => rfl
  | some c =>
      by_cases hempty : c.isEmpty = true
      · simp only [effectiveCondition, Option.filter, Interpretation.filter, hempty, Bool.not_true,
          Bool.false_eq_true, if_false, if_true]
      · simp only [effectiveCondition, Option.filter, Interpretation.filter, hempty,
          Bool.not_false, if_true, Bool.false_eq_true, if_false]

theorem leavesOf_effective (condition : Option Condition) :
    leavesOf (effectiveCondition condition) = leavesOf condition := by
  cases condition with
  | none => rfl
  | some c =>
      simp only [effectiveCondition, Option.filter]
      split
      · rfl
      · rename_i hempty
        rw [Bool.not_eq_true, Bool.not_eq_false'] at hempty
        rw [leavesOf_some, leaves_of_empty c hempty]
        rfl

theorem effectiveSelection_some (selection : Option Selection) (columns : Selection)
    (h : effectiveSelection selection = some columns) : selection = some columns := by
  unfold effectiveSelection at h
  rw [Option.filter_eq_some_iff] at h
  exact h.1

/-- The parts of a portable query have no native pieces either. -/
theorem portable_effective (q : AnyQuery) (h : q.Portable) : q.effective.Portable := by
  have hadvanced : ∀ p : AdvancedQuery, p.Portable → (QueryParts.ofAdvanced p).Portable := by
    intro p hp
    exact {
      filter := fun c hc => hp.query.filter c (effectiveCondition_some _ c hc).1
      sorts := hp.query.sorts
      select := fun columns hc => hp.query.select columns (effectiveSelection_some _ columns hc)
      groupBy := fun columns hc => hp.groupBy columns (effectiveSelection_some _ columns hc)
      having := fun c hc => hp.having c (effectiveCondition_some _ c hc).1
      customizers := hp.query.customizers }
  cases q with
  | advanced q => exact hadvanced q h
  | plain q =>
      -- The lifted query neither groups nor filters groups.
      refine hadvanced (.ofQuery q) ⟨⟨h.filter, h.sorts, h.select, rfl, h.customizers⟩, ?_, ?_⟩
      · intro columns hc
        exact absurd hc (by simp only [AdvancedQuery.ofQuery, reduceCtorEq, not_false_eq_true])
      · intro c hc
        exact absurd hc (by simp only [AdvancedQuery.ofQuery, reduceCtorEq, not_false_eq_true])

/-- The columns of a selection are its expressions with their names. -/
theorem named_expressions (selection : Selection) (columns : List (String × Expression))
    (h : selection.named = .ok columns) : columns.map (·.2) = selection.expressions := by
  rcases bind_eq_ok.mp h with ⟨names, hnames, hcolumns⟩
  rw [← Except.ok.inj hcolumns]
  exact List.map_snd_zip (Nat.le_of_eq (length_of_mapM hnames).symm)

/-- The projection of portable parts is no native piece, and its expressions are those that
    the query returns. -/
theorem projection_returned (parts : QueryParts) (hportable : parts.Portable)
    (projection : Projection) (h : parts.projection = .ok projection) :
    (∀ piece, projection ≠ .native piece) ∧ projection.expressions = parts.returned := by
  unfold QueryParts.projection at h
  unfold QueryParts.returned
  -- Naming the columns changes none of them.
  have hitems : ∀ selection : Selection, selection.named.map .items = .ok projection →
      (∀ piece, projection ≠ .native piece) ∧ projection.expressions = selection.expressions := by
    intro selection hnamed
    rcases map_eq_ok.mp hnamed with ⟨columns, hcolumns, hprojection⟩
    rw [← hprojection]
    exact ⟨fun piece => by simp only [ne_eq, reduceCtorEq, not_false_eq_true],
      named_expressions selection columns hcolumns⟩
  -- The columns are the select, or the group-by if there is none.
  cases hselect : parts.select with
  | some select =>
      rw [hselect] at h
      cases select with
      | items list => exact hitems _ h
      | native piece => exact absurd (hportable.select _ hselect) (by
          simp only [Selection.isNative, reduceCtorEq, not_false_eq_true])
  | none =>
      rw [hselect] at h
      cases hgroup : parts.groupBy with
      | none =>
          rw [hgroup] at h
          rw [← Except.ok.inj h]
          exact ⟨fun piece => by simp only [ne_eq, reduceCtorEq, not_false_eq_true], rfl⟩
      | some keys =>
          rw [hgroup] at h
          cases keys with
          | items list => exact hitems _ h
          | native piece => exact absurd (hportable.groupBy _ hgroup) (by
              simp only [Selection.isNative, reduceCtorEq, not_false_eq_true])

/-- Whole records are returned where nothing is selected and nothing is grouped. -/
theorem projection_entity (parts : QueryParts) (hportable : parts.Portable)
    (h : parts.projection = .ok .entity) : parts.select = none ∧ parts.groupBy = none := by
  -- A list of columns is never the whole record.
  have hnamed : ∀ selection : Selection, selection.named.map Projection.items ≠ .ok .entity := by
    intro selection hentity
    rcases map_eq_ok.mp hentity with ⟨columns, _, heq⟩
    exact absurd heq (by simp only [reduceCtorEq, not_false_eq_true])
  unfold QueryParts.projection at h
  cases hselect : parts.select with
  | some select =>
      rw [hselect] at h
      cases select with
      | items list => exact absurd h (hnamed _)
      | native piece => exact absurd h (by simp only [Except.ok.injEq, reduceCtorEq,
          not_false_eq_true])
  | none =>
      rw [hselect] at h
      cases hgroup : parts.groupBy with
      | none => exact ⟨rfl, rfl⟩
      | some keys =>
          rw [hgroup] at h
          cases keys with
          | items list => exact absurd h (hnamed _)
          | native piece => exact absurd (hportable.groupBy _ hgroup) (by
              simp only [Selection.isNative, reduceCtorEq, not_false_eq_true])

/-- A projection fails on a column that has neither an alias nor a path. -/
theorem projection_unnamed (parts : QueryParts) (e : CompileError)
    (h : parts.projection = .error e) :
    ∃ x ∈ parts.returned, x.alias? = none ∧ x.path? = none ∧ e = .missingAlias x.text := by
  -- A list of expressions fails at the first one that has neither alias nor path.
  have hnamed : ∀ selection : Selection, selection.named.map Projection.items = .error e →
      ∃ x ∈ selection.expressions, x.alias? = none ∧ x.path? = none ∧
        e = .missingAlias x.text := by
    intro selection h
    rw [← errorOf?_eq_some, errorOf?_map, Selection.named,
      errorOf?_bind_total _ _ fun _ _ => rfl, Selection.columnNames, errorOf?_mapM] at h
    rcases List.exists_of_findSome?_eq_some h with ⟨x, hx, herror⟩
    unfold Expression.columnName at herror
    refine ⟨x, hx, ?_⟩
    cases hlabel : x.alias? with
    | some label =>
        rw [hlabel] at herror
        exact absurd herror (by simp only [errorOf?, reduceCtorEq, not_false_eq_true])
    | none =>
        cases hpath : x.path? with
        | some path =>
            rw [hlabel, hpath] at herror
            exact absurd herror (by simp only [errorOf?, reduceCtorEq, not_false_eq_true])
        | none =>
            rw [hlabel, hpath] at herror
            exact ⟨rfl, rfl, (Option.some.inj herror).symm⟩
  unfold QueryParts.projection at h
  unfold QueryParts.returned
  -- The columns are the select, or the group-by if there is none.
  cases hselect : parts.select with
  | some select =>
      rw [hselect] at h
      cases select with
      | items list => exact hnamed _ h
      | native piece => exact absurd h (by simp only [reduceCtorEq, not_false_eq_true])
  | none =>
      rw [hselect] at h
      cases hgroup : parts.groupBy with
      | none =>
          rw [hgroup] at h
          exact absurd h (by simp only [reduceCtorEq, not_false_eq_true])
      | some keys =>
          rw [hgroup] at h
          cases keys with
          | items list => exact hnamed _ h
          | native piece => exact absurd h (by simp only [reduceCtorEq, not_false_eq_true])

section Compiling

variable {α : Type} (compile : QueryParts → Except CompileError α)

/-- A backend that prepares a query and compiles its parts. -/
def compilePlain (q : Query) : Except CompileError α := do
  let q ← q.prepare
  compile (.ofQuery q)

/-- A backend that prepares an advanced query and compiles its parts. -/
def compileGrouped (q : AdvancedQuery) : Except CompileError α := do
  let q ← q.prepare
  compile (.ofAdvanced q)

/-- A portable query that passes the checks is prepared as it is. -/
theorem prepare_eq_self (q p : Query) (hplain : q.preprocessors = []) (h : q.prepare = .ok p) :
    p = q := by
  rw [prepare_plain q hplain] at h
  rcases bind_eq_ok.mp h with ⟨_, _, hp⟩
  exact (Except.ok.inj hp).symm

theorem prepareAdvanced_eq_self (q p : AdvancedQuery) (hplain : q.preprocessors = [])
    (h : q.prepare = .ok p) : p = q := by
  rw [prepareAdvanced_plain q hplain] at h
  rcases bind_eq_ok.mp h with ⟨_, _, h⟩
  rcases bind_eq_ok.mp h with ⟨_, _, hp⟩
  exact (Except.ok.inj hp).symm

/-- What a backend makes of a portable query that passes the checks is what it makes of the
    parts of the query. -/
theorem handle_prepared (q : AnyQuery) (hportable : q.Portable) (hprepares : q.Prepares) :
    q.handle (compilePlain compile) (compileGrouped compile) = compile q.effective := by
  cases q with
  | plain q =>
      rcases hprepares with ⟨p, hp⟩
      simp only [AnyQuery.handle, compilePlain, hp, ok_bind,
        prepare_eq_self q p hportable.preprocessors hp]
      rfl
  | advanced q =>
      rcases hprepares with ⟨p, hp⟩
      simp only [AnyQuery.handle, compileGrouped, hp, ok_bind,
        prepareAdvanced_eq_self q p hportable.query.preprocessors hp]
      rfl

/-- A query that compiles has passed the checks. -/
theorem prepares_of_compiles (q : AnyQuery) (compiled : α)
    (h : q.handle (compilePlain compile) (compileGrouped compile) = .ok compiled) :
    q.Prepares := by
  cases q with
  | plain q =>
      rcases bind_eq_ok.mp h with ⟨p, hp, _⟩
      exact ⟨p, hp⟩
  | advanced q =>
      rcases bind_eq_ok.mp h with ⟨p, hp, _⟩
      exact ⟨p, hp⟩

end Compiling

end Polyquery
