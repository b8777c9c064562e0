import Polyquery.Proofs.Memory.Answer

/-!
# Customizers

A customizer adjusts what a backend has finished. It is looked at when the
statement, the command, the request or the rows are there, and until then a query
with customizers is the query without them. So customizers play no part in whether
there is a result, and what a backend makes of a query can be told from the query
without customizers (`compileParts_customized`, `recordsOf_customized` and their
siblings).

Which customizers are meant for a backend is a matter of their payloads, and the
others are passed over. Two lists in which the ones meant for a backend are the
same and in the same order therefore have the same effect, whatever else is among
them (`matchingCustomizers_alike`).

## Main definitions

* `AnyQuery.preprocessors`, `AnyQuery.customizers`: Parts that both kinds of query
  have.
* `AnyQuery.withCustomizers`, `QueryParts.withCustomizers`: Other customizers.
* `AnyQuery.check`: The rules of a query of either kind.
* `SameFor`: Customizers that are the same for a backend.
* `CustomizedBy`: A backend that adjusts what it has finished.

## Theorems

* `handle_plain`, `compiled_parts`, `prepares_iff`: Queries without preprocessors.
* `effective_withCustomizers`, `check_withCustomizers`: Other customizers.
* `Sql.compileParts_customized`, `Mongo.compileParts_customized`,
  `Search.compileParts_customized`, `Store.recordsOf_customized`,
  `Store.rowsOf_customized`: The effect of customizers.
* `matchingCustomizers_alike`, `CustomizedBy.handle_alike`: Customizers of other backends.
* `CustomizedBy.of_ok`, `CustomizedBy.handle_of_ok`: What is there before it is adjusted.
-/

namespace Polyquery

namespace AnyQuery

/-- The preprocessors of a query. -/
def preprocessors : AnyQuery → List Preprocessor
  | .plain q => q.preprocessors
  | .advanced q => q.preprocessors

/-- The customizers of a query. -/
def customizers : AnyQuery → List Native
  | .plain q => q.customizers
  | .advanced q => q.customizers

/-- A query with other customizers. -/
def withCustomizers (pieces : List Native) : AnyQuery → AnyQuery
  | .plain q => .plain { q with customizers := pieces }
  | .advanced q => .advanced { q with customizers := pieces }

/-- The rules of a query. -/
def check : AnyQuery → Except CompileError Unit
  | .plain q => q.check
  | .advanced q => do
    q.check
    checkValues (leavesOf q.having)

end AnyQuery

/-- Parts with other customizers. -/
def QueryParts.withCustomizers (pieces : List Native) (parts : QueryParts) : QueryParts :=
  { parts with customizers := pieces }

section Preparing

variable {α : Type} (compile : QueryParts → Except CompileError α) (q : AnyQuery)

/-- A query without preprocessors is checked and then compiled as it is. -/
theorem handle_plain (hplain : q.preprocessors = []) :
    q.handle (compilePlain compile) (compileGrouped compile) =
      q.check >>= fun _ => compile q.effective := by
  cases q with
  | plain q =>
      simp only [AnyQuery.handle, compilePlain, prepare_plain q hplain, AnyQuery.check]
      cases q.check <;> rfl
  | advanced q =>
      simp only [AnyQuery.handle, compileGrouped, prepareAdvanced_plain q hplain, AnyQuery.check]
      cases q.check with
      | error e => rfl
      | ok _ => cases checkValues (leavesOf q.having) <;> rfl

/-- A query without preprocessors that is compiled has its parts compiled. -/
theorem compiled_parts (hplain : q.preprocessors = []) (compiled : α)
    (h : q.handle (compilePlain compile) (compileGrouped compile) = .ok compiled) :
    compile q.effective = .ok compiled := by
  rw [handle_plain compile q hplain] at h
  rcases bind_eq_ok.mp h with ⟨_, _, hcompiled⟩
  exact hcompiled

theorem prepares_iff (hplain : q.preprocessors = []) : q.Prepares ↔ q.check = .ok () := by
  cases q with
  | plain q =>
      simp only [AnyQuery.Prepares, AnyQuery.handle, prepare_plain q hplain, AnyQuery.check]
      cases q.check with
      | error e => simp only [error_bind, reduceCtorEq, exists_false]
      | ok _ => exact iff_of_true ⟨q, rfl⟩ rfl
  | advanced q =>
      simp only [AnyQuery.Prepares, AnyQuery.handle, prepareAdvanced_plain q hplain,
        AnyQuery.check]
      cases q.check with
      | error e => simp only [error_bind, reduceCtorEq, exists_false]
      | ok _ =>
          cases checkValues (leavesOf q.having) with
          | error e => simp only [ok_bind, error_bind, reduceCtorEq, exists_false]
          | ok _ => exact iff_of_true ⟨q, rfl⟩ rfl

theorem preprocessors_portable (h : q.Portable) : q.preprocessors = [] := by
  cases q with
  | plain q => exact h.preprocessors
  | advanced q => exact h.query.preprocessors

variable (pieces : List Native)

theorem effective_withCustomizers :
    (q.withCustomizers pieces).effective = q.effective.withCustomizers pieces := by
  cases q <;> rfl

theorem check_withCustomizers : (q.withCustomizers pieces).check = q.check := by
  cases q <;> rfl

theorem preprocessors_withCustomizers :
    (q.withCustomizers pieces).preprocessors = q.preprocessors := by
  cases q <;> rfl

end Preparing

section Matching

variable {α : Type} (select : Payload → Option α)

/-- Two lists of customizers with the same ones for a backend, in the same order. The others
    may be any and stand anywhere. -/
def SameFor (pieces others : List Native) : Prop :=
  (pieces.filter fun piece => (select piece.payload).isSome) =
    others.filter fun piece => (select piece.payload).isSome

theorem matchingCustomizers_filter (pieces : List Native) :
    matchingCustomizers select pieces =
      matchingCustomizers select (pieces.filter fun piece => (select piece.payload).isSome) := by
  unfold matchingCustomizers
  rw [List.filterMap_filter]
  congr 1
  funext piece
  cases select piece.payload <;> rfl

/-- A customizer that is not meant for a backend is passed over. -/
theorem matchingCustomizers_alike {pieces others : List Native}
    (h : SameFor select pieces others) :
    matchingCustomizers select pieces = matchingCustomizers select others := by
  rw [matchingCustomizers_filter, h, ← matchingCustomizers_filter]

end Matching

section Customized

variable {α β : Type} {select : Payload → Option β} {adjust : List β → α → α}
  {compile : QueryParts → Except CompileError α}

/-- A backend looks at its own customizers only, and at these when all else is done. -/
def CustomizedBy (select : Payload → Option β) (adjust : List β → α → α)
    (compile : QueryParts → Except CompileError α) : Prop :=
  ∀ parts pieces, compile (QueryParts.withCustomizers pieces parts) =
    (compile (parts.withCustomizers [])).map (adjust (matchingCustomizers select pieces))

/-- What parts compile to is what they compile to without customizers, adjusted by these. -/
theorem CustomizedBy.of_ok (hcompile : CustomizedBy select adjust compile) {parts : QueryParts}
    {result : α} (h : compile parts = .ok result) :
    ∃ bare, compile (parts.withCustomizers []) = .ok bare ∧
      adjust (matchingCustomizers select parts.customizers) bare = result := by
  have hself : parts = parts.withCustomizers parts.customizers := rfl
  rw [hself, hcompile parts parts.customizers] at h
  exact map_eq_ok.mp h

/-- So it is with the result of a query, which is that of the query without customizers. -/
theorem CustomizedBy.handle_of_ok (hcompile : CustomizedBy select adjust compile) (q : AnyQuery)
    (hplain : q.preprocessors = []) {result : α}
    (h : q.handle (compilePlain compile) (compileGrouped compile) = .ok result) :
    ∃ bare, (q.withCustomizers []).handle (compilePlain compile) (compileGrouped compile) =
        .ok bare ∧
      adjust (matchingCustomizers select q.customizers) bare = result ∧
      compile (q.effective.withCustomizers []) = .ok bare := by
  rw [handle_plain compile q hplain] at h
  rcases bind_eq_ok.mp h with ⟨_, hcheck, h⟩
  rcases hcompile.of_ok h with ⟨bare, hbare, hadjusted⟩
  refine ⟨bare, ?_, ?_, hbare⟩
  · rw [handle_plain compile _ ((preprocessors_withCustomizers q []).trans hplain),
      check_withCustomizers, effective_withCustomizers, hcheck]
    exact hbare
  · cases q <;> exact hadjusted

/-- Customizers among which those of a backend are the same make no difference to it. -/
theorem CustomizedBy.handle_alike (hcompile : CustomizedBy select adjust compile) (q : AnyQuery)
    (hplain : q.preprocessors = []) (pieces : List Native)
    (h : SameFor select pieces q.customizers) :
    (q.withCustomizers pieces).handle (compilePlain compile) (compileGrouped compile) =
      q.handle (compilePlain compile) (compileGrouped compile) := by
  have hself : q.effective = q.effective.withCustomizers q.customizers := by
    cases q <;> rfl
  rw [handle_plain compile q hplain,
    handle_plain compile _ ((preprocessors_withCustomizers q pieces).trans hplain),
    check_withCustomizers, effective_withCustomizers, hself]
  refine bind_congr fun _ => ?_
  rw [hcompile, hcompile q.effective q.customizers, ← matchingCustomizers_alike select h]
  rfl

end Customized

section Backends

variable (schema : Schema) (root : String)

/-- The effect of customizers on a statement. -/
def Sql.Compiled.customize (adjustments : List (Sql.Statement → Sql.Statement))
    (compiled : Sql.Compiled) : Sql.Compiled :=
  { compiled with statement := adjustAll adjustments compiled.statement }

theorem Sql.compileParts_customized :
    CustomizedBy Payload.asStatementAdjustment? Sql.Compiled.customize
      (Sql.compileParts schema root) := by
  intro parts pieces
  simp only [Sql.compileParts, map_bind_eq]
  rfl

/-- The effect of customizers on a command. -/
def Mongo.Compiled.customize (adjustments : List (Mongo.Command → Mongo.Command))
    (compiled : Mongo.Compiled) : Mongo.Compiled :=
  { compiled with command := adjustAll adjustments compiled.command }

theorem Mongo.compileParts_customized :
    CustomizedBy Payload.asCommandAdjustment? Mongo.Compiled.customize
      (Mongo.compileParts schema root) := by
  intro parts pieces
  simp only [Mongo.compileParts, map_bind_eq]
  refine bind_congr fun filter => bind_congr fun projection => ?_
  -- Which command it is does not depend on the customizers.
  have hgroups : (parts.withCustomizers pieces).groupBy = (parts.withCustomizers []).groupBy := rfl
  have hsorts : (parts.withCustomizers pieces).sorts = (parts.withCustomizers []).sorts := rfl
  rw [hgroups, hsorts]
  split
  · split
    · rw [map_bind_eq]
      rfl
    · rw [map_bind_eq]
      rfl
  · rw [map_bind_eq]
    rfl

/-- The effect of customizers on a request. -/
def Search.Request.customize
    (adjustments : List (List (String × Json) → List (String × Json)))
    (request : Search.Request) : Search.Request :=
  { request with adjustments := adjustments }

theorem Search.compileParts_customized :
    CustomizedBy Payload.asBodyAdjustment? Search.Request.customize
      (Search.compileParts schema root) := by
  intro parts pieces
  have hgroups : (parts.withCustomizers pieces).groupBy = (parts.withCustomizers []).groupBy := rfl
  have hhaving : (parts.withCustomizers pieces).having = (parts.withCustomizers []).having := rfl
  simp only [Search.compileParts, hgroups, hhaving]
  split
  · rfl
  · split
    · rfl
    · simp only [map_bind_eq]
      rfl

variable (store : Store) (clock : Clock)

theorem Store.recordsOf_customized :
    CustomizedBy Payload.asRowAdjustment? adjustAll (store.recordsOf clock) := by
  intro parts pieces
  simp only [Store.recordsOf, map_bind_eq]
  rfl

theorem Store.rowsOf_customized :
    CustomizedBy Payload.asRowAdjustment? adjustAll (store.rowsOf clock) := by
  intro parts pieces
  simp only [Store.rowsOf, map_bind_eq]
  rfl

end Backends

end Polyquery
