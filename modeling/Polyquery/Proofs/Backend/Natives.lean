import Polyquery.Proofs.Memory.Natives
import Polyquery.Proofs.Mongo.Natives
import Polyquery.Proofs.Query.Components
import Polyquery.Proofs.Search.Natives
import Polyquery.Proofs.Sql.Natives

/-!
# Native Pieces of a Query

A native piece is a part of what a query asks for, and a backend that cannot make
anything of it must not go on without it: the filter would let more records
through, or an order would be lost. A customizer is no such part, and one that is
meant for another backend is passed over. So the two are treated in opposite ways,
and both are said here for all places of a query and for all backends.

What is said of the native pieces is said of the result before it is customized, for
a customizer may do anything with a result. It is the result of the query without
customizers, and the customizers of the backend turn it into that of the query.

## Theorems

* `natives_translated`: Native pieces and customizers in all backends.
-/

namespace Polyquery

/-- A native piece is translated or reported and never left out, while a customizer of another
    backend never makes a difference. If a query without preprocessors has a result, then every
    piece in its filters, sort keys, select and group-by is of a kind that the backend translates
    at that place, the pieces in its filters lie under an even number of negations, and what is made
    of each piece is in its place in the result. The kinds are those of which the tables of the
    backend make something. And the query has the same outcome with any other customizers among
    which those of the backend are the same. -/
theorem natives_translated (q : AnyQuery) (hlawful : (Component.query q).Lawful)
    (hplain : q.preprocessors = []) :
    ((∀ schema root compiled,
        q.handle (Sql.compileQuery schema root) (Sql.compileAdvanced schema root) = .ok compiled →
        q.lift.Translated Sql.accepts ∧
        ∃ bare, (q.withCustomizers []).handle (Sql.compileQuery schema root)
            (Sql.compileAdvanced schema root) = .ok bare ∧
          bare.customize (matchingCustomizers Payload.asStatementAdjustment? q.customizers) =
            compiled ∧
          Sql.Carries schema root q.lift bare.statement) ∧
      (∀ schema root compiled,
        q.handle (Mongo.compileQuery schema root) (Mongo.compileAdvanced schema root) =
          .ok compiled →
        q.lift.Translated Mongo.accepts ∧
        ∃ bare, (q.withCustomizers []).handle (Mongo.compileQuery schema root)
            (Mongo.compileAdvanced schema root) = .ok bare ∧
          bare.customize (matchingCustomizers Payload.asCommandAdjustment? q.customizers) =
            compiled ∧
          Mongo.Carries q.lift bare.command) ∧
      (∀ schema root request,
        q.handle (Search.compileQuery schema root) (Search.compileAdvanced schema root) =
          .ok request →
        q.lift.Translated Search.accepts ∧ Search.Carries q.lift request) ∧
      (∀ (store : Store) clock rows,
        q.handle (store.findAll clock) (store.findRows clock) = .ok rows →
        q.lift.Translated Store.accepts ∧ store.Carries clock q rows)) ∧
    (∀ position (piece : Native),
      (Sql.accepts position piece.payload = true ↔ Sql.Resolves position piece) ∧
      (Mongo.accepts position piece.payload = true ↔ Mongo.Resolves position piece) ∧
      (Search.accepts position piece.payload = true ↔ Search.Resolves position piece) ∧
      (Store.accepts position piece.payload = true ↔ Store.Resolves position piece)) ∧
    ∀ pieces : List Native,
      (SameFor Payload.asStatementAdjustment? pieces q.customizers → ∀ schema root,
        (q.withCustomizers pieces).handle (Sql.compileQuery schema root)
            (Sql.compileAdvanced schema root) =
          q.handle (Sql.compileQuery schema root) (Sql.compileAdvanced schema root)) ∧
      (SameFor Payload.asCommandAdjustment? pieces q.customizers → ∀ schema root,
        (q.withCustomizers pieces).handle (Mongo.compileQuery schema root)
            (Mongo.compileAdvanced schema root) =
          q.handle (Mongo.compileQuery schema root) (Mongo.compileAdvanced schema root)) ∧
      (SameFor Payload.asBodyAdjustment? pieces q.customizers → ∀ schema root,
        (q.withCustomizers pieces).handle (Search.compileQuery schema root)
            (Search.compileAdvanced schema root) =
          q.handle (Search.compileQuery schema root) (Search.compileAdvanced schema root)) ∧
      (SameFor Payload.asRowAdjustment? pieces q.customizers → ∀ (store : Store) clock,
        (q.withCustomizers pieces).handle (store.findAll clock) (store.findRows clock) =
          q.handle (store.findAll clock) (store.findRows clock)) := by
  -- A lawful query has a filter of groups only if it groups.
  have hgroups : q.effective.having.isSome = true → q.effective.groupBy.isSome = true := by
    cases q with
    | plain q => exact fun h => absurd h Bool.false_ne_true
    | advanced q => exact hlawful
  refine ⟨⟨?_, ?_, ?_, ?_⟩, fun position piece => ⟨Sql.accepts_iff position piece,
    Mongo.accepts_iff position piece, Search.accepts_iff position piece,
    Store.accepts_iff position piece⟩, fun pieces => ⟨?_, ?_, ?_, ?_⟩⟩
  · intro schema root compiled h
    -- The customizers come last, so what they are given carries the pieces already.
    rcases (Sql.compileParts_customized schema root).handle_of_ok q hplain h with
      ⟨bare, hbare, hcustomized, hparts⟩
    rcases Sql.compileParts_carries schema root q bare hparts with ⟨htranslated, hcarries⟩
    exact ⟨htranslated, bare, hbare, hcustomized, hcarries⟩
  · intro schema root compiled h
    rcases (Mongo.compileParts_customized schema root).handle_of_ok q hplain h with
      ⟨bare, hbare, hcustomized, hparts⟩
    rcases Mongo.compileParts_carries schema root q hgroups bare hparts with
      ⟨htranslated, hcarries⟩
    exact ⟨htranslated, bare, hbare, hcustomized, hcarries⟩
  · intro schema root request h
    exact Search.compileParts_carries schema root q request
      (compiled_parts (Search.compileParts schema root) q hplain request h)
  · exact fun store clock rows h => Store.answer_carries hplain h
  · intro h schema root
    exact (Sql.compileParts_customized schema root).handle_alike q hplain pieces h
  · intro h schema root
    exact (Mongo.compileParts_customized schema root).handle_alike q hplain pieces h
  · intro h schema root
    exact (Search.compileParts_customized schema root).handle_alike q hplain pieces h
  · intro h store clock
    cases q with
    | plain p =>
        have hrows := (Store.recordsOf_customized store clock).handle_alike (.plain p) hplain
          pieces h
        exact (store.findAll_eq clock _).trans (hrows.trans (store.findAll_eq clock p).symm)
    | advanced p =>
        have hrows := (Store.rowsOf_customized store clock).handle_alike (.advanced p) hplain
          pieces h
        exact (store.findRows_eq clock _).trans (hrows.trans (store.findRows_eq clock p).symm)

/-- A query with native pieces of SQL at all places, one in its filter under two negations and
    beside a comparison, and with a customizer of a statement. -/
def sampleNatives : AdvancedQuery where
  filter := some (.not (.or [.not (.native ⟨0, "Raw", .sqlText "a > 0"⟩),
    .simple ⟨.property "b" none, .isNull, none⟩]))
  sorts := [.native ⟨1, "RawOrder", .sqlOrder "a" .descending⟩]
  select := some (.native ⟨2, "RawList", .sqlTexts ["a", "b"]⟩)
  customizers := [⟨3, "Limit", .statementLimit 5⟩]
  groupBy := some (.native ⟨4, "Raw", .sqlText "a"⟩)

/-- All pieces of the query are translated to SQL and can be found in its statement, and
    customizers of other backends make no difference to it. -/
theorem natives_translated_sample :
    (AnyQuery.advanced sampleNatives).lift.Translated Sql.accepts ∧
      (∃ bare, Sql.compileAdvanced .default "Order" { sampleNatives with customizers := [] } =
          .ok bare ∧
        bare.statement.filter = some (.and (.raw "a > 0")
          (.isNotNull (.column "order" "b"))) ∧
        bare.statement.orderBy = [(.raw "a", .descending)] ∧
        bare.statement.items = [.unnamed (.raw "a"), .unnamed (.raw "b")] ∧
        bare.statement.groupBy = [.raw "a"]) ∧
      Sql.compileAdvanced .default "Order" { sampleNatives with
          customizers := [⟨5, "Reverse", .reverseRows⟩, ⟨3, "Limit", .statementLimit 5⟩,
            ⟨6, "Entry", .bodyEntry "size" .null⟩] } =
        Sql.compileAdvanced .default "Order" sampleNatives := by
  have h := natives_translated (.advanced sampleNatives) (fun h => absurd h Bool.false_ne_true) rfl
  rcases h.1.1 .default "Order" _ rfl with ⟨htranslated, bare, hbare, _, hcarries⟩
  rcases hcarries.select _ rfl with ⟨texts, htexts, hitems⟩
  rcases hcarries.groupBy _ rfl with ⟨keys, hkeys, hgroupBy⟩
  refine ⟨htranslated, ⟨bare, hbare, ?_, ?_, ?_, ?_⟩, (h.2.2 _).1 rfl .default "Order"⟩
  · rw [hcarries.filter.rendered]
    rfl
  · rcases List.forall₂_cons_left_iff.mp hcarries.sorts with
      ⟨order, rest, ⟨text, direction, hpayload, rfl⟩, hrest, horders⟩
    rw [horders, List.forall₂_nil_left_iff.mp hrest, ← (Payload.sqlOrder.inj hpayload).1,
      ← (Payload.sqlOrder.inj hpayload).2]
  · rw [hitems, ← Option.some.inj htexts]
    rfl
  · rw [hgroupBy, ← Option.some.inj hkeys]
    rfl

end Polyquery
