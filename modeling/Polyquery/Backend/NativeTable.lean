import Polyquery.Error
import Polyquery.Native

/-!
# Native Pieces of a Backend

A backend lists which payloads it accepts at a place and what it makes of
them. A piece with any other payload is an error. Customizers are different: a
customizer that a backend does not know is meant for another one, and is
passed over.

## Main definitions

* `NativeTable`: The payloads a backend accepts at one place.
* `NativeTable.resolve`: What a backend makes of a piece.
* `matchingCustomizers`: The customizers that are meant for a backend.
* `adjustAll`: What customizers make of a result.

## Theorems

* `NativeTable.resolve_eq_ok`: The pieces that a backend accepts.
-/

namespace Polyquery

/-- The payloads that a backend accepts at one place. -/
structure NativeTable (ω : Type) where
  backend : String
  handlers : List (Payload → Option ω)

namespace NativeTable

variable {ω : Type}

/-- A table with no payload. -/
def empty (backend : String) : NativeTable ω :=
  ⟨backend, []⟩

/-- A table with one more kind of payload, recognised by `select`. -/
def accept {α : Type} (table : NativeTable ω) (select : Payload → Option α) (convert : α → ω) :
    NativeTable ω :=
  { table with handlers := (fun payload => (select payload).map convert) :: table.handlers }

/-- What a backend makes of a piece. -/
def resolve (table : NativeTable ω) (piece : Native) : Except CompileError ω :=
  match table.handlers.findSome? fun handler => handler piece.payload with
  | some result => .ok result
  | none => .error (.unsupportedNative table.backend piece.typeName)

/-- The payload alone decides what a table makes of a piece. -/
theorem resolve_eq_ok (table : NativeTable ω) (piece : Native) (result : ω) :
    table.resolve piece = .ok result ↔
      (table.handlers.findSome? fun handler => handler piece.payload) = some result := by
  unfold resolve
  split <;> simp_all only [Except.ok.injEq, Option.some.injEq, reduceCtorEq]

end NativeTable

/-- The payloads of one kind among customizers. -/
def matchingCustomizers {α : Type} (select : Payload → Option α) (pieces : List Native) : List α :=
  pieces.filterMap fun piece => select piece.payload

/-- What several adjustments make of a result, one after the other. -/
def adjustAll {α : Type} (adjustments : List (α → α)) (result : α) : α :=
  adjustments.foldl (fun result adjust => adjust result) result

@[simp]
theorem adjustAll_nil {α : Type} (result : α) : adjustAll [] result = result :=
  rfl

namespace Payload

/-- A piece of SQL. -/
def asSqlText? : Payload → Option String
  | .sqlText piece => some piece
  | _ => none

/-- Several pieces of SQL. -/
def asSqlTexts? : Payload → Option (List String)
  | .sqlTexts pieces => some pieces
  | _ => none

/-- A piece of SQL to sort by. -/
def asSqlOrder? : Payload → Option (String × Direction)
  | .sqlOrder piece direction => some (piece, direction)
  | _ => none

/-- A JSON value. -/
def asJson? : Payload → Option Json
  | .json value => some value
  | _ => none

/-- A test of records. -/
def asRecordTest? : Payload → Option (Record → Bool)
  | .recordTest test => some test
  | _ => none

/-- An order of records. -/
def asRecordOrder? : Payload → Option (Record → Record → Ordering)
  | .recordOrder order => some order
  | _ => none

/-- A text. -/
def asText? : Payload → Option String
  | .text value => some value
  | _ => none

/-- A 32-bit number. -/
def asWord? : Payload → Option Nat
  | .word value => some value
  | _ => none

/-- An adjustment of a statement. -/
def asStatementAdjustment? : Payload → Option (Sql.Statement → Sql.Statement)
  | .statementAdjustment adjust => some adjust
  | _ => none

/-- An adjustment of a command. -/
def asCommandAdjustment? : Payload → Option (Mongo.Command → Mongo.Command)
  | .commandAdjustment adjust => some adjust
  | _ => none

/-- An adjustment of a search body. -/
def asBodyAdjustment? : Payload → Option (List (String × Json) → List (String × Json))
  | .bodyAdjustment adjust => some adjust
  | _ => none

/-- An adjustment of rows. -/
def asRowAdjustment? : Payload → Option (List Record → List Record)
  | .rowAdjustment adjust => some adjust
  | _ => none

end Payload

end Polyquery
