import Polyquery.Memory.Record
import Polyquery.Mongo.Syntax
import Polyquery.Sql.Syntax

/-!
# Native Payloads

A query can carry pieces that only one backend understands: a condition in its
own language, a sort, a list of columns, or an adjustment of the finished
result. Such a piece is opaque to everything else. A backend recognises the
payloads that are meant for it, and every other payload is foreign to it.

A payload is whatever its program has put there. Tests and orders of records and
adjustments of a result are functions of the program, of which nothing is known but
what they yield.

Two pieces are the same only when they are one and the same piece, however
alike their payloads are. Each piece therefore bears a stamp, given when it is
made.

## Main definitions

* `Payload`: What a native piece holds.
* `Native`: A piece with its stamp and the name of its type.
-/

namespace Polyquery

/-- What a native piece holds. -/
inductive Payload where
  /-- A piece of SQL. -/
  | sqlText (text : String)
  /-- Several pieces of SQL, for a list of columns. -/
  | sqlTexts (texts : List String)
  /-- A piece of SQL to sort by. -/
  | sqlOrder (text : String) (direction : Direction)
  /-- A document or a clause in JSON. -/
  | json (value : Json)
  /-- A test of records. -/
  | recordTest (test : Record → Bool)
  /-- An order of records. -/
  | recordOrder (order : Record → Record → Ordering)
  /-- An adjustment of a finished statement. -/
  | statementAdjustment (adjust : Sql.Statement → Sql.Statement)
  /-- An adjustment of a finished command. -/
  | commandAdjustment (adjust : Mongo.Command → Mongo.Command)
  /-- An adjustment of the members of a search body. -/
  | bodyAdjustment (adjust : List (String × Json) → List (String × Json))
  /-- An adjustment of the rows of a result. -/
  | rowAdjustment (adjust : List Record → List Record)
  /-- A text, which no backend understands. -/
  | text (value : String)
  /-- A 32-bit number, which no backend understands. -/
  | word (value : Nat)
  /-- A value of any other type. No backend understands it, so it is known by its type alone. -/
  | foreign (type : String)

/-- A native piece of a query. -/
structure Native where
  /-- What tells the piece from every other piece. -/
  stamp : Nat
  /-- The name of the payload's type, for messages. -/
  typeName : String
  payload : Payload

/-- A piece is shown by the name of its type. -/
instance : Repr Native where
  reprPrec piece _ := "Native<" ++ piece.typeName ++ ">"

/-- Whether two pieces are one and the same. -/
def Native.same (a b : Native) : Bool :=
  a.stamp == b.stamp

end Polyquery
