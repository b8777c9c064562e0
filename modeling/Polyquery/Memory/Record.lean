import Polyquery.Json.Basic
import Polyquery.Text.Search

/-!
# Records in Memory

A record is the members of a JSON object. A dotted path leads through nested
objects, and a path that leads nowhere leads to null, so a missing value and a
null cannot be told apart.

An expression is evaluated on a group of records, of which the first one
stands for the group where a single record is asked for. A record by itself is
a group of one.

## Main definitions

* `Record`: The members of an object.
* `Record.lookup`: The value at a path.
* `Rows`: A group of records with the one that stands for it.
-/

namespace Polyquery

/-- A record: the members of a JSON object. -/
abbrev Record := List (String × Json)

namespace Json

/-- The value to which a list of keys leads, one object inside the other. -/
def follow? : List String → Json → Option Json
  | [], value => some value
  | key :: rest, value =>
    match value.get? key with
    | some inner => follow? rest inner
    | none => none

end Json

/-- The value at a dotted path. What is missing is null. -/
def Record.lookup (record : Record) (path : String) : Json :=
  ((Json.object record).follow? (Text.dotted path)).getD .null

/-- The records an expression is evaluated on. -/
structure Rows where
  /-- The record that properties are read from. -/
  current : Record
  /-- The records that aggregates range over. -/
  group : List Record
  deriving Repr

/-- A record by itself. -/
def Rows.single (record : Record) : Rows :=
  ⟨record, [record]⟩

/-- A group of records, which its first record stands for. An empty group is stood for
    by a record without members. -/
def Rows.ofGroup (group : List Record) : Rows :=
  ⟨group.head?.getD [], group⟩

end Polyquery
