import Polyquery.Backend.NativeTable
import Polyquery.Direction
import Polyquery.Literal

/-!
# The Syntax of Search Requests

The part of the query language of a search engine that queries are compiled
to. A clause either matches a document or does not. Clauses on a field do not
match a document without a value in that field.

## Main definitions

* `Search.Clause`: Tests of documents.
* `Search.Request`: A request with its body.
* `Search.Clause.toJson`, `Search.Request.body`: The documents that are sent.
-/

namespace Polyquery.Search

/-- A bound of a range. -/
inductive Bound where
  | above
  | atLeast
  | below
  | atMost
  deriving Repr, DecidableEq

/-- A test of documents. -/
inductive Clause where
  | all
  | present (field : String)
  | term (field : String) (literal : Literal)
  | terms (field : String) (values : List Literal)
  | range (field : String) (bound : Bound) (literal : Literal)
  /-- A match of a pattern, whatever the case of letters. -/
  | wildcard (field pattern : String)
  | every (clauses : List Clause)
  | any (clauses : List Clause)
  | not (clause : Clause)
  /-- Documents with a value in a field that a clause does not match. -/
  | presentExcept (field : String) (clause : Clause)
  | native (document : Json)
  deriving Repr

/-- The fields that a request returns. -/
inductive Source where
  | fields (names : List String)
  | native (value : Json)
  deriving Repr

/-- A key that a request sorts by. -/
inductive SortEntry where
  | field (name : String) (direction : Direction)
  | native (value : Json)
  deriving Repr

/-- A request to an index. -/
structure Request where
  index : String
  query : Clause
  source : Option Source
  sort : List SortEntry
  page : Option (Nat × Nat)
  /-- What is done with the members of the body when they are complete. -/
  adjustments : List (List (String × Json) → List (String × Json))
  /-- The names of the result columns; a query for records has none. -/
  columns : List String

/-- An object with one member. -/
def single (key : String) (value : Json) : Json :=
  .object [(key, value)]

/-- The name of a bound. -/
def Bound.name : Bound → String
  | above => "gt"
  | atLeast => "gte"
  | below => "lt"
  | atMost => "lte"

/-- The test that a field has a value. -/
def presentJson (field : String) : Json :=
  single "exists" (single "field" (.string field))

/-- The document of a combination of clauses. -/
def combined (members : List (String × Json)) : Json :=
  single "bool" (.object members)

namespace Clause

mutual

/-- The document of a clause. -/
def toJson : Clause → Json
  | .all => single "match_all" (.object [])
  | .present field => presentJson field
  | .term field literal => single "term" (single field literal.toJson)
  | .terms field values => single "terms" (single field (.array (values.map Literal.toJson)))
  | .range field bound literal => single "range" (single field (single bound.name literal.toJson))
  | .wildcard field pattern =>
    single "wildcard" (single field
      (.object [("value", .string pattern), ("case_insensitive", .bool true)]))
  | .every clauses => combined [("must", .array (toJsons clauses))]
  | .any clauses =>
    combined [("should", .array (toJsons clauses)), ("minimum_should_match", .ofInt 1)]
  | .not clause => combined [("must_not", .array [clause.toJson])]
  | .presentExcept field clause =>
    combined [("filter", .array [presentJson field]), ("must_not", .array [clause.toJson])]
  | .native document => document

/-- The documents of several clauses. -/
def toJsons : List Clause → List Json
  | [] => []
  | clause :: rest => clause.toJson :: toJsons rest

end

end Clause

/-- The fields that are returned. -/
def Source.toJson : Source → Json
  | .fields names => .array (names.map .string)
  | .native value => value

/-- The word for a direction. -/
def directionWord : Direction → String
  | .ascending => "asc"
  | .descending => "desc"

/-- A key to sort by. -/
def SortEntry.toJson : SortEntry → Json
  | .field name direction => single name (single "order" (.string (directionWord direction)))
  | .native value => value

namespace Request

/-- The members of the body before they are adjusted. -/
def members (request : Request) : List (String × Json) :=
  [("query", request.query.toJson)] ++
    (match request.source with
      | some source => [("_source", source.toJson)]
      | none => []) ++
    (if request.sort.isEmpty then [] else [("sort", .array (request.sort.map SortEntry.toJson))]) ++
    (match request.page with
      | some (start, size) => [("from", .ofNat start), ("size", .ofNat size)]
      | none => [])

/-- The body of a request. -/
def body (request : Request) : Json :=
  .object (adjustAll request.adjustments request.members)

end Request

end Polyquery.Search
