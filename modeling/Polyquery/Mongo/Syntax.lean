import Polyquery.Direction
import Polyquery.Literal

/-!
# The Syntax of Mongo Commands

The part of the query language of Mongo that queries are compiled to. There
are two languages in it. A filter tests the fields of a document with clauses;
an expression computes a value from a document, and a filter can hold one. The
two read null differently: a clause of ordering is false on null, and in an
expression null stands below every other value.

A command finds documents, or sends them through a pipeline of stages.

## Main definitions

* `Mongo.Expr`: Expressions.
* `Mongo.Clause`, `Mongo.Filter`: Filters.
* `Mongo.Stage`, `Mongo.Command`: Commands.
-/

namespace Polyquery.Mongo

/-- A comparison of two values. -/
inductive Comparison where
  | equal
  | notEqual
  | greater
  | greaterEqual
  | less
  | lessEqual
  deriving Repr, DecidableEq

/-- An operator of expressions. -/
inductive Operation where
  | abs | sqrt | mod
  | concat | substring | length | position | lower | upper
  | add | subtract
  | firstPresent
  /-- One of two values, by a condition. -/
  | choose
  | sum | average | least | greatest
  deriving Repr, DecidableEq

/-- The ends of a text from which spaces are removed. -/
inductive TrimSide where
  | both
  | left
  | right
  deriving Repr, DecidableEq

/-- An expression. -/
inductive Expr where
  /-- The value at a path of the document. -/
  | field (path : String)
  | null
  | constant (literal : Literal)
  /-- The current time. -/
  | now
  /-- The current time cut to the day. -/
  | today
  /-- The current time of day as a text. -/
  | timeOfDay
  /-- An operator that takes its only argument as it is. -/
  | unary (operation : Operation) (argument : Expr)
  /-- An operator that takes a list of arguments. -/
  | apply (operation : Operation) (arguments : List Expr)
  | trim (side : TrimSide) (text : Expr)
  | compare (comparison : Comparison) (left right : Expr)
  | isIn (left : Expr) (values : List Literal)
  /-- Whether a text matches a regular expression, whatever the case of its letters. -/
  | regexMatch (text : Expr) (pattern : String)
  | and (operands : List Expr)
  | not (operand : Expr)
  deriving Repr

/-- A test of the value of a field. -/
inductive Clause where
  | isNull
  | isNotNull
  | isIn (values : List Literal)
  | notIn (values : List Literal)
  /-- A match of a regular expression, whatever the case of letters. -/
  | regex (pattern : String)
  | compare (comparison : Comparison) (literal : Literal)
  /-- The contrary of a clause, on values that are not null. -/
  | exceptNull (clause : Clause)
  deriving Repr

/-- A test of documents. -/
inductive Filter where
  /-- The filter that every document passes. -/
  | all
  | field (path : String) (clause : Clause)
  | expr (condition : Expr)
  | and (parts : List Filter)
  | or (parts : List Filter)
  | native (document : Json)
  deriving Repr

/-- What a field is sorted by. -/
inductive SortValue where
  | by (direction : Direction)
  | native (value : Json)
  deriving Repr

/-- What stands under a name in a projection. -/
inductive Projected where
  /-- The field is left out. -/
  | omitted
  | computed (value : Expr)
  | native (value : Json)
  deriving Repr

/-- What documents are grouped by. -/
inductive GroupKey where
  /-- All documents are in one group. -/
  | none
  | fields (keys : List (String × Expr))
  /-- Documents are grouped when they are equal. -/
  | wholeDocument
  | native (value : Json)
  deriving Repr

/-- A stage of a pipeline. -/
inductive Stage where
  | matching (filter : Filter)
  | group (key : GroupKey) (accumulators : List (String × Expr))
  | project (fields : List (String × Projected))
  | addFields (fields : List (String × Expr))
  /-- The document is replaced by the key of its group. -/
  | replaceByKey
  | sort (keys : List (String × SortValue))
  | skip (count : Nat)
  | limit (count : Nat)
  | unset (fields : List String)
  deriving Repr

/-- A command. -/
inductive Command where
  | find (filter : Filter) (sort : List (String × SortValue)) (skip limit : Option Nat)
  | aggregate (pipeline : List Stage)
  deriving Repr

/-- A command on a collection. -/
structure Compiled where
  collection : String
  command : Command
  /-- The names of the result columns; a query for records has none. -/
  columns : List String
  deriving Repr

end Polyquery.Mongo
