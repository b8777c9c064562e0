import Polyquery.Direction
import Polyquery.Literal
import Polyquery.Schema.Path

/-!
# The Syntax of SQL Queries

The part of SQL that queries are compiled to: expressions, and the statement
that selects rows. Columns are named by the alias of their table and their own
name.

## Main definitions

* `Sql.Comparison`, `Sql.Expr`: Expressions.
* `Sql.Item`, `Sql.Statement`: A `SELECT` statement and the items it selects.
-/

namespace Polyquery.Sql

/-- A comparison of two expressions. -/
inductive Comparison where
  | equal
  | notEqual
  | less
  | lessEqual
  | greater
  | greaterEqual
  deriving Repr, DecidableEq

/-- A word that stands for a value. -/
inductive Keyword where
  | null
  | currentDate
  | currentTime
  | currentTimestamp
  deriving Repr, DecidableEq

/-- An expression. -/
inductive Expr where
  | column (table name : String)
  | value (literal : Literal)
  | keyword (word : Keyword)
  | call (name : String) (arguments : List Expr)
  | compare (comparison : Comparison) (left right : Expr)
  | concat (left right : Expr)
  | isNull (operand : Expr)
  | isNotNull (operand : Expr)
  | isIn (operand : Expr) (values : List Literal)
  | notIn (operand : Expr) (values : List Literal)
  /-- A match of a pattern in which the backslash takes the meaning from the next character. -/
  | like (operand : Expr) (pattern : String)
  | notLike (operand : Expr) (pattern : String)
  | and (left right : Expr)
  | or (left right : Expr)
  | not (operand : Expr)
  /-- One of two values, by a condition. -/
  | choose (condition yes no : Expr)
  /-- A piece of SQL as it is. -/
  | raw (piece : String)
  deriving Repr

/-- An item of a select list. -/
inductive Item where
  /-- Every column of a table. -/
  | all (table : String)
  | named (value : Expr) (name : String)
  | unnamed (value : Expr)
  deriving Repr

/-- A statement that selects rows. -/
structure Statement where
  distinct : Bool
  items : List Item
  table : String
  joins : List Join
  filter : Option Expr
  groupBy : List Expr
  having : Option Expr
  orderBy : List (Expr × Direction)
  limit : Option Nat
  offset : Option Nat
  deriving Repr

end Polyquery.Sql
