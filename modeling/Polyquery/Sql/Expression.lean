import Polyquery.Backend.FunctionTable
import Polyquery.Expression
import Polyquery.Sql.Syntax

/-!
# Expressions in SQL

A property is the column to which its path leads. Most functions have the same
name in SQL. Texts are put together with an operator, which yields null as
soon as one of them is null.

The database finds out the type of the second argument of `NULLIF` from the
first one if it is a constant; otherwise a choice takes its place.

## Main definitions

* `Sql.functionTable`: The functions in SQL.
* `Sql.column`, `Sql.ofExpression`: Properties and expressions in SQL.
-/

namespace Polyquery.Sql

/-- The name of the SQL backend in messages. -/
def backendName : String := "sql"

/-- A function that has one name in SQL for any arguments. -/
def named (name : String) : FunctionHandler Expr := fun _ arguments => .ok (.call name arguments)

/-- A function that has the same name in SQL. -/
def sameName : FunctionHandler Expr := fun function arguments =>
  .ok (.call function.name arguments)

/-- A word that takes no arguments. -/
def word (keyword : Keyword) : FunctionHandler Expr := fun _ _ => .ok (.keyword keyword)

/-- Texts put together from left to right. -/
def concatenation : FunctionHandler Expr
  | _, [] => .error (.typeMismatch .nothingToConcatenate)
  | _, first :: rest => .ok (rest.foldl .concat first)

/-- The position of the first argument in the second one; SQL takes them the other way round. -/
def location : FunctionHandler Expr := fun function arguments => do
  let (needle, hay) ← two function arguments
  return .call "STRPOS" [hay, needle]

/-- Null when two arguments are equal, and the first one otherwise. -/
def nullWhenEqual : FunctionHandler Expr := fun function arguments => do
  let (first, second) ← two function arguments
  match second with
  | .value _ => return .call "NULLIF" [first, second]
  | _ => return .choose (.compare .equal first second) (.keyword .null) first

/-- The functions in SQL. -/
def functionTable : FunctionTable Expr :=
  .of backendName [
    (.abs, sameName),
    (.sqrt, sameName),
    (.mod, sameName),
    (.concat, concatenation),
    (.substring, named "SUBSTR"),
    (.trim, named "BTRIM"),
    (.ltrim, sameName),
    (.rtrim, sameName),
    (.length, sameName),
    (.locate, location),
    (.lower, sameName),
    (.upper, sameName),
    (.currentDate, word .currentDate),
    (.currentTime, word .currentTime),
    (.currentTimestamp, word .currentTimestamp),
    (.coalesce, sameName),
    (.nullif, nullWhenEqual),
    (.count, sameName),
    (.sum, sameName),
    (.avg, sameName),
    (.min, sameName),
    (.max, sameName)]

/-- The column to which a path leads. -/
def column (schema : Schema) (root path : String) : Except CompileError Expr :=
  (schema.resolve root path).map fun resolved => .column resolved.tableAlias resolved.column

mutual

/-- An expression in SQL. -/
def ofExpression (schema : Schema) (root : String) : Expression → Except CompileError Expr
  | .property path _ => column schema root path
  | .call function arguments _ => do
    let arguments ← ofArguments schema root arguments
    functionTable.apply function arguments

/-- The arguments of a call in SQL. -/
def ofArguments (schema : Schema) (root : String) : List Argument → Except CompileError (List Expr)
  | [] => .ok []
  | .expression value :: rest => do
    let first ← ofExpression schema root value
    let others ← ofArguments schema root rest
    return first :: others
  | .literal value :: rest => do
    let others ← ofArguments schema root rest
    return .value value :: others

end

end Polyquery.Sql
