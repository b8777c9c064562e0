import Polyquery.Backend.FunctionTable
import Polyquery.Expression
import Polyquery.Mongo.Syntax

/-!
# Expressions in Mongo

An expression is read in a scope. On a document, a property is the field at
its path. After documents have been grouped, only the group keys and the
accumulated values are left: an expression that is one of them is a reference
to it, and a property that is none of them has no value. Which expression is
which is told by their expression strings.

Positions and offsets of texts count from zero in Mongo and from one in a
query.

## Main definitions

* `Mongo.Scope`, `Mongo.GroupScope`: Where an expression is read.
* `Mongo.functionTable`: The functions in Mongo.
* `Mongo.ofExpression`: An expression in a scope.
-/

namespace Polyquery.Mongo

/-- The name of the Mongo backend in messages. -/
def backendName : String := "mongo"

/-- What can be referred to after documents have been grouped. -/
structure GroupScope where
  /-- The fields of expression strings. -/
  fields : List (String × String)
  /-- Whether the group key is a native piece, of which any field may be read. -/
  nativeKey : Bool
  deriving Repr

/-- Where an expression is read. -/
inductive Scope where
  | document
  | grouped (scope : GroupScope)
  deriving Repr

namespace Scope

/-- The field that stands for an expression. -/
def fieldOf? (scope : Scope) (e : Expression) : Option String :=
  match scope with
  | .document => none
  | .grouped group => group.fields.lookup e.text

/-- The value of a property. -/
def property (scope : Scope) (path : String) : Except CompileError Expr :=
  match scope with
  | .document => .ok (.field path)
  | .grouped group =>
    if group.nativeKey then .ok (.field ("_id." ++ path))
    else .error (.typeMismatch (.ungrouped path))

end Scope

/-- Whether an expression is not null, which is the least of all values. -/
def present (e : Expr) : Expr :=
  .compare .greater e .null

/-- A whole number. -/
def number (n : Int) : Expr :=
  .constant (.integer n)

/-- An operator of one argument. -/
def unary (operation : Operation) : FunctionHandler Expr := fun function arguments => do
  let a ← one function arguments
  return .unary operation a

/-- An operator of any number of arguments. -/
def variadic (operation : Operation) : FunctionHandler Expr := fun _ arguments =>
  .ok (.apply operation arguments)

/-- An expression that takes no arguments. -/
def fixed (e : Expr) : FunctionHandler Expr := fun _ _ => .ok e

/-- The removal of spaces. -/
def trimming (side : TrimSide) : FunctionHandler Expr := fun function arguments => do
  let a ← one function arguments
  return .trim side a

/-- The part of a text from a position on. -/
def substring : FunctionHandler Expr := fun function arguments => do
  let (text, start, length) ← three function arguments
  return .apply .substring [text, .apply .subtract [start, number 1], length]

/-- The position of the first argument in the second one, which Mongo takes first. -/
def location : FunctionHandler Expr := fun function arguments => do
  let (needle, hay) ← two function arguments
  return .apply .add [.apply .position [hay, needle], number 1]

/-- The first argument that is not null. A single argument stands for itself. -/
def firstPresent : FunctionHandler Expr
  | _, [a] => .ok a
  | _, arguments => .ok (.apply .firstPresent arguments)

/-- Null when two arguments are equal, and the first one otherwise. -/
def nullWhenEqual : FunctionHandler Expr := fun function arguments => do
  let (first, second) ← two function arguments
  return .apply .choose [.compare .equal first second, .null, first]

/-- The number of values that are not null. -/
def counting : FunctionHandler Expr := fun function arguments => do
  let a ← one function arguments
  return .unary .sum (.apply .choose [present a, number 1, number 0])

/-- The functions in Mongo. -/
def functionTable : FunctionTable Expr :=
  .of backendName [
    (.abs, unary .abs),
    (.sqrt, unary .sqrt),
    (.mod, variadic .mod),
    (.concat, variadic .concat),
    (.substring, substring),
    (.trim, trimming .both),
    (.ltrim, trimming .left),
    (.rtrim, trimming .right),
    (.length, unary .length),
    (.locate, location),
    (.lower, unary .lower),
    (.upper, unary .upper),
    (.currentDate, fixed .today),
    (.currentTime, fixed .timeOfDay),
    (.currentTimestamp, fixed .now),
    (.coalesce, firstPresent),
    (.nullif, nullWhenEqual),
    (.count, counting),
    (.sum, unary .sum),
    (.avg, unary .average),
    (.min, unary .least),
    (.max, unary .greatest)]

mutual

/-- An expression in a scope. -/
def ofExpression (scope : Scope) : Expression → Except CompileError Expr
  | .property path label =>
    match scope.fieldOf? (.property path label) with
    | some field => .ok (.field field)
    | none => scope.property path
  | .call function arguments label =>
    match scope.fieldOf? (.call function arguments label) with
    | some field => .ok (.field field)
    | none => do
      let arguments ← ofArguments scope arguments
      functionTable.apply function arguments

/-- The arguments of a call in a scope. -/
def ofArguments (scope : Scope) : List Argument → Except CompileError (List Expr)
  | [] => .ok []
  | .expression value :: rest => do
    let first ← ofExpression scope value
    let others ← ofArguments scope rest
    return first :: others
  | .literal value :: rest => do
    let others ← ofArguments scope rest
    return .constant value :: others

end

end Polyquery.Mongo
