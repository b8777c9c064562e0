import Polyquery.Backend.FunctionTable
import Polyquery.Expression
import Polyquery.Memory.Aggregate
import Polyquery.Memory.Record
import Polyquery.Memory.Scalar

/-!
# Evaluating Expressions on Records

An expression becomes a function from groups of records to values. Properties
are read from the record that stands for the group. An aggregate evaluates its
argument on each record of the group by itself and leaves nulls out. The time
of day is fixed before a query is evaluated.

## Main definitions

* `Clock`: The current date and time as texts.
* `Evaluator`: A function from groups of records to values.
* `evaluationTable`: How each function is evaluated.
* `Expression.evaluator`: The evaluator of an expression.
-/

namespace Polyquery

/-- The name of the in-memory backend in messages. -/
def memoryName : String := "memory"

/-- The current date and time, written out. -/
structure Clock where
  date : String
  time : String
  timestamp : String
  deriving Repr

/-- What an expression yields on a group of records. -/
abbrev Evaluator := Rows → Json

namespace Evaluator

/-- The evaluator that yields one value everywhere. -/
def constant (value : Json) : Evaluator := fun _ => value

/-- A function of one value as a handler. -/
def unary (f : Json → Json) : FunctionHandler Evaluator := fun function arguments => do
  let a ← one function arguments
  return fun rows => f (a rows)

/-- A function of two values as a handler. -/
def binary (f : Json → Json → Json) : FunctionHandler Evaluator := fun function arguments => do
  let (a, b) ← two function arguments
  return fun rows => f (a rows) (b rows)

/-- A function of three values as a handler. -/
def ternary (f : Json → Json → Json → Json) : FunctionHandler Evaluator :=
  fun function arguments => do
    let (a, b, c) ← three function arguments
    return fun rows => f (a rows) (b rows) (c rows)

/-- A function of any number of values as a handler. -/
def variadic (f : List Json → Json) : FunctionHandler Evaluator := fun _ arguments =>
  .ok fun rows => f (arguments.map fun a => a rows)

/-- A text that does not depend on records as a handler. -/
def fixed (value : String) : FunctionHandler Evaluator := fun _ _ =>
  .ok (constant (.string value))

/-- The values of an evaluator on each record of a group by itself, without nulls. -/
def valuesOn (a : Evaluator) (group : List Record) : List Json :=
  (group.map fun record => a (.single record)).filter fun value => !value.isNull

/-- A function of the values in a group as a handler. -/
def aggregate (reduce : List Json → Json) : FunctionHandler Evaluator :=
  fun function arguments => do
    let a ← one function arguments
    return fun rows => reduce (a.valuesOn rows.group)

end Evaluator

open Evaluator

/-- How each function is evaluated. -/
def evaluationTable (clock : Clock) : FunctionTable Evaluator :=
  .of memoryName [
    (.abs, unary Scalar.absolute),
    (.sqrt, unary Scalar.squareRoot),
    (.mod, binary Scalar.modulo),
    (.concat, variadic Scalar.concatenate),
    (.substring, ternary Scalar.substring),
    (.trim, unary (Scalar.mapText (Text.trimSpacesRight ∘ Text.trimSpacesLeft))),
    (.ltrim, unary (Scalar.mapText Text.trimSpacesLeft)),
    (.rtrim, unary (Scalar.mapText Text.trimSpacesRight)),
    (.length, unary (Scalar.onText fun cs => .ofNat cs.length)),
    (.locate, binary Scalar.locate),
    (.lower, unary (Scalar.mapText Text.lowerChars)),
    (.upper, unary (Scalar.mapText Text.upperChars)),
    (.currentDate, fixed clock.date),
    (.currentTime, fixed clock.time),
    (.currentTimestamp, fixed clock.timestamp),
    (.coalesce, variadic Scalar.firstPresent),
    (.nullif, binary Scalar.nullIfEqual),
    (.count, aggregate Aggregate.count),
    (.sum, aggregate Aggregate.sum),
    (.avg, aggregate Aggregate.average),
    (.min, aggregate (Aggregate.extreme .lt)),
    (.max, aggregate (Aggregate.extreme .gt))]

namespace Expression

mutual

/-- The evaluator of an expression. -/
def evaluator (clock : Clock) : Expression → Except CompileError Evaluator
  | .property path _ => .ok fun rows => rows.current.lookup path
  | .call function arguments _ => do
    let arguments ← argumentEvaluators clock arguments
    (evaluationTable clock).apply function arguments

/-- The evaluators of the arguments of a call. -/
def argumentEvaluators (clock : Clock) : List Argument → Except CompileError (List Evaluator)
  | [] => .ok []
  | .expression value :: rest => do
    let first ← value.evaluator clock
    let others ← argumentEvaluators clock rest
    return first :: others
  | .literal value :: rest => do
    let others ← argumentEvaluators clock rest
    return .constant value.toJson :: others

end

end Expression

end Polyquery
