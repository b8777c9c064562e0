import Polyquery.Json.Printer

/-!
# Literals

The constants of a query: strings, whole numbers, floating-point numbers and
truth values. There is no null literal; a missing value is asked for with a
null test.

## Main definitions

* `Literal`: The constants.
* `Literal.ofJson?`: The constant that a JSON value stands for.
* `Literal.toJson`: The JSON value of a constant.
* `Literal.text`: The constant inside an expression string.
* `Literal.same`: Equality of constants.
-/

namespace Polyquery

/-- A constant of a query. Whole numbers fit into 64 signed bits. -/
inductive Literal where
  | string (value : String)
  | integer (value : Int)
  | float (value : Float)
  | boolean (value : Bool)
  deriving Repr, DecidableEq

namespace Literal

/-- The constant of a JSON value. A whole number too large for 64 signed bits becomes
    a floating-point one; null, arrays and objects are no constants. -/
def ofJson? : Json → Option Literal
  | .string s => some (.string s)
  | .bool b => some (.boolean b)
  | .number n =>
    match n.toInt64? with
    | some i => some (.integer i)
    | none => some (.float n.toFloat)
  | _ => none

/-- The JSON value of a constant. -/
def toJson : Literal → Json
  | .string s => .string s
  | .integer n => .ofInt n
  | .float x => .ofFloat x
  | .boolean b => .bool b

/-- The text of a string constant. -/
def asString? : Literal → Option String
  | .string s => some s
  | _ => none

/-- The value of a numeric constant. -/
def asFloat? : Literal → Option Float
  | .integer n => some (Float.ofInt n)
  | .float x => some x
  | _ => none

/-- A string with every single quote written twice. -/
def doubleQuotes (s : String) : String :=
  String.ofList (s.toList.flatMap fun c => if c = '\'' then ['\'', '\''] else [c])

/-- A constant inside an expression string. Strings stand in single quotes. -/
def text : Literal → String
  | .string s => "'" ++ doubleQuotes s ++ "'"
  | .integer n => toString n
  | .float x => Decimal.Layout.plain.write x
  | .boolean b => if b then "true" else "false"

/-- Equality of constants: numbers of one kind by value, and never a whole number with
    a floating-point one. -/
def same : Literal → Literal → Bool
  | .string a, .string b => a == b
  | .integer a, .integer b => a == b
  | .float a, .float b => a == b
  | .boolean a, .boolean b => a == b
  | _, _ => false

/-- Equality of two lists of constants. -/
def sameList : List Literal → List Literal → Bool
  | [], [] => true
  | a :: as, b :: bs => a.same b && sameList as bs
  | _, _ => false

end Literal

end Polyquery
