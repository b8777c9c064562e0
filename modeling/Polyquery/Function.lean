import Polyquery.Text.Case

/-!
# Functions of Property Expressions

The closed set of functions that a query can call. A function has a name, a
family and a rule for how many arguments it takes. The aggregate functions are
the ones that look at several rows; where they may stand in a query is checked
elsewhere.

## Main definitions

* `Function`: The functions.
* `Function.Category`: Their families.
* `Arity`: How many arguments a function takes.
* `Function.ofName?`: Lookup by name, in which the case of letters does not
  count.

## Theorems

* `Function.mem_all`: The list of functions leaves none out.
* `Function.ofName?_name`: Lookup finds a function by its own name.
-/

namespace Polyquery

/-- How many arguments a function takes. -/
inductive Arity where
  | none
  | exactly (count : Nat)
  | atLeast (count : Nat)
  deriving Repr, DecidableEq

/-- Whether a number of arguments is allowed. -/
def Arity.accepts : Arity → Nat → Bool
  | .none, n => n == 0
  | .exactly count, n => n == count
  | .atLeast count, n => count ≤ n

/-- The rule in words. -/
def Arity.text : Arity → String
  | .none => "no"
  | .exactly count => "exactly " ++ toString count
  | .atLeast count => "at least " ++ toString count

/-- A function of property expressions. -/
inductive Function where
  | abs | sqrt | mod
  | concat | substring | trim | ltrim | rtrim | length
  /-- The position of the first argument in the second one, counted from one, or zero. -/
  | locate
  | lower | upper
  | currentDate | currentTime | currentTimestamp
  | coalesce
  /-- Null when the arguments are equal, and the first argument otherwise. -/
  | nullif
  | count | sum | avg | min | max
  deriving Repr, DecidableEq

namespace Function

/-- The families of functions. -/
inductive Category where
  | arithmetic
  | string
  | dateTime
  | conditional
  | aggregate
  deriving Repr, DecidableEq

/-- Every function once. -/
def all : List Function :=
  [abs, sqrt, mod, concat, substring, trim, ltrim, rtrim, length, locate, lower, upper,
    currentDate, currentTime, currentTimestamp, coalesce, nullif, count, sum, avg, min, max]

/-- The name of a function as it is written in a query. -/
def name : Function → String
  | abs => "ABS"
  | sqrt => "SQRT"
  | mod => "MOD"
  | concat => "CONCAT"
  | substring => "SUBSTRING"
  | trim => "TRIM"
  | ltrim => "LTRIM"
  | rtrim => "RTRIM"
  | length => "LENGTH"
  | locate => "LOCATE"
  | lower => "LOWER"
  | upper => "UPPER"
  | currentDate => "CURRENT_DATE"
  | currentTime => "CURRENT_TIME"
  | currentTimestamp => "CURRENT_TIMESTAMP"
  | coalesce => "COALESCE"
  | nullif => "NULLIF"
  | count => "COUNT"
  | sum => "SUM"
  | avg => "AVG"
  | min => "MIN"
  | max => "MAX"

/-- The function with a name, in which the case of ASCII letters does not count. -/
def ofName? (name : String) : Option Function :=
  all.find? fun f => Text.sameIgnoringAsciiCase f.name name

/-- The family of a function. -/
def category : Function → Category
  | abs | sqrt | mod => .arithmetic
  | concat | substring | trim | ltrim | rtrim | length | locate | lower | upper => .string
  | currentDate | currentTime | currentTimestamp => .dateTime
  | coalesce | nullif => .conditional
  | count | sum | avg | min | max => .aggregate

/-- How many arguments a function takes. -/
def arity : Function → Arity
  | currentDate | currentTime | currentTimestamp => .none
  | concat => .atLeast 2
  | coalesce => .atLeast 1
  | mod | locate | nullif => .exactly 2
  | substring => .exactly 3
  | _ => .exactly 1

/-- Whether a function looks at several rows. -/
def isAggregate (f : Function) : Bool :=
  f.category == .aggregate

/-- The list of functions leaves none out. -/
theorem mem_all (f : Function) : f ∈ all := by
  cases f <;> decide

/-- Lookup finds a function by its own name, so no two names are the same. -/
theorem ofName?_name (f : Function) : ofName? f.name = some f := by
  cases f <;> decide +kernel

end Function

end Polyquery
