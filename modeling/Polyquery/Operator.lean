import Polyquery.Text.Case

/-!
# Comparison Operators

The operators between the left side of a condition and its value. The
operators fall into groups that share rules: null tests take no value,
membership tests take a list, pattern operators take a string, and only plain
comparisons can compare with another property.

## Main definitions

* `Operator`: The operators.
* `Operator.ofName?`: Lookup by name, in which the case of letters does not
  count.
* `Operator.valueCount`, `Operator.takesField`, `Operator.takesList`,
  `Operator.isPattern`: The rules that the groups share.
* `Operator.complement?`: The operator that holds exactly where another one
  does not.

## Theorems

* `Operator.mem_all`: The list of operators leaves none out.
* `Operator.ofName?_name`: Lookup finds an operator by its own name.
-/

namespace Polyquery

/-- A comparison operator. -/
inductive Operator where
  | equals | notEquals
  | startsWith | endsWith | contains
  | greaterThan | greaterThanEquals | lesserThan | lesserThanEquals
  | isIn | notIn
  | isNull | isNotNull
  deriving Repr, DecidableEq

namespace Operator

/-- Every operator once. -/
def all : List Operator :=
  [equals, notEquals, startsWith, endsWith, contains, greaterThan, greaterThanEquals, lesserThan,
    lesserThanEquals, isIn, notIn, isNull, isNotNull]

/-- The name of an operator as it is written in a query. -/
def name : Operator → String
  | equals => "EQUALS"
  | notEquals => "NOT_EQUALS"
  | startsWith => "STARTS_WITH"
  | endsWith => "ENDS_WITH"
  | contains => "CONTAINS"
  | greaterThan => "GREATER_THAN"
  | greaterThanEquals => "GREATER_THAN_EQUALS"
  | lesserThan => "LESSER_THAN"
  | lesserThanEquals => "LESSER_THAN_EQUALS"
  | isIn => "IN"
  | notIn => "NOT_IN"
  | isNull => "IS_NULL"
  | isNotNull => "IS_NOT_NULL"

/-- The operator with a name, in which the case of ASCII letters does not count. -/
def ofName? (name : String) : Option Operator :=
  all.find? fun op => Text.sameIgnoringAsciiCase op.name name

/-- The number of values an operator takes besides the left side. -/
def valueCount : Operator → Nat
  | isNull | isNotNull => 0
  | _ => 1

/-- Whether the value may be another property of the same record. -/
def takesField : Operator → Bool
  | equals | notEquals | greaterThan | greaterThanEquals | lesserThan | lesserThanEquals => true
  | _ => false

/-- Whether the value is a list. -/
def takesList : Operator → Bool
  | isIn | notIn => true
  | _ => false

/-- Whether the value is a text to be found in the left side. -/
def isPattern : Operator → Bool
  | startsWith | endsWith | contains => true
  | _ => false

/-- The operator that holds exactly where another one does not, null included.
    Orderings and patterns have none, because they do not hold on null and neither
    would their complement. -/
def complement? : Operator → Option Operator
  | equals => some notEquals
  | notEquals => some equals
  | isIn => some notIn
  | notIn => some isIn
  | isNull => some isNotNull
  | isNotNull => some isNull
  | _ => none

/-- The list of operators leaves none out. -/
theorem mem_all (op : Operator) : op ∈ all := by
  cases op <;> decide

/-- Lookup finds an operator by its own name, so no two names are the same. -/
theorem ofName?_name (op : Operator) : ofName? op.name = some op := by
  cases op <;> decide +kernel

end Operator

end Polyquery
