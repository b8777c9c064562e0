import Polyquery.Expression
import Polyquery.Native

/-!
# Conditions

The filters of a query. A simple condition compares an expression with a
value; conditions are joined with `and` and `or`, turned around with `not`,
and may hold a native piece that a backend understands by itself.

Conditions are made by `SimpleCondition.of` and `Condition.negation`, which
keep these rules: a value is present exactly when the operator takes one, a
list and another property stand only under operators that take them, and a
native piece is not turned around. A condition without any simple condition or
native piece in it is empty and restricts nothing, however deep it is.

## Main definitions

* `ConditionValue`, `SimpleCondition`, `Condition`: The conditions.
* `SimpleCondition.of`, `SimpleCondition.ofParts`, `Condition.negation`:
  Making them.
* `Condition.isEmpty`: Whether a condition restricts nothing.
* `Condition.leaves`: The simple conditions, from left to right.
* `Condition.same`: Equality.
-/

namespace Polyquery

/-- The right side of a comparison. -/
inductive ConditionValue where
  | scalar (value : Literal)
  | list (values : List Literal)
  /-- Another property of the same record. -/
  | field (path : String)
  deriving Repr

/-- Another property of the same record as a value, unless its path is blank. -/
def ConditionValue.ofField (path : String) : Except ValidationError ConditionValue :=
  (Expression.checkPath path).map .field

/-- Equality of values. -/
def ConditionValue.same : ConditionValue → ConditionValue → Bool
  | .scalar a, .scalar b => a.same b
  | .list as, .list bs => Literal.sameList as bs
  | .field a, .field b => a == b
  | _, _ => false

/-- A comparison of an expression with a value. -/
structure SimpleCondition where
  left : Expression
  operator : Operator
  value : Option ConditionValue
  deriving Repr

namespace SimpleCondition

/-- The comparison of an expression with a value, if the operator takes such a value. -/
def of (left : Expression) (operator : Operator) (value : Option ConditionValue) :
    Except ValidationError SimpleCondition :=
  let count := if value.isSome then 1 else 0
  if count ≠ operator.valueCount then .error (.valueCount operator count)
  else match value with
    | some (.field _) =>
      if operator.takesField then .ok ⟨left, operator, value⟩
      else .error (.fieldNotAllowed operator)
    | some (.list _) =>
      if operator.takesList then .ok ⟨left, operator, value⟩
      else .error (.listNotAllowed operator)
    | _ => .ok ⟨left, operator, value⟩

/-- The comparison whose left side is given as a property name or as an expression. -/
def ofParts (name : Option String) (expression : Option Expression) (operator : Operator)
    (value : Option ConditionValue) : Except ValidationError SimpleCondition := do
  let left ← Expression.ofEither .condition name expression
  of left operator value

/-- Equality of comparisons. -/
def same (a b : SimpleCondition) : Bool :=
  a.left.same b.left && a.operator == b.operator &&
    match a.value, b.value with
    | some v, some w => v.same w
    | none, none => true
    | _, _ => false

end SimpleCondition

/-- A condition on records. -/
inductive Condition where
  | simple (leaf : SimpleCondition)
  | and (children : List Condition)
  | or (children : List Condition)
  | not (child : Condition)
  | native (piece : Native)
  deriving Repr

namespace Condition

/-- Whether a condition is a native piece. -/
def isNative : Condition → Bool
  | .native _ => true
  | _ => false

/-- The condition turned around, unless it is a native piece. -/
def negation (child : Condition) : Except ValidationError Condition :=
  if child.isNative then .error .negatedNative else .ok (.not child)

mutual

/-- Whether a condition holds nothing that restricts records. -/
def isEmpty : Condition → Bool
  | .simple _ => false
  | .and children => allEmpty children
  | .or children => allEmpty children
  | .not child => child.isEmpty
  | .native _ => false

/-- Whether all of several conditions are empty. -/
def allEmpty : List Condition → Bool
  | [] => true
  | child :: rest => child.isEmpty && allEmpty rest

end

mutual

/-- The simple conditions of a condition from left to right. -/
def leaves : Condition → List SimpleCondition
  | .simple leaf => [leaf]
  | .and children => leavesAll children
  | .or children => leavesAll children
  | .not child => child.leaves
  | .native _ => []

/-- The simple conditions of several conditions. -/
def leavesAll : List Condition → List SimpleCondition
  | [] => []
  | child :: rest => child.leaves ++ leavesAll rest

end

mutual

/-- Equality of conditions. -/
def same : Condition → Condition → Bool
  | .simple a, .simple b => a.same b
  | .and as, .and bs => sameList as bs
  | .or as, .or bs => sameList as bs
  | .not a, .not b => a.same b
  | .native a, .native b => a.same b
  | _, _ => false

/-- Equality of two lists of conditions. -/
def sameList : List Condition → List Condition → Bool
  | [], [] => true
  | a :: as, b :: bs => a.same b && sameList as bs
  | _, _ => false

end

end Condition

end Polyquery
