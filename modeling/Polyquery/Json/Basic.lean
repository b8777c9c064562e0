/-!
# JSON Values

The values of the JSON data format. Objects are lists of members and keep
their order, because the order in which members are written is part of what a
caller sees. Numbers are whole or floating point, and the two never equal each
other.

A text may repeat a key in one object. `Json.settle` gives the value such a
text stands for: the last member of a key wins and stands where the first one
stood.

## Main definitions

* `Number`, `Json`: The values.
* `Number.toInt64?`, `Number.toFloat`: The two views of a number.
* `Json.same`: Equality of values, in which the order of members does not
  count.
* `insertKey`, `insertAll`: Members with a key set in place, and members from
  pairs.
* `Json.settle`: Repeated keys resolved.
-/

namespace Polyquery

/-- A JSON number. Whole numbers lie between `-2 ^ 63` and `2 ^ 64 - 1`; every other
    number is a floating-point one. -/
inductive Number where
  | int (value : Int)
  | float (value : Float)
  deriving Repr, DecidableEq

/-- The greatest signed 64-bit integer. -/
def maxInt64 : Int := 9223372036854775807

/-- The least signed 64-bit integer. -/
def minInt64 : Int := -9223372036854775808

/-- A whole number that fits into 64 signed bits. -/
def Number.toInt64? : Number → Option Int
  | .int n => if n ≤ maxInt64 then some n else none
  | .float _ => none

/-- The floating-point number next to a number. -/
def Number.toFloat : Number → Float
  | .int n => Float.ofInt n
  | .float x => x

/-- Equality of numbers: whole numbers by value, floating-point numbers by their own
    comparison, and never one of each kind. -/
def Number.same : Number → Number → Bool
  | .int a, .int b => a == b
  | .float a, .float b => a == b
  | _, _ => false

/-- A JSON value. The members of an object are in the order in which they are written. -/
inductive Json where
  | null
  | bool (value : Bool)
  | number (value : Number)
  | string (value : String)
  | array (items : List Json)
  | object (members : List (String × Json))
  deriving Repr, Inhabited

namespace Json

/-- A whole number as a value. -/
def ofInt (n : Int) : Json := .number (.int n)

/-- A natural number as a value. -/
def ofNat (n : Nat) : Json := .number (.int (Int.ofNat n))

/-- A finite floating-point number as a value; JSON has null for the others. -/
def ofFloat (x : Float) : Json :=
  if x.isFinite then .number (.float x) else .null

/-- The text of a string value. -/
def asString? : Json → Option String
  | .string s => some s
  | _ => none

/-- The value of a whole number that fits into 64 signed bits. -/
def toInt64? : Json → Option Int
  | .number n => n.toInt64?
  | _ => none

/-- The floating-point number next to a number. -/
def toFloat? : Json → Option Float
  | .number n => some n.toFloat
  | _ => none

/-- Whether a value is null. -/
def isNull : Json → Bool
  | .null => true
  | _ => false

/-- The member of an object with the given key. -/
def get? (key : String) : Json → Option Json
  | .object members => members.lookup key
  | _ => none

mutual

/-- Equality of values. The members of two objects may come in any order. -/
def same : Json → Json → Bool
  | .null, .null => true
  | .bool a, .bool b => a == b
  | .number a, .number b => a.same b
  | .string a, .string b => a == b
  | .array as, .array bs => sameItems as bs
  | .object as, .object bs => as.length == bs.length && sameMembers as bs
  | _, _ => false

/-- Equality of two lists of values, item by item. -/
def sameItems : List Json → List Json → Bool
  | [], [] => true
  | a :: as, b :: bs => a.same b && sameItems as bs
  | _, _ => false

/-- Whether each of the first members has an equal one among the second members. -/
def sameMembers : List (String × Json) → List (String × Json) → Bool
  | [], _ => true
  | (key, a) :: as, bs =>
    (match bs.lookup key with
      | some b => a.same b
      | none => false) && sameMembers as bs

end

instance : BEq Json := ⟨same⟩

end Json

/-- Members with the value of a key set. A key that is present keeps its place; a new
    one comes last. -/
def insertKey {α : Type} (key : String) (value : α) :
    List (String × α) → List (String × α)
  | [] => [(key, value)]
  | (k, v) :: rest => if k = key then (key, value) :: rest else (k, v) :: insertKey key value rest

/-- Members from pairs: of the pairs with one key the last gives the value and the
    first the place. -/
def insertAll {α : Type} (pairs : List (String × α)) : List (String × α) :=
  pairs.foldl (fun members pair => insertKey pair.1 pair.2 members) []

namespace Json

mutual

/-- A value with repeated keys resolved at every level. -/
def settle : Json → Json
  | .array items => .array (settleItems items)
  | .object members => .object (insertAll (settleMembers members))
  | value => value

/-- Every item of a list settled. -/
def settleItems : List Json → List Json
  | [] => []
  | item :: rest => item.settle :: settleItems rest

/-- The value of every member settled. -/
def settleMembers : List (String × Json) → List (String × Json)
  | [] => []
  | (key, value) :: rest => (key, value.settle) :: settleMembers rest

end

end Json

end Polyquery
