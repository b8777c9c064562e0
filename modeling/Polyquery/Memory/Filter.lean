import Polyquery.Backend.NativeTable
import Polyquery.Condition.Walk
import Polyquery.Memory.Evaluation

/-!
# Filtering Records

A condition becomes a test of groups of records. Null keeps out of every
comparison: an equality with null is false and an inequality is true, whatever
null is compared with, and an ordering or a pattern does not hold on null in
either polarity. A pattern does not look at the case of letters and does not
hold of a value that is no text.

## Main definitions

* `RowTest`: A test of groups of records.
* `SimpleCondition.rowTest`: The test of a comparison.
* `rowInterpretation`: The test of a condition.
-/

namespace Polyquery

/-- A test of groups of records. -/
abbrev RowTest := Rows → Bool

/-- Whether the value of a null test is what the test asks for. -/
def nullTest (op : Operator) (value : Json) : Bool :=
  value.isNull == (op == .isNull)

/-- Whether a value is among others, or is not, as the operator asks. -/
def memberTest (op : Operator) (items : List Json) (value : Json) : Bool :=
  -- Null equals no item, so it is not among them and passes the contrary.
  items.any (equalValues value) != (op == .notIn)

/-- Whether a pattern holds of a value, or does not, as `wrapped` asks. -/
def patternTest (op : Operator) (wrapped : Bool) (needle : List Char) (value : Json) : Bool :=
  if value.isNull then false
  else
    let found := match value with
      | .string s => op.matchesText (Text.lowerChars s.toList) needle
      | _ => false
    found != wrapped

/-- Whether a comparison holds of two values, or does not, as `wrapped` asks. -/
def comparisonTest (op : Operator) (wrapped : Bool) (a b : Json) : Bool :=
  let present := !a.isNull && !b.isNull
  match op with
  | .equals => present && equalValues a b
  | .notEquals => !(present && equalValues a b)
  | _ => present && (op.compares a b != wrapped)

/-- The test of a comparison in a context. -/
def SimpleCondition.rowTest (clock : Clock) (leaf : SimpleCondition) (ctx : WalkContext) :
    Except CompileError RowTest := do
  let left ← leaf.left.evaluator clock
  let ⟨op, wrapped⟩ := Polarity.of leaf.operator ctx.negated
  match leaf.value with
  | none => return fun rows => nullTest op (left rows)
  | some (.list items) =>
    let items := items.map Literal.toJson
    return fun rows => memberTest op items (left rows)
  | some (.scalar literal) =>
    if op.isPattern then
      match literal.asString? with
      | none => throw (.typeMismatch (.patternNotString op))
      | some needle =>
        let needle := Text.lowerChars needle.toList
        return fun rows => patternTest op wrapped needle (left rows)
    else
      let right := literal.toJson
      return fun rows => comparisonTest op wrapped (left rows) right
  | some (.field path) =>
    return fun rows => comparisonTest op wrapped (left rows) (rows.current.lookup path)

/-- The native conditions on records: tests of the record that stands for a group. -/
def nativeTests : NativeTable RowTest :=
  (NativeTable.empty memoryName).accept Payload.asRecordTest? fun test rows => test rows.current

/-- The test that the value at a path is a given one. -/
def Payload.documentTest (path : String) (value : Json) : Payload :=
  .recordTest fun record => (record.lookup path).same value

/-- Several tests under a connective. -/
def combineTests : Connective → List RowTest → RowTest
  | .and, tests => fun rows => tests.all fun test => test rows
  | .or, tests => fun rows => tests.any fun test => test rows

/-- How conditions become tests. -/
def rowInterpretation (clock : Clock) : Interpretation RowTest where
  simple := SimpleCondition.rowTest clock
  native := nativeTests.resolve
  combine := combineTests
  matchAll := fun _ => true

/-- Whether a group of records passes an optional test. -/
def passes (test : Option RowTest) (rows : Rows) : Bool :=
  match test with
  | some test => test rows
  | none => true

end Polyquery
