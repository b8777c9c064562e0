import Polyquery.Backend.NativeTable
import Polyquery.Memory.Evaluation
import Polyquery.Pagination
import Polyquery.SortKey

/-!
# Rows of a Result

What happens to the rows that a query has found: equal rows are dropped when
only distinct ones are asked for, the rest is sorted, cut to a page, and
handed to the customizers. A row keeps the values it is sorted by beside its
output, since these need not be part of the output.

Rows are sorted by insertion, so rows in no order to each other keep their
order as long as the order is a consistent one.

## Main definitions

* `Candidate`: A row with what it is sorted by.
* `SortPlan`: The evaluators and the order of the sort keys.
* `distinctOutputs`, `insertionSort`, `Pagination.window`: The steps.
* `resultRows`: All steps.
-/

namespace Polyquery

/-- How two rows are compared by one sort key. -/
inductive RowOrder where
  /-- By a sort value, counted from zero. -/
  | value (index : Nat) (direction : Direction)
  /-- By an order of the records that stand for the rows. -/
  | native (order : Record → Record → Ordering)

/-- A row before it is sorted. -/
structure Candidate where
  /-- The record that stands for the row. -/
  current : Record
  /-- The values of the sort expressions. -/
  keys : List Json
  output : Record
  deriving Repr

namespace RowOrder

/-- The order of two rows by one sort key. -/
def compare (a b : Candidate) : RowOrder → Ordering
  | .value index direction =>
    direction.apply (sortOrder (a.keys.getD index .null) (b.keys.getD index .null))
  | .native order => order a.current b.current

/-- The order of two rows by several sort keys, of which the first one that tells them
    apart decides. -/
def compareAll (a b : Candidate) : List RowOrder → Ordering
  | [] => .eq
  | order :: rest => (order.compare a b).then (compareAll a b rest)

end RowOrder

/-- The native sorts of records: orders of the records that stand for two rows. -/
def nativeOrders : NativeTable RowOrder :=
  (NativeTable.empty memoryName).accept Payload.asRecordOrder? RowOrder.native

/-- The order of the values at a path. -/
def Payload.documentOrder (path : String) : Payload :=
  .recordOrder fun a b => (compareValues (a.lookup path) (b.lookup path)).getD .eq

/-- What rows are sorted by. -/
structure SortPlan where
  evaluators : List Evaluator
  orders : List RowOrder

namespace SortPlan

/-- The plan of sort keys, where `count` sort values are taken by earlier keys. -/
def ofKeysFrom (clock : Clock) (count : Nat) : List SortKey → Except CompileError SortPlan
  | [] => .ok ⟨[], []⟩
  | .simple key :: rest => do
    let evaluator ← key.expression.evaluator clock
    let plan ← ofKeysFrom clock (count + 1) rest
    return ⟨evaluator :: plan.evaluators, .value count key.direction :: plan.orders⟩
  | .native piece :: rest => do
    let order ← nativeOrders.resolve piece
    let plan ← ofKeysFrom clock count rest
    return { plan with orders := order :: plan.orders }

/-- The plan of sort keys. -/
def ofKeys (clock : Clock) (keys : List SortKey) : Except CompileError SortPlan :=
  ofKeysFrom clock 0 keys

/-- The values that a row is sorted by. -/
def values (plan : SortPlan) (rows : Rows) : List Json :=
  plan.evaluators.map fun evaluator => evaluator rows

/-- Whether a row comes strictly before another one. -/
def precedes (plan : SortPlan) (a b : Candidate) : Bool :=
  RowOrder.compareAll a b plan.orders == .lt

end SortPlan

/-- The rows without those whose output equals that of an earlier row; `kept` holds
    the earlier rows. -/
def distinctFrom (kept : List Candidate) : List Candidate → List Candidate
  | [] => kept
  | row :: rest =>
    if kept.any fun earlier => (Json.object earlier.output).same (.object row.output) then
      distinctFrom kept rest
    else distinctFrom (kept ++ [row]) rest

/-- The rows with different outputs. -/
def distinctOutputs (rows : List Candidate) : List Candidate :=
  distinctFrom [] rows

/-- An element put into a list that is sorted from the last element to the first. It
    passes the elements it comes strictly before. -/
def insertReversed {α : Type} (precedes : α → α → Bool) (a : α) : List α → List α
  | [] => [a]
  | b :: rest => if precedes a b then b :: insertReversed precedes a rest else a :: b :: rest

/-- The elements in order, where each one in turn moves left past those it comes strictly before. -/
def insertionSort {α : Type} (precedes : α → α → Bool) (as : List α) : List α :=
  (as.foldl (fun sorted a => insertReversed precedes a sorted) []).reverse

/-- The elements on a page. -/
def Pagination.window {α : Type} (page : Pagination) (rows : List α) : List α :=
  (rows.drop page.offset).take page.size

/-- A customizer that keeps the first rows. -/
def Payload.truncateRows (count : Nat) : Payload :=
  .rowAdjustment fun rows => rows.take count

/-- A customizer that reverses the rows. -/
def Payload.reverseRows : Payload :=
  .rowAdjustment List.reverse

/-- The rows of a result. -/
def resultRows (plan : SortPlan) (distinct : Bool) (page : Option Pagination)
    (customizers : List Native) (rows : List Candidate) : List Record :=
  -- Equal rows are dropped before sorting, so the first one of them in the store stays.
  let rows := if distinct then distinctOutputs rows else rows
  let rows := insertionSort plan.precedes rows
  let outputs := rows.map (·.output)
  let outputs := match page with
    | some page => page.window outputs
    | none => outputs
  adjustAll (matchingCustomizers Payload.asRowAdjustment? customizers) outputs

end Polyquery
