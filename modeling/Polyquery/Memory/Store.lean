import Polyquery.Memory.Filter
import Polyquery.Memory.Result
import Polyquery.Query.Parts
import Polyquery.Query.Prepare
import Polyquery.Schema.Basic

/-!
# Records in a Store

A store holds records and answers queries about them. A plain query returns
the records that pass its filter, each as a whole or narrowed to the selected
columns. An advanced query returns one row per group: the groups of its
group-by, or a single group of all records if something is aggregated, or else
each record by itself.

## Main definitions

* `Store`: Records with the depth limit of conditions.
* `Store.ofJson`: The store of a JSON array.
* `Store.findAll`, `Store.count`: Answers to plain queries.
* `Store.groupRecords`: The groups of records.
* `Store.findRows`: Answers to advanced queries.
-/

namespace Polyquery

/-- Records that can be queried. -/
structure Store where
  records : List Record
  /-- The depth limit of conditions. -/
  maxDepth : Nat := defaultMaxDepth
  deriving Repr

/-- The record that an object stands for. -/
def recordOf : Json → Except ValidationError Record
  | .object members => .ok members
  | other => .error (.document (.documentNotObject other))

/-- An evaluator for each selected column. -/
def columnEvaluators (clock : Clock) (columns : List (String × Expression)) :
    Except CompileError (List (String × Evaluator)) :=
  columns.mapM fun (name, e) => (e.evaluator clock).map fun evaluator => (name, evaluator)

/-- The row of selected columns on a group. A repeated name has the value of its last column. -/
def outputRow (columns : List (String × Evaluator)) (rows : Rows) : Record :=
  insertAll (columns.map fun (name, evaluator) => (name, evaluator rows))

/-- The groups with a record added to the group of its key, or to a new group at the end. -/
def addToGroup (key : List Json) (record : Record) :
    List (List Json × List Record) → List (List Json × List Record)
  | [] => [(key, [record])]
  | (other, members) :: rest =>
    -- Keys are compared as written: a whole number is not equal to a fraction here.
    if Json.sameItems other key then (other, members ++ [record]) :: rest
    else (other, members) :: addToGroup key record rest

/-- The records in groups of equal keys. Groups are in the order of their first records. -/
def groupByKey (keys : List Evaluator) (records : List Record) : List (List Record) :=
  let keyOf record := keys.map fun key => key (.single record)
  let groups := records.foldl (fun groups record => addToGroup (keyOf record) record groups) []
  groups.map (·.2)

namespace QueryParts

/-- Whether a query without a group-by ranges over all records at once. -/
def isAggregated (parts : QueryParts) : Bool :=
  parts.having.isSome ||
    parts.select.any fun select => select.expressions.any fun e => e.aggregate?.isSome

end QueryParts

namespace Store

/-- The store of the objects in a JSON array. -/
def ofJson : Json → Except ValidationError Store
  | .array items => do
    let records ← items.mapM recordOf
    return { records := records }
  | _ => .error (.document .documentsNotArray)

/-- The records that pass an optional test, each by itself. -/
def matching (store : Store) (test : Option RowTest) : List Record :=
  store.records.filter fun record => passes test (.single record)

/-- The records that answer a plain query. -/
def findAll (store : Store) (clock : Clock) (q : Query) : Except CompileError (List Record) := do
  let q ← q.prepare
  let parts := QueryParts.ofQuery q
  let columns ← match ← parts.projection with
    | .entity => pure none
    | .items columns => (columnEvaluators clock columns).map some
    | .native piece => throw (.unsupportedNative memoryName piece.typeName)
  let filter ← (rowInterpretation clock).filter parts.filter store.maxDepth
  let plan ← SortPlan.ofKeys clock parts.sorts
  let candidates := (store.matching filter).map fun record =>
    { current := record
      keys := plan.values (.single record)
      output := match columns with
        | some columns => outputRow columns (.single record)
        | none => record : Candidate }
  return resultRows plan parts.distinct parts.pagination parts.customizers candidates

/-- The number of records that pass the filter of a plain query. -/
def count (store : Store) (clock : Clock) (q : Query) : Except CompileError Nat := do
  let q ← q.prepare
  let filter ← (rowInterpretation clock).filter q.filter store.maxDepth
  return (store.matching filter).length

/-- The groups that an advanced query makes of the records that pass its filter. -/
def groupRecords (clock : Clock) (parts : QueryParts) (records : List Record) :
    Except CompileError (List (List Record)) :=
  match parts.groupBy with
  | some (.native piece) => .error (.unsupportedNative memoryName piece.typeName)
  | some (.items list) => do
    let keys ← list.effective.mapM fun e => e.evaluator clock
    return groupByKey keys records
  | none =>
    -- The single group is there even if no record passes the filter.
    if parts.isAggregated then .ok [records]
    else .ok (records.map fun record => [record])

/-- The rows that answer an advanced query. -/
def findRows (store : Store) (clock : Clock) (q : AdvancedQuery) :
    Except CompileError (List Record) := do
  let q ← q.prepare
  let parts := QueryParts.ofAdvanced q
  let columns ← match ← parts.projection with
    | .items columns => columnEvaluators clock columns
    | .native piece => throw (.unsupportedNative memoryName piece.typeName)
    | .entity => throw (.unsupportedByBackend memoryName .projectionWithoutSelect)
  let filter ← (rowInterpretation clock).filter parts.filter store.maxDepth
  let groups ← groupRecords clock parts (store.matching filter)
  let having ← (rowInterpretation clock).filter parts.having store.maxDepth
  let plan ← SortPlan.ofKeys clock parts.sorts
  let kept := (groups.map Rows.ofGroup).filter (passes having)
  let candidates := kept.map fun rows =>
    { current := rows.current
      keys := plan.values rows
      output := outputRow columns rows : Candidate }
  return resultRows plan parts.distinct parts.pagination parts.customizers candidates

end Store

end Polyquery
