import Polyquery.Mongo.Filter
import Polyquery.Mongo.Printer
import Polyquery.Query.Parts
import Polyquery.Query.Prepare
import Polyquery.Schema.Basic

/-!
# Queries as Mongo Commands

A query for records that is sorted by nothing but fields becomes a find. Every
other query becomes a pipeline: the documents that pass the filter are grouped
if there is something to group or to aggregate, the groups are filtered, the
sort keys are computed, the columns are projected, equal rows are dropped, and
what is left is sorted and cut to a page. Sort keys are fields with names of
their own, which are removed at the end.

The keys of a group are the fields `g0`, `g1`, … of its identity, and the
accumulated values are the fields `a0`, `a1`, …, one for each aggregate call
of the columns and of the filter of groups, where calls with one expression
string share a field.

## Main definitions

* `Mongo.groupStage`: The grouping with what can be referred to after it.
* `Mongo.SortStage`: The sort keys of a pipeline.
* `Mongo.findCommand`, `Mongo.pipeline`: The two kinds of command.
* `Mongo.compileQuery`, `Mongo.compileAdvanced`: Queries as commands.
-/

namespace Polyquery.Mongo

/-- The keys of a native sort. -/
def nativeSortKeys (piece : Native) : Except CompileError (List (String × SortValue)) := do
  match ← natives.resolve piece with
  | .object keys => return keys.map fun (name, value) => (name, .native value)
  | _ => throw (.unsupportedByBackend backendName .nonDocumentSort)

/-- Members with others added, of which one under an old name takes its place. -/
def extend {α : Type} (members added : List (String × α)) : List (String × α) :=
  added.foldl (fun members pair => insertKey pair.1 pair.2 members) members

/-- The sort document of a find, where an expression that is no field is passed over. -/
def findSort (sort : List (String × SortValue)) :
    List SortKey → Except CompileError (List (String × SortValue))
  | [] => .ok sort
  | .simple key :: rest =>
    match key.expression.path? with
    | some path => findSort (insertKey path (.by key.direction) sort) rest
    | none => findSort sort rest
  | .native piece :: rest => do
    let keys ← nativeSortKeys piece
    findSort (extend sort keys) rest

/-- A query as a find. -/
def findCommand (filter : Option Filter) (parts : QueryParts) : Except CompileError Command := do
  let sort ← findSort [] parts.sorts
  return .find (filter.getD .all) sort
    ((parts.pagination.map (·.offset)).filter fun offset => 0 < offset)
    (parts.pagination.map (·.size))

/-- The group keys from an index on, with the fields that stand for them. A later key
    stands for its expression string in place of an earlier one. -/
def groupFields (index : Nat) (known : List (String × String)) :
    List Expression → Except CompileError (List (String × Expr) × List (String × String))
  | [] => .ok ([], known)
  | e :: rest => do
    let key := "g" ++ toString index
    let value ← ofExpression .document e
    let (keys, known) ← groupFields (index + 1) ((e.text, "_id." ++ key) :: known) rest
    return ((key, value) :: keys, known)

/-- The accumulators from an index on, with the fields that stand for them. -/
def accumulators (index : Nat) (known : List (String × String)) :
    List Expression → Except CompileError (List (String × Expr) × List (String × String))
  | [] => .ok ([], known)
  | call :: rest =>
    -- A call that is a group key or has a field already needs no new one.
    if (known.lookup call.text).isSome then accumulators index known rest
    else do
      let name := "a" ++ toString index
      let value ← ofExpression .document call
      let (others, known) ← accumulators (index + 1) ((call.text, name) :: known) rest
      return ((name, value) :: others, known)

/-- The key of a group-by, with the fields that stand for its parts. -/
def groupKey : Option Selection → Except CompileError (GroupKey × GroupScope)
  | none => .ok (.none, ⟨[], false⟩)
  | some (.items list) => do
    let (keys, known) ← groupFields 0 [] list.effective
    return (.fields keys, ⟨known, false⟩)
  | some (.native piece) => do
    let key ← natives.resolve piece
    return (.native key, ⟨[], true⟩)

/-- The aggregate calls of the columns and of the filter of groups. -/
def aggregateCalls (parts : QueryParts) (projection : Projection) : List Expression :=
  let columns := match projection with
    | .items columns => columns.flatMap fun column => column.2.aggregateCalls
    | _ => []
  columns ++ (leavesOf parts.having).flatMap fun leaf => leaf.left.aggregateCalls

/-- The grouping, with what can be referred to after it. -/
def groupStage (parts : QueryParts) (projection : Projection) :
    Except CompileError (Stage × GroupScope) := do
  let (key, scope) ← groupKey parts.groupBy
  let (values, known) ← accumulators 0 scope.fields (aggregateCalls parts projection)
  return (.group key values, { scope with fields := known })

/-- Whether a column is computed from several records. -/
def hasAggregate : Projection → Bool
  | .items columns => columns.any fun column => column.2.aggregate?.isSome
  | _ => false

/-- The sort keys of a pipeline. -/
structure SortStage where
  /-- The fields that are computed to sort by. -/
  computed : List (String × Expr)
  sort : List (String × SortValue)
  deriving Repr

/-- The name of the field that a sort key is computed into. -/
def sortName (index : Nat) : String :=
  "__sort_" ++ toString index

/-- The sort keys of a pipeline, of which the first one has the given index. -/
def sortStageFrom (scope : Scope) (index : Nat) (stage : SortStage) :
    List SortKey → Except CompileError SortStage
  | [] => .ok stage
  | .simple key :: rest => do
    let value ← ofExpression scope key.expression
    let name := sortName index
    sortStageFrom scope (index + 1)
      ⟨stage.computed ++ [(name, value)], insertKey name (.by key.direction) stage.sort⟩ rest
  | .native piece :: rest => do
    let keys ← nativeSortKeys piece
    sortStageFrom scope (index + 1) { stage with sort := extend stage.sort keys } rest

/-- The sort keys of a pipeline. -/
def sortStage (scope : Scope) (keys : List SortKey) : Except CompileError SortStage :=
  sortStageFrom scope 0 ⟨[], []⟩ keys

/-- The columns of a projection with the fields to sort by. -/
def projectStage (scope : Scope) (computed : List (String × Expr)) :
    Projection → Except CompileError (List Stage)
  | .items columns => do
    let fields ← columns.mapM fun (name, e) =>
      (ofExpression scope e).map fun value => (name, Projected.computed value)
    -- The identity is left out unless a column has its name.
    return [.project (extend (extend [("_id", .omitted)] fields) (hidden computed))]
  | .native piece => do
    match ← natives.resolve piece with
    | .object members =>
      let fields := members.map fun (name, value) => (name, Projected.native value)
      return [.project (extend fields (hidden computed))]
    | _ => throw (.unsupportedByBackend backendName .nonDocumentProjection)
  | .entity => .ok (if computed.isEmpty then [] else [.addFields computed])
where
  hidden (computed : List (String × Expr)) : List (String × Projected) :=
    computed.map fun (name, value) => (name, .computed value)

/-- The stages that drop equal rows. -/
def distinctStages (distinct : Bool) : Projection → List Stage
  | .entity => []
  | _ => if distinct then [.group .wholeDocument [], .replaceByKey] else []

/-- The stages that cut the result to a page. -/
def pageStages : Option Pagination → List Stage
  | none => []
  | some page => (if 0 < page.offset then [.skip page.offset] else []) ++ [.limit page.size]

/-- The stages that filter groups. -/
def havingStages (scope : Scope) (having : Option Condition) (maxDepth : Nat) :
    Except CompileError (List Stage) := do
  let filter ← (interpretation scope).filter having maxDepth
  return filter.toList.map .matching

/-- A query as a pipeline. -/
def pipeline (filter : Option Filter) (parts : QueryParts) (projection : Projection)
    (maxDepth : Nat) : Except CompileError Command := do
  -- Without a group-by an aggregate makes one group of all documents.
  let grouping ← if parts.groupBy.isSome || hasAggregate projection then
      (groupStage parts projection).map some
    else pure none
  let scope := match grouping with
    | some (_, group) => Scope.grouped group
    | none => .document
  let having ← havingStages scope parts.having maxDepth
  let sorts ← sortStage scope parts.sorts
  let projected ← projectStage scope sorts.computed projection
  return .aggregate (
    filter.toList.map .matching ++
    (grouping.toList.map fun group => group.1) ++
    having ++
    projected ++
    distinctStages parts.distinct projection ++
    (if sorts.sort.isEmpty then [] else [.sort sorts.sort]) ++
    pageStages parts.pagination ++
    (if sorts.computed.isEmpty then [] else [.unset (sorts.computed.map (·.1))]))

/-- Whether a sort key is no field. -/
def isComputedSort : SortKey → Bool
  | .simple key => key.expression.path?.isNone
  | .native _ => false

/-- A command with a limit. -/
def Command.withLimit (command : Command) (count : Nat) : Command :=
  match command with
  | .find filter sort skip _ => .find filter sort skip (some count)
  | .aggregate stages => .aggregate (stages ++ [.limit count])

/-- The command of the parts of a query. -/
def compileParts (schema : Schema) (root : String) (parts : QueryParts) :
    Except CompileError Compiled := do
  let filter ← (interpretation .document).filter parts.filter schema.maxDepth
  let projection ← parts.projection
  let command ← match projection, parts.groupBy with
    | .entity, none =>
      if parts.sorts.any isComputedSort then pipeline filter parts projection schema.maxDepth
      else findCommand filter parts
    | _, _ => pipeline filter parts projection schema.maxDepth
  let adjustments := matchingCustomizers Payload.asCommandAdjustment? parts.customizers
  let columns := match projection with
    | .items columns => columns.map (·.1)
    | _ => []
  return {
    collection := schema.tableName root
    command := adjustAll adjustments command
    columns := columns }

/-- A plain query as a command. -/
def compileQuery (schema : Schema) (root : String) (q : Query) : Except CompileError Compiled := do
  let q ← q.prepare
  compileParts schema root (.ofQuery q)

/-- An advanced query as a command. -/
def compileAdvanced (schema : Schema) (root : String) (q : AdvancedQuery) :
    Except CompileError Compiled := do
  let q ← q.prepare
  compileParts schema root (.ofAdvanced q)

end Polyquery.Mongo

namespace Polyquery

/-- A customizer that limits the documents of a find or of a pipeline. -/
def Payload.pipelineLimit (count : Nat) : Payload :=
  .commandAdjustment fun command => command.withLimit count

end Polyquery
