import Polyquery.Query.Parts
import Polyquery.Query.Prepare
import Polyquery.Sql.Filter
import Polyquery.Sql.Printer

/-!
# Queries as SQL Statements

A query becomes one `SELECT` on the table of its root entity. Every relation
on the way to a column is joined once, in the order in which the parts of the
query first need it: the filter, the sort keys, the selected columns, the
group keys, the filter of groups.

A statement that selects distinct rows can sort only by what it selects. Sort
keys that are not selected are therefore added to the select list under names
of their own.

A page of records may repeat a record if the filter or the order crosses a
relation to many records and the rows need not be distinct. The result says
so.

## Main definitions

* `Sql.pathUses`, `Sql.joinPlan`: The joins that a query needs.
* `Sql.selectItems`, `Sql.isSelected`, `Sql.sortClause`: Clauses of a
  statement.
* `Sql.Compiled`: A statement with the names of its columns.
* `Sql.compileQuery`, `Sql.compileAdvanced`: Queries as statements.
-/

namespace Polyquery.Sql

/-- A path that a query reads. -/
structure PathUse where
  path : String
  /-- Whether a relation to many records on the way multiplies the rows that are counted. -/
  counts : Bool
  deriving Repr, DecidableEq

/-- The paths that a comparison reads. -/
def leafPaths (leaf : SimpleCondition) : List String :=
  leaf.left.paths ++
    match leaf.value with
    | some (.field path) => [path]
    | _ => []

/-- The paths that a sort key reads. -/
def sortPaths : SortKey → List String
  | .simple key => key.expression.paths
  | .native _ => []

/-- The paths that a query reads, in the order in which its relations are joined. -/
def pathUses (parts : QueryParts) : List PathUse :=
  let filter := (leavesOf parts.filter).flatMap leafPaths
  let sorts := parts.sorts.flatMap sortPaths
  let columns := (parts.select.toList ++ parts.groupBy.toList).flatMap fun selection =>
    selection.expressions.flatMap Expression.paths
  let having := (leavesOf parts.having).flatMap leafPaths
  -- Only what decides on the rows of a page multiplies them.
  (filter ++ sorts).map (⟨·, true⟩) ++ (columns ++ having).map (⟨·, false⟩)

/-- The joins of a statement. -/
structure JoinPlan where
  joins : List Join
  /-- Whether a page may repeat a record. -/
  multiplies : Bool
  deriving Repr

/-- Joins with those added whose alias is new. -/
def addJoins (joins : List Join) : List Join → List Join
  | [] => joins
  | join :: rest =>
    if joins.any fun other => other.tableAlias == join.tableAlias then addJoins joins rest
    else addJoins (joins ++ [join]) rest

/-- The plan with the joins of one more path. -/
def JoinPlan.add (schema : Schema) (root : String) (plan : JoinPlan) (use : PathUse) :
    Except CompileError JoinPlan := do
  let resolved ← schema.resolve root use.path
  return {
    joins := addJoins plan.joins resolved.joins
    multiplies := plan.multiplies || (use.counts && resolved.crossesToMany) }

/-- The joins that the paths of a query need. -/
def joinPlan (schema : Schema) (root : String) (uses : List PathUse) :
    Except CompileError JoinPlan :=
  uses.foldlM (JoinPlan.add schema root) ⟨[], false⟩

/-- The native columns: one piece of SQL or several. -/
def nativeColumns : NativeTable (List Expr) :=
  ((NativeTable.empty backendName).accept Payload.asSqlText? fun piece => [.raw piece]).accept
    Payload.asSqlTexts? fun pieces => pieces.map .raw

/-- The native sorts: a piece of SQL with a direction. -/
def nativeOrders : NativeTable (Expr × Direction) :=
  (NativeTable.empty backendName).accept Payload.asSqlOrder? fun (piece, direction) =>
    (.raw piece, direction)

/-- The select list of a projection. -/
def selectItems (schema : Schema) (root : String) : Projection → Except CompileError (List Item)
  | .entity => .ok [.all (schema.tableName root)]
  | .items columns => columns.mapM fun (name, e) =>
    (ofExpression schema root e).map fun value => .named value name
  | .native piece => (nativeColumns.resolve piece).map (·.map .unnamed)

/-- The names of the columns of a projection. -/
def projectionNames : Projection → List String
  | .items columns => columns.map (·.1)
  | _ => []

/-- Whether a projection selects what an expression yields. -/
def isSelected (projection : Projection) (e : Expression) : Bool :=
  match projection with
  | .entity =>
    match e.path? with
    | some path => !path.toList.contains '.'
    | none => false
  | .items columns => columns.any fun column => column.2.text == e.text
  | .native _ => true

/-- The name under which a sort key is selected. -/
def hiddenName (index : Nat) : String :=
  "__sort_" ++ toString index

/-- The keys to sort by and the items that have to be selected for them. -/
structure SortClause where
  hidden : List Item
  orderBy : List (Expr × Direction)
  deriving Repr

/-- The clause of sort keys, of which the first one has the given index. -/
def sortClauseFrom (schema : Schema) (root : String) (distinct : Bool) (projection : Projection)
    (index : Nat) : List SortKey → Except CompileError SortClause
  | [] => .ok ⟨[], []⟩
  | .simple key :: rest => do
    let value ← ofExpression schema root key.expression
    let others ← sortClauseFrom schema root distinct projection (index + 1) rest
    -- A hidden item is numbered by its place among all sort keys, so gaps are possible.
    let hidden := if distinct && !isSelected projection key.expression then
      [Item.named value (hiddenName index)] else []
    return ⟨hidden ++ others.hidden, (value, key.direction) :: others.orderBy⟩
  | .native piece :: rest => do
    let order ← nativeOrders.resolve piece
    let others ← sortClauseFrom schema root distinct projection (index + 1) rest
    return { others with orderBy := order :: others.orderBy }

/-- The clause of sort keys. -/
def sortClause (schema : Schema) (root : String) (distinct : Bool) (projection : Projection)
    (keys : List SortKey) : Except CompileError SortClause :=
  sortClauseFrom schema root distinct projection 0 keys

/-- The keys of a group-by. -/
def groupKeys (schema : Schema) (root : String) :
    Option Selection → Except CompileError (List Expr)
  | none => .ok []
  | some (.items list) => list.effective.mapM (ofExpression schema root)
  | some (.native piece) => nativeColumns.resolve piece

/-- A statement with a limit. -/
def Statement.withLimit (s : Statement) (count : Nat) : Statement :=
  { s with limit := some count }

/-- A query in SQL. -/
structure Compiled where
  statement : Statement
  /-- The names of the result columns; a query for records has none. -/
  columns : List String
  /-- Whether a page may repeat a record. -/
  requiresDistinct : Bool
  deriving Repr

/-- The text of a query in SQL. -/
def Compiled.sql (compiled : Compiled) : String :=
  compiled.statement.print

/-- The statement of the parts of a query. -/
def compileParts (schema : Schema) (root : String) (parts : QueryParts) :
    Except CompileError Compiled := do
  let plan ← joinPlan schema root (pathUses parts)
  let projection ← parts.projection
  let items ← selectItems schema root projection
  let filter ← (interpretation schema root).filter parts.filter schema.maxDepth
  let groupBy ← groupKeys schema root parts.groupBy
  let having ← (interpretation schema root).filter parts.having schema.maxDepth
  let sorts ← sortClause schema root parts.distinct projection parts.sorts
  let statement : Statement := {
    distinct := parts.distinct
    items := items ++ sorts.hidden
    table := schema.tableName root
    joins := plan.joins
    filter := filter
    groupBy := groupBy
    having := having
    orderBy := sorts.orderBy
    limit := parts.pagination.map (·.size)
    offset := parts.pagination.map (·.offset) }
  let adjustments := matchingCustomizers Payload.asStatementAdjustment? parts.customizers
  return {
    statement := adjustAll adjustments statement
    columns := projectionNames projection
    requiresDistinct := parts.pagination.isSome && plan.multiplies && !parts.distinct }

/-- A plain query in SQL. -/
def compileQuery (schema : Schema) (root : String) (q : Query) : Except CompileError Compiled := do
  let q ← q.prepare
  compileParts schema root (.ofQuery q)

/-- An advanced query in SQL. -/
def compileAdvanced (schema : Schema) (root : String) (q : AdvancedQuery) :
    Except CompileError Compiled := do
  let q ← q.prepare
  compileParts schema root (.ofAdvanced q)

end Polyquery.Sql

namespace Polyquery

/-- A customizer that sets the limit of a statement. -/
def Payload.statementLimit (count : Nat) : Payload :=
  .statementAdjustment fun s => s.withLimit count

end Polyquery
