import Polyquery.Query.Parts
import Polyquery.Query.Prepare
import Polyquery.Schema.Basic
import Polyquery.Search.Filter

/-!
# Queries as Search Requests

A search engine finds documents and returns some of their fields. It does not
group documents and does not drop equal rows, so queries that ask for either
are refused.

## Main definitions

* `Search.sourceOf`, `Search.sortEntry`: Parts of a request.
* `Search.compileQuery`, `Search.compileAdvanced`: Queries as requests.
-/

namespace Polyquery.Search

/-- The fields of a projection and the names of the columns. -/
def sourceOf (distinct : Bool) :
    Projection → Except CompileError (Option Source × List String)
  | .entity => .ok (none, [])
  | .items columns =>
    if distinct then .error (.unsupportedByBackend backendName .distinctProjection)
    else do
      let fields ← columns.mapM fun column => fieldOf column.2
      return (some (.fields fields), columns.map (·.1))
  | .native piece => do
    let value ← natives.resolve piece
    return (some (.native value), [])

/-- A key to sort by. -/
def sortEntry : SortKey → Except CompileError SortEntry
  | .simple key => (fieldOf key.expression).map fun field => .field field key.direction
  | .native piece => (natives.resolve piece).map .native

/-- The request of the parts of a query. -/
def compileParts (schema : Schema) (root : String) (parts : QueryParts) :
    Except CompileError Request := do
  if parts.groupBy.isSome then throw (.unsupportedByBackend backendName .groupBy)
  if parts.having.isSome then throw (.unsupportedByBackend backendName .having)
  let query ← interpretation.filter parts.filter schema.maxDepth
  let projection ← parts.projection
  let (source, columns) ← sourceOf parts.distinct projection
  let sort ← parts.sorts.mapM sortEntry
  return {
    index := schema.tableName root
    query := query.getD .all
    source := source
    sort := sort
    page := parts.pagination.map fun page => (page.offset, page.size)
    adjustments := matchingCustomizers Payload.asBodyAdjustment? parts.customizers
    columns := columns }

/-- A plain query as a request. -/
def compileQuery (schema : Schema) (root : String) (q : Query) : Except CompileError Request := do
  let q ← q.prepare
  compileParts schema root (.ofQuery q)

/-- An advanced query as a request. -/
def compileAdvanced (schema : Schema) (root : String) (q : AdvancedQuery) :
    Except CompileError Request := do
  let q ← q.prepare
  compileParts schema root (.ofAdvanced q)

end Polyquery.Search

namespace Polyquery

/-- A customizer that sets a member of a search body. -/
def Payload.bodyEntry (key : String) (value : Json) : Payload :=
  .bodyAdjustment (insertKey key value)

end Polyquery
