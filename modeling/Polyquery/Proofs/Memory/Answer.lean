import Polyquery.Memory.Store
import Polyquery.Proofs.Query.Portable

/-!
# Answers of a Store

Everything that can keep a store from answering happens before the first row is
made: the columns and the sort keys need evaluators, the filters need tests, and
records have to be put into groups. With these ingredients there is an answer, and
its rows are what `resultRows` makes of the candidates. So an answer is taken apart
once into its ingredients, and what is proved of its rows starts from them.

The store prepares a query and looks at its parts from then on, as the other
backends do. `Store.recordsOf` and `Store.rowsOf` are what it does with the parts
of the two kinds of query.

## Main definitions

* `Store.recordsOf`, `Store.rowsOf`: The answers to parts.
* `SortPlan.record`, `SortPlan.row`: The candidates of an answer.
* `Store.FoundRecords`, `Store.FoundRows`: What an answer is put together from.

## Theorems

* `found_of_recordsOf`, `found_of_rowsOf`: An answer and its ingredients.
* `findAll_eq`, `findRows_eq`: The answers to queries.
-/

namespace Polyquery

/-- A record of a plain result. Without columns it is returned as a whole. -/
def SortPlan.record (plan : SortPlan) (columns : Option (List (String × Evaluator)))
    (record : Record) : Candidate where
  current := record
  keys := plan.values (.single record)
  output := match columns with
    | some columns => outputRow columns (.single record)
    | none => record

/-- A row of columns. -/
def SortPlan.row (plan : SortPlan) (columns : List (String × Evaluator)) (rows : Rows) :
    Candidate where
  current := rows.current
  keys := plan.values rows
  output := outputRow columns rows

namespace Store

/-- The evaluators of what a plain query returns, if that is columns. -/
def recordColumns (clock : Clock) :
    Projection → Except CompileError (Option (List (String × Evaluator)))
  | .entity => .ok none
  | .items columns => (columnEvaluators clock columns).map some
  | .native piece => .error (.unsupportedNative memoryName piece.typeName)

/-- The evaluators of the columns that an advanced query returns. -/
def rowColumns (clock : Clock) : Projection → Except CompileError (List (String × Evaluator))
  | .items columns => columnEvaluators clock columns
  | .native piece => .error (.unsupportedNative memoryName piece.typeName)
  | .entity => .error (.unsupportedByBackend memoryName .projectionWithoutSelect)

/-- The records that answer the parts of a plain query. -/
def recordsOf (store : Store) (clock : Clock) (parts : QueryParts) :
    Except CompileError (List Record) := do
  let projection ← parts.projection
  let columns ← recordColumns clock projection
  let filter ← (rowInterpretation clock).filter parts.filter store.maxDepth
  let plan ← SortPlan.ofKeys clock parts.sorts
  return resultRows plan parts.distinct parts.pagination parts.customizers
    ((store.matching filter).map (plan.record columns))

/-- The rows that answer the parts of an advanced query. -/
def rowsOf (store : Store) (clock : Clock) (parts : QueryParts) :
    Except CompileError (List Record) := do
  let projection ← parts.projection
  let columns ← rowColumns clock projection
  let filter ← (rowInterpretation clock).filter parts.filter store.maxDepth
  let groups ← groupRecords clock parts (store.matching filter)
  let having ← (rowInterpretation clock).filter parts.having store.maxDepth
  let plan ← SortPlan.ofKeys clock parts.sorts
  return resultRows plan parts.distinct parts.pagination parts.customizers
    (((groups.map Rows.ofGroup).filter (passes having)).map (plan.row columns))

/-- The ingredients of an answer to the parts of a plain query. -/
structure FoundRecords (store : Store) (clock : Clock) (parts : QueryParts)
    (projection : Projection) (columns : Option (List (String × Evaluator)))
    (filter : Option RowTest) (plan : SortPlan) : Prop where
  projects : parts.projection = .ok projection
  evaluates : recordColumns clock projection = .ok columns
  filters : (rowInterpretation clock).filter parts.filter store.maxDepth = .ok filter
  sorts : SortPlan.ofKeys clock parts.sorts = .ok plan

/-- The ingredients of an answer to the parts of an advanced query. -/
structure FoundRows (store : Store) (clock : Clock) (parts : QueryParts) (projection : Projection)
    (columns : List (String × Evaluator)) (filter having : Option RowTest)
    (groups : List (List Record)) (plan : SortPlan) : Prop where
  projects : parts.projection = .ok projection
  evaluates : rowColumns clock projection = .ok columns
  filters : (rowInterpretation clock).filter parts.filter store.maxDepth = .ok filter
  groups : groupRecords clock parts (store.matching filter) = .ok groups
  grouped : (rowInterpretation clock).filter parts.having store.maxDepth = .ok having
  sorts : SortPlan.ofKeys clock parts.sorts = .ok plan

/-- The rows of a plain answer. -/
theorem found_of_recordsOf {store : Store} {clock : Clock} {parts : QueryParts}
    {rows : List Record} (h : store.recordsOf clock parts = .ok rows) :
    ∃ projection columns filter plan,
      store.FoundRecords clock parts projection columns filter plan ∧
      rows = resultRows plan parts.distinct parts.pagination parts.customizers
        ((store.matching filter).map (plan.record columns)) := by
  rcases bind_eq_ok.mp h with ⟨projection, hprojection, h⟩
  rcases bind_eq_ok.mp h with ⟨columns, hcolumns, h⟩
  rcases bind_eq_ok.mp h with ⟨filter, hfilter, h⟩
  rcases bind_eq_ok.mp h with ⟨plan, hplan, h⟩
  exact ⟨projection, columns, filter, plan, ⟨hprojection, hcolumns, hfilter, hplan⟩,
    (Except.ok.inj h).symm⟩

/-- The rows of an answer with columns. -/
theorem found_of_rowsOf {store : Store} {clock : Clock} {parts : QueryParts}
    {rows : List Record} (h : store.rowsOf clock parts = .ok rows) :
    ∃ projection columns filter having groups plan,
      store.FoundRows clock parts projection columns filter having groups plan ∧
      rows = resultRows plan parts.distinct parts.pagination parts.customizers
        (((groups.map Rows.ofGroup).filter (passes having)).map (plan.row columns)) := by
  rcases bind_eq_ok.mp h with ⟨projection, hprojection, h⟩
  rcases bind_eq_ok.mp h with ⟨columns, hcolumns, h⟩
  rcases bind_eq_ok.mp h with ⟨filter, hfilter, h⟩
  rcases bind_eq_ok.mp h with ⟨groups, hgroups, h⟩
  rcases bind_eq_ok.mp h with ⟨having, hhaving, h⟩
  rcases bind_eq_ok.mp h with ⟨plan, hplan, h⟩
  exact ⟨projection, columns, filter, having, groups, plan,
    ⟨hprojection, hcolumns, hfilter, hgroups, hhaving, hplan⟩, (Except.ok.inj h).symm⟩

theorem findAll_eq (store : Store) (clock : Clock) (q : Query) :
    store.findAll clock q = compilePlain (store.recordsOf clock) q := by
  unfold findAll compilePlain recordsOf
  refine bind_congr fun p => bind_congr fun projection => ?_
  cases projection <;> rfl

theorem findRows_eq (store : Store) (clock : Clock) (q : AdvancedQuery) :
    store.findRows clock q = compileGrouped (store.rowsOf clock) q := by
  unfold findRows compileGrouped rowsOf
  refine bind_congr fun p => bind_congr fun projection => ?_
  cases projection <;> rfl

end Store

end Polyquery
