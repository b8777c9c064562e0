import Polyquery.Proofs.Json.Members
import Polyquery.Proofs.Memory.Evaluation
import Polyquery.Proofs.Memory.Sorting
import Polyquery.Proofs.Query.Customizers

/-!
# The Columns of a Result

The names of result columns are made once and then go four ways. A statement has
them as aliases, a command and a request report them beside what they ask for, and
a row of the store has them as its keys. A statement and a report may repeat a
name, and a row cannot. What a row makes of a repeated name is therefore part of
what is said here: the place is that of the first column, and the value that of
the last one (`rowOf_outputRow`).

Two kinds of query have columns. One selects them, and one groups by them and
selects nothing, and no backend treats the two differently, because the projection
of a query is the same in both cases (`projection_of_lists`).

## Main definitions

* `QueryParts.Lists`: Parts that return the columns of a list.
* `Expression.label?`, `ExpressionList.Named`: The names of columns.
* `Sql.Selects`: The select list of a statement.
* `Store.RangesOver`: The records that a row is about.
* `RowOf`: A row with columns.

## Theorems

* `named_of_projection`: The projection of parts with columns.
* `Sql.compileParts_selects`, `Mongo.compileParts_columns`,
  `Search.compileParts_columns`, `Store.recordsOf_rows`, `Store.rowsOf_rows`: The
  columns of parts.
* `columns_agree`: The columns of queries.
-/

namespace Polyquery

/-- Parts that return the columns of a list: they select it, or they group by it and select
    nothing. -/
def QueryParts.Lists (parts : QueryParts) (list : ExpressionList) : Prop :=
  parts.select = some (.items list) ∨ parts.select = none ∧ parts.groupBy = some (.items list)

/-- The name of a column: its alias, or else the path of a bare property. -/
def Expression.label? (x : Expression) : Option String :=
  x.alias?.or x.path?

/-- The names of the columns of a list, one for each. -/
def ExpressionList.Named (list : ExpressionList) (names : List String) : Prop :=
  list.effective.map Expression.label? = names.map some

section Naming

theorem columnName_eq_ok (x : Expression) (name : String) (h : x.columnName = .ok name) :
    x.label? = some name := by
  cases x with
  | property path label =>
      cases label with
      | none => exact congrArg some (Except.ok.inj h)
      | some label => exact congrArg some (Except.ok.inj h)
  | call function arguments label =>
      cases label with
      | none => exact absurd h (by rintro ⟨⟩)
      | some label => exact congrArg some (Except.ok.inj h)

theorem ExpressionList.Named.length {list : ExpressionList} {names : List String}
    (h : list.Named names) : names.length = list.effective.length := by
  have hlengths := congrArg List.length h
  rw [List.length_map, List.length_map] at hlengths
  exact hlengths.symm

theorem ExpressionList.Named.unique {list : ExpressionList} {names others : List String}
    (h : list.Named names) (hothers : list.Named others) : names = others :=
  List.map_injective_iff.mpr (Option.some_injective String) (h.symm.trans hothers)

theorem ExpressionList.Named.eq_map {list : ExpressionList} {names : List String}
    (h : list.Named names) : names = list.effective.map fun x => x.label?.getD "" := by
  have hlabels := congrArg (List.map (·.getD "")) h
  rw [List.map_map, List.map_map] at hlabels
  simpa only [Function.comp_def, Option.getD_some, List.map_id'] using hlabels.symm

theorem ExpressionList.Named.label {list : ExpressionList} {names : List String}
    (h : list.Named names) {name : String} {x : Expression}
    (hmem : (name, x) ∈ names.zip list.effective) : x.label? = some name := by
  rcases List.mem_iff_getElem?.mp hmem with ⟨i, hi⟩
  rcases List.getElem?_zip_eq_some.mp hi with ⟨hname, hx⟩
  have hlabel := congrArg (fun labels => labels[i]?) h
  simpa only [List.getElem?_map, hname, hx, Option.map_some, Option.some.injEq] using hlabel

/-- A call without an alias has no name. -/
theorem ExpressionList.Named.no_call {list : ExpressionList} {names : List String}
    (h : list.Named names) (function : Function) (arguments : List Argument) :
    .call function arguments none ∉ list.effective := by
  intro hcall
  have hnone := List.mem_map_of_mem (f := Expression.label?) hcall
  rw [h] at hnone
  rcases List.mem_map.mp hnone with ⟨name, _, hname⟩
  exact absurd hname (by simp only [Expression.label?, Expression.alias?, Expression.path?,
    Option.none_or, reduceCtorEq, not_false_eq_true])

variable (parts : QueryParts) (list : ExpressionList)

/-- A select and a group-by without a select lead to the same projection. -/
theorem projection_of_lists (h : parts.Lists list) :
    parts.projection = (Selection.items list).named.map .items := by
  rcases h with hselect | ⟨hselect, hgroup⟩
  · rw [QueryParts.projection, hselect]
  · rw [QueryParts.projection, hselect, hgroup]

/-- What parts with columns return, and under which names. -/
theorem named_of_projection (h : parts.Lists list) (projection : Projection)
    (hprojection : parts.projection = .ok projection) :
    ∃ names, list.Named names ∧ projection = .items (names.zip list.effective) := by
  rw [projection_of_lists parts list h] at hprojection
  rcases map_eq_ok.mp hprojection with ⟨columns, hcolumns, heq⟩
  rcases bind_eq_ok.mp hcolumns with ⟨names, hnames, hzip⟩
  refine ⟨names, map_of_mapM columnName_eq_ok hnames, ?_⟩
  rw [← heq, ← Except.ok.inj hzip]
  rfl

end Naming

namespace Sql

variable (schema : Schema) (root : String)

/-- An item that is selected only to sort by it, which a statement with distinct rows needs. It is
    a sort key that is none of the columns, and it is named after its place among the keys. -/
def IsHidden (parts : QueryParts) (list : ExpressionList) (item : Item) : Prop :=
  parts.distinct = true ∧ ∃ i key value, parts.sorts[i]? = some (.simple key) ∧
    ofExpression schema root key.expression = .ok value ∧
    item = .named value (hiddenName i) ∧ ∀ x ∈ list.effective, x.text ≠ key.expression.text

/-- The select list of a statement: the columns under their names, and after them nothing but
    hidden items. -/
def Selects (parts : QueryParts) (list : ExpressionList) (names : List String)
    (items : List Item) : Prop :=
  ∃ values hidden, list.effective.mapM (ofExpression schema root) = .ok values ∧
    items = List.zipWith (fun name value => Item.named value name) names values ++ hidden ∧
    ∀ item ∈ hidden, IsHidden schema root parts list item

theorem sortClause_hidden (distinct : Bool) (projection : Projection) (keys : List SortKey) :
    ∀ index clause, sortClauseFrom schema root distinct projection index keys = .ok clause →
      ∀ item ∈ clause.hidden, distinct = true ∧ ∃ i key value, keys[i]? = some (.simple key) ∧
        ofExpression schema root key.expression = .ok value ∧
        item = .named value (hiddenName (index + i)) ∧
        isSelected projection key.expression = false := by
  induction keys with
  | nil =>
      intro index clause h item hitem
      rw [← Except.ok.inj h] at hitem
      exact absurd hitem List.not_mem_nil
  | cons key rest ih =>
      intro index clause h item hitem
      -- An item of a later key is counted from the next index.
      have hlater : ∀ others, sortClauseFrom schema root distinct projection (index + 1) rest =
          .ok others → item ∈ others.hidden → distinct = true ∧
            ∃ i k value, (key :: rest)[i]? = some (.simple k) ∧
              ofExpression schema root k.expression = .ok value ∧
              item = .named value (hiddenName (index + i)) ∧
              isSelected projection k.expression = false := by
        intro others hothers hold
        rcases ih (index + 1) others hothers item hold with
          ⟨hdistinct, i, k, value, hi, hvalue, hitem, hselected⟩
        refine ⟨hdistinct, i + 1, k, value, hi, hvalue, ?_, hselected⟩
        rw [hitem, Nat.add_assoc, Nat.add_comm 1 i]
      cases key with
      | simple key =>
          rcases bind_eq_ok.mp h with ⟨value, hvalue, h⟩
          rcases bind_eq_ok.mp h with ⟨others, hothers, h⟩
          rw [← Except.ok.inj h] at hitem
          rcases List.mem_append.mp hitem with hnew | hold
          · split at hnew
            case isTrue hneeded =>
              rw [Bool.and_eq_true, Bool.not_eq_true'] at hneeded
              exact ⟨hneeded.1, 0, key, value, rfl, hvalue, List.mem_singleton.mp hnew, hneeded.2⟩
            case isFalse => exact absurd hnew List.not_mem_nil
          · exact hlater others hothers hold
      | native piece =>
          rcases bind_eq_ok.mp h with ⟨order, _, h⟩
          rcases bind_eq_ok.mp h with ⟨others, hothers, h⟩
          rw [← Except.ok.inj h] at hitem
          exact hlater others hothers hitem

/-- The columns of a statement, as they are reported and as they are selected. -/
theorem compileParts_selects (parts : QueryParts) (list : ExpressionList)
    (hlists : parts.Lists list) (hcustomizers : parts.customizers = []) (compiled : Compiled)
    (h : compileParts schema root parts = .ok compiled) :
    list.Named compiled.columns ∧
      Selects schema root parts list compiled.columns compiled.statement.items := by
  rcases bind_eq_ok.mp h with ⟨plan, _, h⟩
  rcases bind_eq_ok.mp h with ⟨projection, hprojection, h⟩
  rcases bind_eq_ok.mp h with ⟨items, hitems, h⟩
  rcases bind_eq_ok.mp h with ⟨filter, _, h⟩
  rcases bind_eq_ok.mp h with ⟨groupBy, _, h⟩
  rcases bind_eq_ok.mp h with ⟨having, _, h⟩
  rcases bind_eq_ok.mp h with ⟨sorts, hsorts, h⟩
  rcases named_of_projection parts list hlists projection hprojection with ⟨names, hnamed, rfl⟩
  have hcolumns : projectionNames (.items (names.zip list.effective)) = names :=
    List.map_fst_zip (Nat.le_of_eq hnamed.length)
  rw [hcustomizers] at h
  rw [← Except.ok.inj h]
  dsimp only
  rw [hcolumns]
  rcases mapM_zip_eq_ok (g := fun name value => Item.named value name) hnamed.length hitems
    with ⟨values, hvalues, heq⟩
  refine ⟨hnamed, values, sorts.hidden, hvalues, heq ▸ rfl, fun item hitem => ?_⟩
  rcases sortClause_hidden schema root _ _ _ 0 sorts hsorts item hitem with
    ⟨hdistinct, i, key, value, hi, hvalue, hitem, hselected⟩
  refine ⟨hdistinct, i, key, value, hi, hvalue, Nat.zero_add i ▸ hitem, fun x hx htext => ?_⟩
  -- The columns are told apart by their texts, and the key has none of theirs.
  rw [← List.map_snd_zip (Nat.le_of_eq hnamed.length.symm)] at hx
  rcases List.mem_map.mp hx with ⟨column, hcolumn, rfl⟩
  have hany : isSelected (.items (names.zip list.effective)) key.expression = true :=
    List.any_eq_true.mpr ⟨column, hcolumn, beq_iff_eq.mpr htext⟩
  exact absurd (hselected.symm.trans hany) Bool.false_ne_true

end Sql

/-- The columns that are reported for a command. -/
theorem Mongo.compileParts_columns (schema : Schema) (root : String) (parts : QueryParts)
    (list : ExpressionList) (hlists : parts.Lists list) (compiled : Mongo.Compiled)
    (h : Mongo.compileParts schema root parts = .ok compiled) : list.Named compiled.columns := by
  rcases bind_eq_ok.mp h with ⟨filter, _, h⟩
  rcases bind_eq_ok.mp h with ⟨projection, hprojection, h⟩
  rcases named_of_projection parts list hlists projection hprojection with ⟨names, hnamed, rfl⟩
  rcases bind_eq_ok.mp h with ⟨command, _, h⟩
  rw [← Except.ok.inj h]
  dsimp only
  rw [List.map_fst_zip (Nat.le_of_eq hnamed.length)]
  exact hnamed

/-- The columns that are reported for a request. -/
theorem Search.compileParts_columns (schema : Schema) (root : String) (parts : QueryParts)
    (list : ExpressionList) (hlists : parts.Lists list) (request : Search.Request)
    (h : Search.compileParts schema root parts = .ok request) : list.Named request.columns := by
  unfold Search.compileParts at h
  dsimp only at h
  split at h
  case isTrue => exact absurd h (by rintro ⟨⟩)
  split at h
  case isTrue => exact absurd h (by rintro ⟨⟩)
  rcases bind_eq_ok.mp h with ⟨query, _, h⟩
  rcases bind_eq_ok.mp h with ⟨projection, hprojection, h⟩
  rcases named_of_projection parts list hlists projection hprojection with ⟨names, hnamed, rfl⟩
  rcases bind_eq_ok.mp h with ⟨source, hsource, h⟩
  rcases bind_eq_ok.mp h with ⟨sort, _, h⟩
  simp only [Search.sourceOf] at hsource
  split at hsource
  case isTrue => exact absurd hsource (by rintro ⟨⟩)
  rcases bind_eq_ok.mp hsource with ⟨fields, _, hsource⟩
  rw [← Except.ok.inj h, ← Except.ok.inj hsource]
  dsimp only
  rw [List.map_fst_zip (Nat.le_of_eq hnamed.length)]
  exact hnamed

/-- A row with the columns of a list, evaluated on some records. Its keys are the names in the
    order of first occurrence, and a name has the value of the last column of this name. -/
structure RowOf (clock : Clock) (list : ExpressionList) (names : List String) (on : Rows)
    (row : Record) : Prop where
  keys : row.map (·.1) = names.eraseDups
  values : ∀ before x after name, list.effective = before ++ x :: after → x.label? = some name →
    (∀ y ∈ after, y.label? ≠ some name) → List.lookup name row = some (x.valueOn clock on)

/-- The records that a row of an answer is about: a record that matches, or a group of such. -/
def Store.RangesOver (store : Store) (clock : Clock) (q : AnyQuery) (on : Rows) : Prop :=
  ∃ filter, (rowInterpretation clock).filter q.effective.filter store.maxDepth = .ok filter ∧
    q.handle (fun _ => ∃ record ∈ store.matching filter, on = .single record)
      (fun _ => ∃ groups, Store.groupRecords clock q.effective (store.matching filter) =
        .ok groups ∧ ∃ group ∈ groups, on = .ofGroup group)

section Rows

variable (clock : Clock) (list : ExpressionList)

theorem rowOf_insertAll (names : List String) (hnamed : list.Named names) (on : Rows) :
    RowOf clock list names on
      (insertAll (names.zip (list.effective.map (·.valueOn clock on)))) := by
  constructor
  case keys =>
    have hlength : names.length ≤ (list.effective.map (·.valueOn clock on)).length := by
      rw [List.length_map]
      exact Nat.le_of_eq hnamed.length
    rw [keys_insertAll, List.map_fst_zip hlength]
  case values =>
    intro before x after name hlist hname hlast
    unfold ExpressionList.Named at hnamed
    rw [hlist, List.map_append, List.map_cons] at hnamed
    -- The names are divided where the list is, so that the pair of the column can be pointed at.
    rcases List.map_eq_append_iff.mp hnamed.symm with ⟨firsts, others, rfl, hfirsts, hothers⟩
    rcases List.map_eq_cons_iff.mp hothers with ⟨label, lasts, rfl, hlabel, hlasts⟩
    have hlength : firsts.length = (before.map (·.valueOn clock on)).length := by
      have hlengths := congrArg List.length hfirsts
      rw [List.length_map, List.length_map] at hlengths
      rw [List.length_map, hlengths]
    rw [hlist, List.map_append, List.map_cons, List.zip_append hlength, List.zip_cons_cons,
      ← Option.some.inj (hname.symm.trans hlabel.symm)]
    apply lookup_insertAll_last
    -- A later pair of the name would be that of a later column.
    intro pair hpair heq
    have hlabels : some name ∈ after.map Expression.label? := by
      rw [← hlasts, ← heq]
      exact List.mem_map_of_mem (List.of_mem_zip hpair).1
    rcases List.mem_map.mp hlabels with ⟨y, hy, hyname⟩
    exact hlast y hy hyname

/-- A row is made of the values of the columns. -/
theorem outputRow_eq (names : List String) (hnamed : list.Named names)
    (columns : List (String × Evaluator))
    (h : columnEvaluators clock (names.zip list.effective) = .ok columns) (on : Rows) :
    outputRow columns on = insertAll (names.zip (list.effective.map (·.valueOn clock on))) := by
  rcases mapM_zip_eq_ok hnamed.length h with ⟨evaluators, hevaluators, rfl⟩
  have hvalues : list.effective.map (·.valueOn clock on) = evaluators.map (· on) :=
    map_of_mapM (fun x f hf => (Expression.valueOn_eq clock on x f hf).symm) hevaluators
  rw [hvalues, List.zip_map_right]
  rfl

theorem rowOf_outputRow (names : List String) (hnamed : list.Named names)
    (columns : List (String × Evaluator))
    (h : columnEvaluators clock (names.zip list.effective) = .ok columns) (on : Rows) :
    RowOf clock list names on (outputRow columns on) := by
  rw [outputRow_eq clock list names hnamed columns h on]
  exact rowOf_insertAll clock list names hnamed on

variable (store : Store) (parts : QueryParts) (hlists : parts.Lists list)
  (hcustomizers : parts.customizers = []) (rows : List Record)

include hlists hcustomizers

/-- The rows of a plain answer. -/
theorem Store.recordsOf_rows (h : store.recordsOf clock parts = .ok rows) :
    ∃ names, list.Named names ∧ ∀ row ∈ rows, ∃ filter,
      (rowInterpretation clock).filter parts.filter store.maxDepth = .ok filter ∧
        ∃ record ∈ store.matching filter, RowOf clock list names (.single record) row := by
  rcases found_of_recordsOf h with ⟨projection, columns, filter, plan, hfound, rfl⟩
  rcases named_of_projection parts list hlists projection hfound.projects with ⟨names, hnamed, rfl⟩
  rcases map_eq_ok.mp hfound.evaluates with ⟨evaluators, hevaluators, rfl⟩
  refine ⟨names, hnamed, fun row hrow => ⟨filter, hfound.filters, ?_⟩⟩
  rw [hcustomizers] at hrow
  rcases mem_resultRows plan _ _ _ row hrow with ⟨c, hc, rfl⟩
  rcases List.mem_map.mp hc with ⟨record, hrecord, rfl⟩
  exact ⟨record, hrecord, rowOf_outputRow clock list names hnamed evaluators hevaluators _⟩

/-- The rows of an answer with groups. -/
theorem Store.rowsOf_rows (h : store.rowsOf clock parts = .ok rows) :
    ∃ names, list.Named names ∧ ∀ row ∈ rows, ∃ filter,
      (rowInterpretation clock).filter parts.filter store.maxDepth = .ok filter ∧
        ∃ groups, Store.groupRecords clock parts (store.matching filter) = .ok groups ∧
          ∃ group ∈ groups, RowOf clock list names (.ofGroup group) row := by
  rcases found_of_rowsOf h with ⟨projection, columns, filter, having, groups, plan, hfound, rfl⟩
  rcases named_of_projection parts list hlists projection hfound.projects with ⟨names, hnamed, rfl⟩
  refine ⟨names, hnamed, fun row hrow => ⟨filter, hfound.filters, groups, hfound.groups, ?_⟩⟩
  rw [hcustomizers] at hrow
  rcases mem_resultRows plan _ _ _ row hrow with ⟨c, hc, rfl⟩
  rcases List.mem_map.mp hc with ⟨on, hon, rfl⟩
  rcases List.mem_map.mp (List.mem_filter.mp hon).1 with ⟨group, hgroup, rfl⟩
  exact ⟨group, hgroup, rowOf_outputRow clock list names hnamed columns hfound.evaluates _⟩

end Rows

section Queries

variable (q : AnyQuery) (list : ExpressionList) (hlists : q.effective.Lists list)
  (hplain : q.preprocessors = []) (hcustomizers : q.customizers = [])

include hlists hplain hcustomizers

theorem rows_columns (store : Store) (clock : Clock) (rows : List Record)
    (h : q.handle (store.findAll clock) (store.findRows clock) = .ok rows) :
    ∃ names, list.Named names ∧
      ∀ row ∈ rows, ∃ on, store.RangesOver clock q on ∧ RowOf clock list names on row := by
  -- A plain query has a row for each record, an advanced one a row for each group.
  cases q with
  | plain p =>
      have hrows := compiled_parts (store.recordsOf clock) (.plain p) hplain rows
        ((store.findAll_eq clock p).symm.trans h)
      rcases store.recordsOf_rows clock list _ hlists hcustomizers rows hrows with
        ⟨names, hnamed, heach⟩
      refine ⟨names, hnamed, fun row hrow => ?_⟩
      rcases heach row hrow with ⟨filter, hfilter, record, hrecord, hof⟩
      exact ⟨.single record, ⟨filter, hfilter, record, hrecord, rfl⟩, hof⟩
  | advanced p =>
      have hrows := compiled_parts (store.rowsOf clock) (.advanced p) hplain rows
        ((store.findRows_eq clock p).symm.trans h)
      rcases store.rowsOf_rows clock list _ hlists hcustomizers rows hrows with
        ⟨names, hnamed, heach⟩
      refine ⟨names, hnamed, fun row hrow => ?_⟩
      rcases heach row hrow with ⟨filter, hfilter, groups, hgroups, group, hgroup, hof⟩
      exact ⟨.ofGroup group, ⟨filter, hfilter, groups, hgroups, group, hgroup, rfl⟩, hof⟩

end Queries

/-- All backends agree on the columns of a query without preprocessors and customizers that
    returns the columns of a list, be it by a select or by a group-by without a select. The three
    that report columns report the names of the list, and a statement selects the columns under
    these names and after them nothing but hidden items. Every row of an answer has the names as
    its keys, each where it first occurs and with the value of its last column. A list with a call
    that has no alias is accepted by no backend. -/
theorem columns_agree (q : AnyQuery) (list : ExpressionList) (hlists : q.effective.Lists list)
    (hplain : q.preprocessors = []) (hcustomizers : q.customizers = []) :
    (∀ names, list.Named names →
      (∀ schema root compiled,
        q.handle (Sql.compileQuery schema root) (Sql.compileAdvanced schema root) = .ok compiled →
          compiled.columns = names ∧
            Sql.Selects schema root q.effective list names compiled.statement.items) ∧
      (∀ schema root compiled,
        q.handle (Mongo.compileQuery schema root) (Mongo.compileAdvanced schema root) =
          .ok compiled → compiled.columns = names) ∧
      (∀ schema root request,
        q.handle (Search.compileQuery schema root) (Search.compileAdvanced schema root) =
          .ok request → request.columns = names) ∧
      ∀ (store : Store) clock rows,
        q.handle (store.findAll clock) (store.findRows clock) = .ok rows →
          ∀ row ∈ rows, ∃ on, store.RangesOver clock q on ∧ RowOf clock list names on row) ∧
    ((∃ function arguments, .call function arguments none ∈ list.effective) →
      (∀ schema root, ∃ e,
        q.handle (Sql.compileQuery schema root) (Sql.compileAdvanced schema root) = .error e) ∧
      (∀ schema root, ∃ e,
        q.handle (Mongo.compileQuery schema root) (Mongo.compileAdvanced schema root) =
          .error e) ∧
      (∀ schema root, ∃ e,
        q.handle (Search.compileQuery schema root) (Search.compileAdvanced schema root) =
          .error e) ∧
      ∀ (store : Store) clock, ∃ e,
        q.handle (store.findAll clock) (store.findRows clock) = .error e) := by
  have hnone : q.effective.customizers = [] := by
    cases q with
    | plain q => exact hcustomizers
    | advanced q => exact hcustomizers
  -- Each backend that succeeds names its columns in the one way that the list can be named,
  have hsql := fun schema root compiled h => Sql.compileParts_selects schema root _ list hlists
    hnone compiled (compiled_parts (Sql.compileParts schema root) q hplain compiled h)
  have hmongo := fun schema root compiled h => Mongo.compileParts_columns schema root _ list hlists
    compiled (compiled_parts (Mongo.compileParts schema root) q hplain compiled h)
  have hsearch := fun schema root request h => Search.compileParts_columns schema root _ list
    hlists request (compiled_parts (Search.compileParts schema root) q hplain request h)
  have hrows := rows_columns q list hlists hplain hcustomizers
  constructor
  · intro names hnamed
    refine ⟨fun schema root compiled h => ?_, fun schema root compiled h => ?_,
      fun schema root request h => ?_, fun store clock rows h row hrow => ?_⟩
    · rcases hsql schema root compiled h with ⟨hcolumns, hselects⟩
      rw [← hcolumns.unique hnamed]
      exact ⟨rfl, hselects⟩
    · exact (hmongo schema root compiled h).unique hnamed
    · exact (hsearch schema root request h).unique hnamed
    · rcases hrows store clock rows h with ⟨others, hothers, heach⟩
      rw [hnamed.unique hothers]
      exact heach row hrow
  · -- so with a call without a name none succeeds: such a list has no names at all.
    rintro ⟨function, arguments, hcall⟩
    refine ⟨fun schema root => ?_, fun schema root => ?_, fun schema root => ?_,
      fun store clock => ?_⟩
    · exact exists_error fun compiled h =>
        (hsql schema root compiled h).1.no_call function arguments hcall
    · exact exists_error fun compiled h =>
        (hmongo schema root compiled h).no_call function arguments hcall
    · exact exists_error fun request h =>
        (hsearch schema root request h).no_call function arguments hcall
    · refine exists_error fun rows h => ?_
      rcases hrows store clock rows h with ⟨names, hnamed, _⟩
      exact hnamed.no_call function arguments hcall

/-- A property and a call of the same name. -/
def sampleList : ExpressionList where
  names := ["status"]
  expressions := [.call .ltrim [.expression (.property "status" none)] (some "status")]

/-- A query that groups by the list. -/
def sampleColumns : AdvancedQuery where
  groupBy := some (.items sampleList)

/-- The statement repeats the name, and the row has it once with the value of the call. -/
theorem columns_agree_sample :
    (∃ compiled, Sql.compileAdvanced .default "Order" sampleColumns = .ok compiled ∧
      compiled.columns = ["status", "status"]) ∧
    ∃ on, RowOf ⟨"", "", ""⟩ sampleList ["status", "status"] on [("status", .string "open")] := by
  have h := (columns_agree (.advanced sampleColumns) sampleList (.inr ⟨rfl, rfl⟩) rfl rfl).1
    ["status", "status"] rfl
  rcases h.2.2.2 ⟨[[("status", .string " open")]], 5⟩ ⟨"", "", ""⟩ _ rfl _ List.mem_cons_self with
    ⟨on, _, hrow⟩
  exact ⟨⟨_, rfl, (h.1 .default "Order" _ rfl).1⟩, on, hrow⟩

end Polyquery
