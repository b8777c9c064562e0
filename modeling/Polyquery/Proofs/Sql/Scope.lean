import Polyquery.Proofs.Backend.Functions
import Polyquery.Proofs.Condition.Emptiness
import Polyquery.Proofs.Condition.Results
import Polyquery.Proofs.Query.Portable
import Polyquery.Proofs.Sql.Joins

/-!
# The Scope of a Statement

A statement reads columns in many places: in its select list, in its filters,
in its group keys, in its order, and in the conditions of its joins. The tables
that it may read are the root and the tables of its joins. That it reads no
other table is a property which expressions get from the columns in them, so it
is proved for a column once and carried through expressions and conditions.

The joins are planned before anything is compiled, from a list of paths that is
made by itself. `columns_visible` is where the two meet: a path on the list
leads to a column of a table that has been joined. What is left is to see that
every place of a statement takes its paths from the list.

## Main definitions

* `Expr.Scoped`, `Statement.Scoped`: Only visible tables are read.
* `readPaths`, `countedPaths`: The paths that a query reads, and those that
  decide on the rows of a page.
* `WellScoped`: What the joins of a statement are for.

## Theorems

* `ofExpression_scoped`, `filter_scoped`, `sortClause_scoped`: The places of a
  statement.
* `compileParts_wellScoped`: The statement of the parts of a query.
* `statement_wellScoped`: The statement of a portable query.
-/

namespace Polyquery.Sql

mutual

/-- An expression reads columns of visible tables only. A piece of SQL may read any. -/
def Expr.Scoped (visible : String → Prop) : Expr → Prop
  | .column table _ => visible table
  | .value _ => True
  | .keyword _ => True
  | .call _ arguments => Expr.AllScoped visible arguments
  | .compare _ left right => left.Scoped visible ∧ right.Scoped visible
  | .concat left right => left.Scoped visible ∧ right.Scoped visible
  | .isNull operand => operand.Scoped visible
  | .isNotNull operand => operand.Scoped visible
  | .isIn operand _ => operand.Scoped visible
  | .notIn operand _ => operand.Scoped visible
  | .like operand _ => operand.Scoped visible
  | .notLike operand _ => operand.Scoped visible
  | .and left right => left.Scoped visible ∧ right.Scoped visible
  | .or left right => left.Scoped visible ∧ right.Scoped visible
  | .not operand => operand.Scoped visible
  | .choose condition yes no =>
    condition.Scoped visible ∧ yes.Scoped visible ∧ no.Scoped visible
  | .raw _ => False

/-- Several expressions read columns of visible tables only. -/
def Expr.AllScoped (visible : String → Prop) : List Expr → Prop
  | [] => True
  | e :: rest => e.Scoped visible ∧ Expr.AllScoped visible rest

end

/-- An item reads columns of visible tables only. -/
def Item.Scoped (visible : String → Prop) : Item → Prop
  | .all table => visible table
  | .named value _ => value.Scoped visible
  | .unnamed value => value.Scoped visible

/-- A table that a statement has brought in. -/
def Statement.Visible (s : Statement) (table : String) : Prop :=
  table = s.table ∨ ∃ join ∈ s.joins, join.tableAlias = table

/-- A statement reads columns of the tables that it has brought in, wherever it reads one. -/
structure Statement.Scoped (s : Statement) : Prop where
  items : ∀ item ∈ s.items, item.Scoped s.Visible
  joins : ∀ join ∈ s.joins, s.Visible join.parentAlias ∧ s.Visible join.tableAlias
  filter : ∀ e, s.filter = some e → e.Scoped s.Visible
  groupBy : ∀ e ∈ s.groupBy, e.Scoped s.Visible
  having : ∀ e, s.having = some e → e.Scoped s.Visible
  orderBy : ∀ key ∈ s.orderBy, key.1.Scoped s.Visible

section Expressions

variable {visible : String → Prop}

theorem allScoped_iff (es : List Expr) :
    Expr.AllScoped visible es ↔ ∀ e ∈ es, e.Scoped visible := by
  induction es with
  | nil => simp only [Expr.AllScoped, List.not_mem_nil, false_implies, implies_true]
  | cons e rest ih => simp only [Expr.AllScoped, ih, List.forall_mem_cons]

theorem call_scoped (name : String) (arguments : List Expr)
    (h : ∀ a ∈ arguments, a.Scoped visible) : (Expr.call name arguments).Scoped visible := by
  simp only [Expr.Scoped]
  exact (allScoped_iff arguments).mpr h

theorem concatenation_keeps :
    FunctionHandler.Keeps concatenation (Expr.Scoped visible) := by
  intro function arguments e harguments h
  cases arguments with
  | nil => exact absurd h (by simp only [concatenation, reduceCtorEq, not_false_eq_true])
  | cons first rest =>
      simp only [concatenation, Except.ok.injEq] at h
      rw [← h]
      rw [List.forall_mem_cons] at harguments
      rcases harguments with ⟨hfirst, hrest⟩
      clear h
      induction rest generalizing first with
      | nil => exact hfirst
      | cons second rest ih =>
          rw [List.forall_mem_cons] at hrest
          refine ih (.concat first second) ?_ hrest.2
          simp only [Expr.Scoped]
          exact ⟨hfirst, hrest.1⟩

theorem location_keeps : FunctionHandler.Keeps location (Expr.Scoped visible) := by
  intro function arguments e harguments h
  rcases bind_eq_ok.mp h with ⟨⟨needle, hay⟩, htwo, h⟩
  rw [two_eq_ok.mp htwo] at harguments
  rw [← Except.ok.inj h]
  refine call_scoped _ _ ?_
  intro a ha
  apply harguments
  simp only [List.mem_cons, List.not_mem_nil, or_false] at ha ⊢
  exact ha.symm

theorem nullWhenEqual_keeps : FunctionHandler.Keeps nullWhenEqual (Expr.Scoped visible) := by
  intro function arguments e harguments h
  rcases bind_eq_ok.mp h with ⟨⟨first, second⟩, htwo, h⟩
  rw [two_eq_ok.mp htwo] at harguments
  have hfirst := harguments first List.mem_cons_self
  have hsecond := harguments second (List.mem_cons_of_mem first List.mem_cons_self)
  simp only [] at h
  split at h
  · rw [← Except.ok.inj h]
    exact call_scoped _ _ harguments
  · rw [← Except.ok.inj h]
    simp only [Expr.Scoped, true_and]
    exact ⟨⟨hfirst, hsecond⟩, hfirst⟩

/-- No function reads more than its arguments. -/
theorem functionTable_keeps : functionTable.Keeps (Expr.Scoped visible) := by
  have hsame : FunctionHandler.Keeps sameName (Expr.Scoped visible) := by
    intro function arguments e harguments h
    rw [← Except.ok.inj h]
    exact call_scoped _ _ harguments
  have hnamed : ∀ name, FunctionHandler.Keeps (named name) (Expr.Scoped visible) := by
    intro name function arguments e harguments h
    rw [← Except.ok.inj h]
    exact call_scoped _ _ harguments
  have hword : ∀ keyword, FunctionHandler.Keeps (word keyword) (Expr.Scoped visible) := by
    intro keyword function arguments e _ h
    rw [← Except.ok.inj h]
    simp only [Expr.Scoped]
  refine keeps_of backendName _ _ ?_
  simp only [List.forall_mem_cons, List.not_mem_nil, false_implies, implies_true, and_true]
  simp only [hsame, hnamed, hword, concatenation_keeps, location_keeps, nullWhenEqual_keeps,
    and_self]

variable (schema : Schema) (root : String)

/-- A path leads to a column of a visible table, if it leads to a column. -/
def PathScoped (visible : String → Prop) (path : String) : Prop :=
  ∀ e, column schema root path = .ok e → e.Scoped visible

mutual

/-- An expression reads the columns of its paths only. -/
theorem ofExpression_scoped : ∀ (x : Expression) (e : Expr),
    (∀ path ∈ x.paths, PathScoped schema root visible path) →
    ofExpression schema root x = .ok e → e.Scoped visible
  | .property path label, e, h, hcompiled => by
      simp only [ofExpression] at hcompiled
      exact h path (by simp only [Expression.paths, List.mem_singleton]) e hcompiled
  | .call function arguments label, e, h, hcompiled => by
      simp only [ofExpression] at hcompiled
      simp only [Expression.paths] at h
      rcases bind_eq_ok.mp hcompiled with ⟨compiled, harguments, happly⟩
      exact apply_keeps functionTable_keeps function compiled e
        (ofArguments_scoped arguments compiled h harguments) happly

theorem ofArguments_scoped : ∀ (arguments : List Argument) (es : List Expr),
    (∀ path ∈ Expression.argumentPaths arguments, PathScoped schema root visible path) →
    ofArguments schema root arguments = .ok es → ∀ e ∈ es, e.Scoped visible
  | [], es, _, hcompiled => by
      simp only [ofArguments, Except.ok.injEq] at hcompiled
      rw [← hcompiled]
      exact fun e he => absurd he List.not_mem_nil
  | .expression value :: rest, es, h, hcompiled => by
      simp only [ofArguments] at hcompiled
      simp only [Expression.argumentPaths, List.mem_append] at h
      rcases bind_eq_ok.mp hcompiled with ⟨first, hfirst, hcompiled⟩
      rcases bind_eq_ok.mp hcompiled with ⟨others, hothers, hcompiled⟩
      rw [← Except.ok.inj hcompiled, List.forall_mem_cons]
      exact ⟨ofExpression_scoped value first (fun path hp => h path (.inl hp)) hfirst,
        ofArguments_scoped rest others (fun path hp => h path (.inr hp)) hothers⟩
  | .literal value :: rest, es, h, hcompiled => by
      simp only [ofArguments] at hcompiled
      simp only [Expression.argumentPaths] at h
      rcases bind_eq_ok.mp hcompiled with ⟨others, hothers, hcompiled⟩
      rw [← Except.ok.inj hcompiled, List.forall_mem_cons]
      exact ⟨by simp only [Expr.Scoped], ofArguments_scoped rest others h hothers⟩

end

/-- A comparison reads the columns of its two sides only. -/
theorem leafTest_scoped (leaf : SimpleCondition) (ctx : WalkContext) (e : Expr)
    (h : ∀ path ∈ leafPaths leaf, PathScoped schema root visible path)
    (hcompiled : leafTest schema root leaf ctx = .ok e) : e.Scoped visible := by
  rcases bind_eq_ok.mp hcompiled with ⟨left, hleft, hcompiled⟩
  have hleft : left.Scoped visible :=
    ofExpression_scoped schema root leaf.left left
      (fun path hp => h path (List.mem_append_left _ hp)) hleft
  split at hcompiled
  · -- A test for null.
    rw [← Except.ok.inj hcompiled]
    unfold nullTest
    split <;> simpa only [Expr.Scoped] using hleft
  · rw [← Except.ok.inj hcompiled]
    -- A list holds literals, which read no column.
    unfold listTest
    split <;> simp only [Expr.Scoped, hleft, and_self]
  · rename_i path hvalue
    rcases bind_eq_ok.mp hcompiled with ⟨right, hright, hcompiled⟩
    have hright : right.Scoped visible := by
      refine h path ?_ right hright
      simp only [leafPaths, hvalue, List.mem_append, List.mem_singleton, or_true]
    rw [← Except.ok.inj hcompiled]
    -- In every form only the two columns are read.
    unfold fieldTest comparison
    simp only []
    split
    · simp only [Expr.Scoped, hleft, hright, and_self]
    · simp only [Expr.Scoped, hleft, hright, and_self]
    · split <;> split <;> simp only [Expr.Scoped, hleft, hright, and_self]
  · rename_i literal hvalue
    simp only [] at hcompiled
    split at hcompiled
    · split at hcompiled
      · rw [← Except.ok.inj hcompiled]
        -- A pattern is a literal too, and lowering both sides adds no column.
        unfold patternTest
        simp only []
        split <;> simp only [Expr.Scoped, Expr.AllScoped, hleft, and_self]
      · exact absurd hcompiled (by simp only [throw, throwThe, MonadExceptOf.throw,
          reduceCtorEq, not_false_eq_true])
    · rw [← Except.ok.inj hcompiled]
      unfold scalarTest comparison
      simp only []
      split
      · simp only [Expr.Scoped, hleft, and_self]
      · simp only [Expr.Scoped, hleft, and_self]
      · split <;> split <;> simp only [Expr.Scoped, hleft, and_self]

/-- Connectives read what their parts read. -/
theorem interpretation_keeps : (interpretation schema root).Keeps (Expr.Scoped visible) where
  matchAll := by
    simp only [interpretation, always, Expr.Scoped]
  combine := by
    intro connective parts hparts
    simp only [interpretation]
    cases parts with
    -- An empty connective is a constant, which reads nothing.
    | nil => simp only [combine, always, Expr.Scoped]
    | cons first rest =>
        rw [List.forall_mem_cons] at hparts
        rcases hparts with ⟨hfirst, hrest⟩
        cases connective with
        | and =>
            simp only [combine]
            -- The parts are joined from the left, so what has been joined so far stands for the
            -- first.
            induction rest generalizing first with
            | nil => exact hfirst
            | cons second rest ih =>
                rw [List.forall_mem_cons] at hrest
                refine ih (.and first second) ?_ hrest.2
                simp only [Expr.Scoped]
                exact ⟨hfirst, hrest.1⟩
        | or =>
            simp only [combine]
            induction rest generalizing first with
            | nil => exact hfirst
            | cons second rest ih =>
                rw [List.forall_mem_cons] at hrest
                refine ih (.or first second) ?_ hrest.2
                simp only [Expr.Scoped]
                exact ⟨hfirst, hrest.1⟩

end Expressions

section Places

variable {visible : String → Prop} (schema : Schema) (root : String)

/-- The paths of a select or of a group-by. -/
def selectionPaths (selection : Option Selection) : List String :=
  selection.toList.flatMap fun columns => columns.expressions.flatMap Expression.paths

/-- The filter of a statement. -/
theorem filter_scoped (condition : Option Condition) (maxDepth : Nat) (e : Expr)
    (hnative : ∀ c, condition = some c → c.nativeFree = true)
    (h : ∀ path ∈ (leavesOf condition).flatMap leafPaths, PathScoped schema root visible path)
    (hcompiled : (interpretation schema root).filter condition maxDepth = .ok (some e)) :
    e.Scoped visible := by
  refine Interpretation.filter_keeps (interpretation_keeps schema root) condition maxDepth e
    hnative ?_ hcompiled
  intro c hc leaf hleaf ctx f hf
  refine leafTest_scoped schema root leaf ctx f ?_ hf
  intro path hpath
  apply h
  rw [hc, leavesOf_some]
  exact List.mem_flatMap.mpr ⟨leaf, hleaf, hpath⟩

/-- The select list of a statement. -/
theorem selectItems_scoped (projection : Projection) (items : List Item)
    (hroot : visible (schema.tableName root)) (hnative : ∀ piece, projection ≠ .native piece)
    (h : ∀ path ∈ projection.expressions.flatMap Expression.paths,
      PathScoped schema root visible path)
    (hcompiled : selectItems schema root projection = .ok items) :
    ∀ item ∈ items, item.Scoped visible := by
  cases projection with
  | entity =>
      rw [← Except.ok.inj hcompiled, List.forall_mem_singleton]
      exact hroot
  | native piece => exact absurd rfl (hnative piece)
  | items columns =>
      intro item hitem
      rcases exists_of_mapM hcompiled item hitem with ⟨⟨name, x⟩, hcolumn, hitem⟩
      rcases map_eq_ok.mp hitem with ⟨value, hvalue, hnamed⟩
      rw [← hnamed]
      refine ofExpression_scoped schema root x value ?_ hvalue
      intro path hpath
      exact h path (List.mem_flatMap.mpr ⟨x, List.mem_map.mpr ⟨(name, x), hcolumn, rfl⟩, hpath⟩)

/-- The group keys of a statement. -/
theorem groupKeys_scoped (selection : Option Selection) (keys : List Expr)
    (hnative : ∀ columns, selection = some columns → columns.isNative = false)
    (h : ∀ path ∈ selectionPaths selection, PathScoped schema root visible path)
    (hcompiled : groupKeys schema root selection = .ok keys) :
    ∀ e ∈ keys, e.Scoped visible := by
  cases selection with
  | none =>
      rw [← Except.ok.inj hcompiled]
      exact fun e he => absurd he List.not_mem_nil
  | some columns =>
      cases columns with
      | native piece => exact absurd (hnative _ rfl) (by
          simp only [Selection.isNative, reduceCtorEq, not_false_eq_true])
      | items list =>
          intro e he
          rcases exists_of_mapM hcompiled e he with ⟨x, hx, hxe⟩
          refine ofExpression_scoped schema root x e ?_ hxe
          intro path hpath
          apply h
          simp only [selectionPaths, Option.toList_some, List.flatMap_cons, List.flatMap_nil,
            List.append_nil, Selection.expressions]
          exact List.mem_flatMap.mpr ⟨x, hx, hpath⟩

/-- The order of a statement, with the items that are selected for it. -/
theorem sortClause_scoped (distinct : Bool) (projection : Projection) (keys : List SortKey) :
    ∀ (index : Nat) (clause : SortClause), (∀ key ∈ keys, key.isNative = false) →
      (∀ path ∈ keys.flatMap sortPaths, PathScoped schema root visible path) →
      sortClauseFrom schema root distinct projection index keys = .ok clause →
      (∀ item ∈ clause.hidden, item.Scoped visible) ∧
        ∀ key ∈ clause.orderBy, key.1.Scoped visible := by
  induction keys with
  | nil =>
      intro index clause _ _ hcompiled
      rw [← Except.ok.inj hcompiled]
      exact ⟨fun item hitem => absurd hitem List.not_mem_nil,
        fun key hkey => absurd hkey List.not_mem_nil⟩
  | cons key rest ih =>
      intro index clause hnative h hcompiled
      rw [List.forall_mem_cons] at hnative
      simp only [List.flatMap_cons, List.mem_append] at h
      cases key with
      -- A native order may read anything, but there is none.
      | native piece => exact absurd hnative.1 (by
          simp only [SortKey.isNative, reduceCtorEq, not_false_eq_true])
      | simple key =>
          rcases bind_eq_ok.mp hcompiled with ⟨value, hvalue, hcompiled⟩
          rcases bind_eq_ok.mp hcompiled with ⟨others, hothers, hcompiled⟩
          have hscoped := ofExpression_scoped schema root key.expression value
            (fun path hpath => h path (.inl hpath)) hvalue
          rcases ih (index + 1) others hnative.2 (fun path hpath => h path (.inr hpath)) hothers
            with ⟨hhidden, horder⟩
          rw [← Except.ok.inj hcompiled]
          constructor
          · intro item hitem
            rcases List.mem_append.mp hitem with hnew | hold
            · -- What is selected for the key is what the key is.
              split at hnew
              · rw [List.mem_singleton.mp hnew]
                exact hscoped
              · exact absurd hnew List.not_mem_nil
            · exact hhidden item hold
          · rw [List.forall_mem_cons]
            exact ⟨hscoped, horder⟩

end Places

/-- The paths of a query that decide on the rows of a page. -/
def countedPaths (q : AdvancedQuery) : List String :=
  (leavesOf q.filter).flatMap leafPaths ++ q.sorts.flatMap sortPaths

/-- The paths that a query reads: those of the filter, of the sorts, of the select, of the
    group-by and of the filter of groups. -/
def readPaths (q : AdvancedQuery) : List String :=
  countedPaths q ++ selectionPaths q.select ++ selectionPaths q.groupBy ++
    (leavesOf q.having).flatMap leafPaths

theorem selectionPaths_effective (selection : Option Selection) :
    selectionPaths (effectiveSelection selection) = selectionPaths selection := by
  cases selection with
  | none => rfl
  | some columns =>
      simp only [effectiveSelection, Option.filter]
      split
      · rfl
      · rename_i hempty
        cases columns with
        | native piece => exact absurd rfl hempty
        | items list =>
            -- An empty list has neither names nor expressions.
            rcases list with ⟨names, expressions⟩
            simp only [Selection.isEmpty, ExpressionList.isEmpty, Bool.not_eq_true,
              Bool.not_eq_false', Bool.and_eq_true, List.isEmpty_iff] at hempty
            rw [hempty.1, hempty.2]
            rfl

/-- The joins are planned for the paths that the query reads, in the order in which it reads
    them. -/
theorem pathUses_effective (q : AnyQuery) :
    pathUses q.effective = (countedPaths q.lift).map (⟨·, true⟩) ++
      (selectionPaths q.lift.select ++ selectionPaths q.lift.groupBy ++
        (leavesOf q.lift.having).flatMap leafPaths).map (⟨·, false⟩) := by
  have hcolumns : ∀ a b : Option Selection, (a.toList ++ b.toList).flatMap
      (fun selection => selection.expressions.flatMap Expression.paths) =
        selectionPaths a ++ selectionPaths b := by
    intro a b
    rw [List.flatMap_append]
    rfl
  unfold pathUses
  simp only [hcolumns]
  simp only [AnyQuery.effective, QueryParts.ofAdvanced, QueryParts.ofQuery, leavesOf_effective,
    selectionPaths_effective, countedPaths]

theorem path_of_pathUses (q : AnyQuery) :
    (pathUses q.effective).map (·.path) = readPaths q.lift := by
  have hpath : ∀ (counts : Bool) (paths : List String),
      (paths.map (PathUse.mk · counts)).map (·.path) = paths := by
    intro counts paths
    rw [List.map_map]
    exact List.map_id paths
  rw [pathUses_effective, List.map_append, hpath, hpath, readPaths]
  simp only [List.append_assoc]

/-- A path is planned for as one that counts when it is one that decides on the rows. -/
theorem counts_of_pathUses (q : AnyQuery) (P : String → Prop) :
    (∃ use ∈ pathUses q.effective, use.counts = true ∧ P use.path) ↔
      ∃ path ∈ countedPaths q.lift, P path := by
  rw [pathUses_effective]
  constructor
  · rintro ⟨use, hmem, hcounts, hP⟩
    -- The other paths are planned for without counting.
    rcases List.mem_append.mp hmem with hcounted | hother
    · rcases List.mem_map.mp hcounted with ⟨path, hpath, heq⟩
      rw [← heq] at hP
      exact ⟨path, hpath, hP⟩
    · rcases List.mem_map.mp hother with ⟨path, _, heq⟩
      rw [← heq] at hcounts
      exact absurd hcounts Bool.false_ne_true
  · rintro ⟨path, hpath, hP⟩
    exact ⟨⟨path, true⟩, List.mem_append_left _ (List.mem_map.mpr ⟨path, hpath, rfl⟩), rfl, hP⟩

/-- The aliases of the joins of a statement. -/
def Statement.aliases (s : Statement) : List String :=
  s.joins.map (·.tableAlias)

/-- The joins of a statement are those of the paths that the query reads, and no column of
    another table is read. -/
structure WellScoped (schema : Schema) (root : String) (q : AnyQuery) (compiled : Compiled) :
    Prop where
  table : compiled.statement.table = schema.tableName root
  nodup : compiled.statement.aliases.Nodup
  notRoot : schema.tableName root ∉ compiled.statement.aliases
  /-- The aliases are the alias of the root followed by the ways that paths go over. -/
  aliases : ∀ name, name ∈ compiled.statement.aliases ↔
    ∃ path ∈ readPaths q.lift, ∃ way, LeadsOver path way ∧ name = schema.aliasOf root way
  /-- Each join is the one that is configured for the end of its way. -/
  joins : ∀ join, join ∈ compiled.statement.joins ↔
    ∃ path ∈ readPaths q.lift, schema.JoinOn root path join
  parents : ParentsFirst (schema.tableName root) compiled.statement.joins
  columns : compiled.statement.Scoped
  distinct : compiled.requiresDistinct = true ↔
    q.lift.pagination.isSome = true ∧ q.lift.distinct = false ∧
      ∃ path ∈ countedPaths q.lift, schema.CrossesToMany root path

section Statements

variable (schema : Schema) (root : String)

/-- The joins of a plan have the aliases of the ways that their paths go over. -/
theorem exact_aliases (plan : JoinPlan) (uses : List PathUse)
    (hplan : plan.Exact schema root uses)
    (h : ∀ use ∈ uses, schema.Registered root use.path) (name : String) :
    name ∈ plan.joins.map (·.tableAlias) ↔
      ∃ use ∈ uses, ∃ way, LeadsOver use.path way ∧ name = schema.aliasOf root way := by
  rw [List.mem_map]
  constructor
  · -- A join is planned for the end of some way, and has the alias of that way.
    rintro ⟨join, hjoin, hname⟩
    rcases (hplan.mem join).mp hjoin with ⟨use, huse, way, segment, hleads, entity, relation, _,
      _, hat⟩
    refine ⟨use, huse, way ++ [segment], hleads, ?_⟩
    rw [← hname, hat]
  · rintro ⟨use, huse, way, hleads, hname⟩
    -- A way has a last segment, and its path is registered, so there is a join for it.
    rcases List.eq_nil_or_concat way with hnil | ⟨before, segment, hway⟩
    · exact absurd hnil hleads.1
    · rw [List.concat_eq_append] at hway
      rw [hway] at hleads
      rcases exists_joinAt schema root use.path before segment (h use huse) hleads with
        ⟨join, hjoin⟩
      refine ⟨join, (hplan.mem join).mpr ⟨use, huse, before, segment, hleads, hjoin⟩, ?_⟩
      rcases hjoin with ⟨entity, relation, _, _, hjoin⟩
      rw [hname, hway, hjoin]

/-- A path that joins have been planned for leads to a column of a table that is there. -/
theorem columns_visible (plan : JoinPlan) (uses : List PathUse)
    (hplan : plan.Exact schema root uses) (use : PathUse) (huse : use ∈ uses)
    (h : schema.Registered root use.path) :
    PathScoped schema root
      (fun table => table = schema.tableName root ∨
        ∃ join ∈ plan.joins, join.tableAlias = table) use.path := by
  intro e he
  rcases resolve_registered schema root use.path h with ⟨name, hresolve⟩
  unfold column at he
  rw [hresolve] at he
  rw [← Except.ok.inj he]
  simp only [Expr.Scoped]
  -- The alias is that of the root, or that of the join at the end of the way.
  rcases aliasOf_relations schema root use.path h with hroot | ⟨join, hjoin, halias⟩
  · exact .inl hroot
  · exact .inr ⟨join, (hplan.mem join).mpr ⟨use, huse, hjoin⟩, halias⟩

/-- What a query returns is read from its select or from its group-by. -/
theorem paths_returned (q : AnyQuery) :
    ∀ path ∈ q.effective.returned.flatMap Expression.paths, path ∈ readPaths q.lift := by
  intro path hpath
  -- The group-by is returned when nothing is selected; if there is neither, no column is.
  have hselected : path ∈ selectionPaths q.lift.select ∨ path ∈ selectionPaths q.lift.groupBy := by
    rw [← selectionPaths_effective q.lift.select, ← selectionPaths_effective q.lift.groupBy]
    unfold QueryParts.returned at hpath
    simp only [AnyQuery.effective, QueryParts.ofAdvanced, QueryParts.ofQuery] at hpath
    cases hselect : effectiveSelection q.lift.select with
    | some columns =>
        rw [hselect] at hpath
        left
        simpa only [selectionPaths, Option.toList_some, List.flatMap_cons, List.flatMap_nil,
          List.append_nil] using hpath
    | none =>
        rw [hselect] at hpath
        right
        cases hgroup : effectiveSelection q.lift.groupBy with
        | some columns =>
            rw [hgroup] at hpath
            simpa only [selectionPaths, Option.toList_some, List.flatMap_cons, List.flatMap_nil,
              List.append_nil] using hpath
        | none =>
            rw [hgroup] at hpath
            exact absurd hpath (by simp only [List.flatMap_nil, List.not_mem_nil,
              not_false_eq_true])
  unfold readPaths
  simp only [List.mem_append]
  rcases hselected with hselect | hgroup
  · exact .inl (.inl (.inr hselect))
  · exact .inl (.inr hgroup)

/-- What a statement is put together from. -/
structure MadeOf (parts : QueryParts) (plan : JoinPlan) (projection : Projection)
    (items : List Item) (sorts : SortClause) (compiled : Compiled) : Prop where
  planned : joinPlan schema root (pathUses parts) = .ok plan
  projected : parts.projection = .ok projection
  selected : selectItems schema root projection = .ok items
  sorted : sortClause schema root parts.distinct projection parts.sorts = .ok sorts
  filter : (interpretation schema root).filter parts.filter schema.maxDepth =
    .ok compiled.statement.filter
  groupBy : groupKeys schema root parts.groupBy = .ok compiled.statement.groupBy
  having : (interpretation schema root).filter parts.having schema.maxDepth =
    .ok compiled.statement.having
  table : compiled.statement.table = schema.tableName root
  joins : compiled.statement.joins = plan.joins
  itemsOf : compiled.statement.items = items ++ sorts.hidden
  orderBy : compiled.statement.orderBy = sorts.orderBy
  distinct : compiled.requiresDistinct =
    (parts.pagination.isSome && plan.multiplies && !parts.distinct)

/-- Every statement of portable parts is put together in that way. -/
theorem madeOf_compiled (parts : QueryParts) (hportable : parts.Portable) (compiled : Compiled)
    (h : compileParts schema root parts = .ok compiled) :
    ∃ plan projection items sorts,
      MadeOf schema root parts plan projection items sorts compiled := by
  unfold compileParts at h
  rcases bind_eq_ok.mp h with ⟨plan, hplan, h⟩
  rcases bind_eq_ok.mp h with ⟨projection, hprojection, h⟩
  rcases bind_eq_ok.mp h with ⟨items, hitems, h⟩
  rcases bind_eq_ok.mp h with ⟨filter, hfilter, h⟩
  rcases bind_eq_ok.mp h with ⟨groupBy, hgroupBy, h⟩
  rcases bind_eq_ok.mp h with ⟨having, hhaving, h⟩
  rcases bind_eq_ok.mp h with ⟨sorts, hsorts, h⟩
  have hcustomizers :
      matchingCustomizers Payload.asStatementAdjustment? parts.customizers = [] := by
    rw [hportable.customizers]
    rfl
  simp only [hcustomizers, adjustAll_nil] at h
  rw [← Except.ok.inj h]
  exact ⟨plan, projection, items, sorts, hplan, hprojection, hitems, hsorts, hfilter, hgroupBy,
    hhaving, rfl, rfl, rfl, rfl, rfl⟩

/-- A statement whose paths lead to tables that it has brought in reads no others. -/
theorem madeOf_scoped (q : AnyQuery) (hportable : q.effective.Portable) (plan : JoinPlan)
    (projection : Projection) (items : List Item) (sorts : SortClause) (compiled : Compiled)
    (h : MadeOf schema root q.effective plan projection items sorts compiled)
    (hparents : ParentsFirst (schema.tableName root) plan.joins)
    (hvisible : ∀ path ∈ readPaths q.lift,
      PathScoped schema root compiled.statement.Visible path) :
    compiled.statement.Scoped := by
  have hroot : compiled.statement.Visible (schema.tableName root) := .inl h.table.symm
  rcases projection_returned q.effective hportable projection h.projected with
    ⟨hnative, hreturned⟩
  -- The sorts give columns in two places: the order and the items hidden for it.
  have hsorted := sortClause_scoped schema root q.effective.distinct projection q.effective.sorts
    0 sorts hportable.sorts
    (fun path hpath => hvisible path (by
      simp only [readPaths, countedPaths, List.mem_append]
      exact .inl (.inl (.inl (.inr hpath))))) h.sorted
  constructor
  case items =>
    intro item hitem
    rw [h.itemsOf] at hitem
    -- An item is one of the projection or one that is hidden for the order.
    rcases List.mem_append.mp hitem with hselected | hhidden
    · refine selectItems_scoped schema root projection items hroot hnative ?_ h.selected item
        hselected
      intro path hpath
      rw [hreturned] at hpath
      exact hvisible path (paths_returned q path hpath)
    · exact hsorted.1 item hhidden
  case joins =>
    intro join hjoin
    refine ⟨?_, .inr ⟨join, hjoin, rfl⟩⟩
    -- The parent of a join is the root or one of the joins before it.
    rcases List.append_of_mem hjoin with ⟨before, after, hsplit⟩
    rw [h.joins] at hsplit
    rcases hparents before join after hsplit with heq | ⟨earlier, hmem, halias⟩
    · rw [heq]
      exact hroot
    · refine .inr ⟨earlier, ?_, halias⟩
      rw [h.joins, hsplit]
      exact List.mem_append_left _ hmem
  case filter =>
    intro e he
    have hfilter := h.filter
    rw [he] at hfilter
    -- What the filter tests is among the paths that count.
    refine filter_scoped schema root q.effective.filter schema.maxDepth e hportable.filter ?_
      hfilter
    intro path hpath
    apply hvisible
    simp only [AnyQuery.effective, QueryParts.ofAdvanced, QueryParts.ofQuery,
      leavesOf_effective] at hpath
    simp only [readPaths, countedPaths, List.mem_append]
    exact .inl (.inl (.inl (.inl hpath)))
  case groupBy =>
    refine groupKeys_scoped schema root q.effective.groupBy _ hportable.groupBy ?_ h.groupBy
    intro path hpath
    apply hvisible
    simp only [AnyQuery.effective, QueryParts.ofAdvanced, selectionPaths_effective] at hpath
    simp only [readPaths, List.mem_append]
    exact .inl (.inr hpath)
  case having =>
    intro e he
    have hhaving := h.having
    rw [he] at hhaving
    refine filter_scoped schema root q.effective.having schema.maxDepth e hportable.having ?_
      hhaving
    intro path hpath
    apply hvisible
    simp only [AnyQuery.effective, QueryParts.ofAdvanced, leavesOf_effective] at hpath
    simp only [readPaths, List.mem_append]
    exact .inr hpath
  case orderBy =>
    -- The order of the statement is the one of the sorts, seen above.
    rw [h.orderBy]
    exact hsorted.2

/-- The statement of a query whose paths all resolve. -/
theorem compileParts_wellScoped (q : AnyQuery) (hportable : q.Portable) (compiled : Compiled)
    (h : ∀ path ∈ readPaths q.lift, schema.Registered root path)
    (hcompiled : compileParts schema root q.effective = .ok compiled) :
    WellScoped schema root q compiled := by
  have hparts := portable_effective q hportable
  rcases madeOf_compiled schema root q.effective hparts compiled hcompiled with
    ⟨plan, projection, items, sorts, hmade⟩
  -- What holds of the uses of paths holds of the paths, and the other way round.
  have hread : ∀ P : String → Prop, (∃ use ∈ pathUses q.effective, P use.path) ↔
      ∃ path ∈ readPaths q.lift, P path := by
    intro P
    rw [← path_of_pathUses]
    simp only [List.mem_map, exists_exists_and_eq_and]
  have huses : ∀ use ∈ pathUses q.effective, schema.Registered root use.path := by
    intro use huse
    apply h
    rw [← path_of_pathUses]
    exact List.mem_map.mpr ⟨use, huse, rfl⟩
  have hexact : plan.Exact schema root (pathUses q.effective) := by
    rcases joinPlan_exact schema root (pathUses q.effective) huses with ⟨other, hother, hexact⟩
    rw [hmade.planned] at hother
    rw [Except.ok.inj hother]
    exact hexact
  have hvisible : ∀ path ∈ readPaths q.lift,
      PathScoped schema root compiled.statement.Visible path := by
    intro path hpath
    rw [← path_of_pathUses] at hpath
    rcases List.mem_map.mp hpath with ⟨use, huse, heq⟩
    have hcolumn := columns_visible schema root plan _ hexact use huse (huses use huse)
    rw [← heq]
    unfold Statement.Visible
    rw [hmade.table, hmade.joins]
    exact hcolumn
  constructor
  case table => exact hmade.table
  case nodup =>
    unfold Statement.aliases
    rw [hmade.joins]
    exact hexact.nodup
  case notRoot =>
    intro hmem
    rcases List.mem_map.mp hmem with ⟨join, hjoin, halias⟩
    rw [hmade.joins] at hjoin
    rcases (hexact.mem join).mp hjoin with ⟨use, _, hon⟩
    exact joinOn_ne_root schema root use.path join hon halias
  case aliases =>
    intro name
    unfold Statement.aliases
    rw [hmade.joins,
      ← hread fun path => ∃ way, LeadsOver path way ∧ name = schema.aliasOf root way]
    exact exact_aliases schema root plan _ hexact huses name
  case joins =>
    intro join
    rw [hmade.joins, ← hread fun path => schema.JoinOn root path join]
    exact hexact.mem join
  case parents =>
    rw [hmade.joins]
    exact hexact.parents
  case columns =>
    exact madeOf_scoped schema root q hparts plan projection items sorts compiled hmade
      hexact.parents hvisible
  case distinct =>
    rw [hmade.distinct, ← counts_of_pathUses q (schema.CrossesToMany root), ← hexact.multiplies]
    simp only [AnyQuery.effective, QueryParts.ofAdvanced, QueryParts.ofQuery, Bool.and_eq_true,
      Bool.not_eq_true']
    constructor
    · rintro ⟨⟨hpage, hmany⟩, hdistinct⟩
      exact ⟨hpage, hdistinct, hmany⟩
    · rintro ⟨hpage, hdistinct, hmany⟩
      exact ⟨⟨hpage, hmany⟩, hdistinct⟩

/-- A portable query that passes the checks and whose paths all resolve compiles, if it
    compiles, to a statement whose joins are those of its paths and which reads no other
    tables. If some path does not resolve, the first one of them decides the error. -/
theorem statement_wellScoped (q : AnyQuery) (hportable : q.Portable) (hprepares : q.Prepares) :
    ((∀ path ∈ readPaths q.lift, schema.Registered root path) →
      ∀ compiled,
        q.handle (compileQuery schema root) (compileAdvanced schema root) = .ok compiled →
        WellScoped schema root q compiled) ∧
    ((¬ ∀ path ∈ readPaths q.lift, schema.Registered root path) →
      ∃ before path after entity segment,
        readPaths q.lift = before ++ path :: after ∧
        (∀ other ∈ before, schema.Registered root other) ∧
        schema.Breaks root path entity segment ∧
        q.handle (compileQuery schema root) (compileAdvanced schema root) =
          .error (.unknownRelation entity segment)) := by
  have hcompile : q.handle (compileQuery schema root) (compileAdvanced schema root) =
      compileParts schema root q.effective :=
    handle_prepared (compileParts schema root) q hportable hprepares
  rw [hcompile]
  constructor
  · intro h compiled hcompiled
    exact compileParts_wellScoped schema root q hportable compiled h hcompiled
  · intro h
    rcases first_broken schema root (readPaths q.lift) h with
      ⟨before, path, after, entity, segment, hsplit, hbefore, hbreaks⟩
    refine ⟨before, path, after, entity, segment, hsplit, hbefore, hbreaks, ?_⟩
    -- The paths are split where the list of their uses is.
    rw [← path_of_pathUses] at hsplit
    rcases List.map_eq_append_iff.mp hsplit with ⟨earlier, rest, huses, hearlier, hrest⟩
    rcases List.map_eq_cons_iff.mp hrest with ⟨use, later, hlater, hpath, _⟩
    rw [hlater] at huses
    have hregistered : ∀ use ∈ earlier, schema.Registered root use.path := by
      intro use huse
      apply hbefore
      rw [← hearlier]
      exact List.mem_map.mpr ⟨use, huse, rfl⟩
    rw [← hpath] at hbreaks
    unfold compileParts
    rw [huses, joinPlan_broken schema root earlier later use entity segment hregistered hbreaks,
      error_bind]

end Statements

/-- People in teams, whose members are people. -/
def sampleSchema : Schema :=
  (Schema.default.withRelation "Person" "team" ⟨"Team", "team_id", "id", false⟩).withRelation
    "Team" "members" ⟨"Person", "id", "team_id", true⟩

/-- The sizes of teams with a member who is older than the person, which comes back to the
    table of people, and with a condition on the groups. -/
def sampleQuery : AdvancedQuery where
  filter := some (.simple
    ⟨.property "team.members.age" none, .greaterThan, some (.field "age")⟩)
  sorts := [.simple ⟨.property "team.name" none, .ascending⟩]
  pagination := some ⟨1, 10, by decide, by decide, by decide, by decide⟩
  select := some (.items ⟨["team.name"],
    [.call .count [.expression (.property "id" none)] (some "size")]⟩)
  groupBy := some (.items ⟨["team.name"], []⟩)
  having := some (.simple
    ⟨.call .count [.expression (.property "id" none)] none, .greaterThan,
      some (.scalar (.integer 1))⟩)

/-- The sample joins teams and, under another alias, people. With a key that leads over a
    relation which is not configured it does not compile. -/
theorem statement_wellScoped_sample :
    (∃ compiled, compileAdvanced sampleSchema "Person" sampleQuery = .ok compiled ∧
      WellScoped sampleSchema "Person" (.advanced sampleQuery) compiled) ∧
    ∃ entity segment,
      compileAdvanced sampleSchema "Person"
          { sampleQuery with groupBy := some (.items ⟨["team.owner.name"], []⟩) } =
        .error (.unknownRelation entity segment) := by
  have hquery : sampleQuery.toQuery.Portable :=
    ⟨by rintro c ⟨⟩; rfl, by decide, by rintro columns ⟨⟩; rfl, rfl, rfl⟩
  constructor
  · have hportable : sampleQuery.Portable :=
      ⟨hquery, by rintro columns ⟨⟩; rfl, by rintro c ⟨⟩; rfl⟩
    exact ⟨_, rfl, (statement_wellScoped sampleSchema "Person" (.advanced sampleQuery) hportable
      ⟨_, rfl⟩).1 (by decide) _ rfl⟩
  · have hportable : AdvancedQuery.Portable
        { sampleQuery with groupBy := some (.items ⟨["team.owner.name"], []⟩) } :=
      ⟨hquery, by rintro columns ⟨⟩; rfl, by rintro c ⟨⟩; rfl⟩
    rcases (statement_wellScoped sampleSchema "Person" (.advanced _) hportable ⟨_, rfl⟩).2
      (by decide) with ⟨_, _, _, entity, segment, _, _, _, herror⟩
    exact ⟨entity, segment, herror⟩

end Polyquery.Sql
