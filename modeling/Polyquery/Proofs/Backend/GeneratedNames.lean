import Mathlib.Data.List.Duplicate
import Mathlib.Data.List.Forall2
import Polyquery.Proofs.Mongo.DistinctRows

/-!
# Generated Names

Two backends give names of their own to sort keys that have to be computed beside the
columns: `__sort_0`, `__sort_1` and so on, after the place of the key. A column can be
called by any name, and nobody asks whether it is called by one of these. So what is
said of the names of columns has a case in which a column has such a name, and it is
the only case in which something is lost.

In a statement the name then stands twice in the select list. In a pipeline the sort
key takes the place of the column in the projection, where it is computed last, and in
the end it is removed, so that a row has nothing under this name at all. Every other
column is there in the end with the value of its own expression, whatever is sorted by.

## Main definitions

* `ExpressionList.last?`, `ExpressionList.Flat`: The column that a name stands for.
* `Sql.Statement.selectNames`, `Sql.Aliased`: The names in a select list.
* `Mongo.ComputesColumns`: A pipeline with columns.
* `Mongo.Server.Shows`: A row that leaves such a pipeline.

## Theorems

* `Sql.sortClause_names`, `Sql.compileParts_aliased`: The names in a select list.
* `Sql.Aliased.duplicate_iff`: The names that are repeated in it.
* `Mongo.sortStage_field`, `Mongo.projectStage_inOrder`: The fields of a projection.
* `Mongo.lookup_hidden`, `Mongo.lookup_column`: What they are in the end.
* `Mongo.command_computesColumns`: The pipelines with columns.
* `Mongo.ComputesColumns.shows`: The rows that leave them.
* `generated_names`: What generated names do to the names of columns.
-/

namespace Polyquery

open Mongo Mongo.Server

/-- The column that a name stands for: the last one of this name. -/
def ExpressionList.last? (list : ExpressionList) (name : String) : Option Expression :=
  list.effective.reverse.find? fun x => x.label? == some name

/-- A name that is no path, and that no column has a path below. -/
structure ExpressionList.Flat (list : ExpressionList) (name : String) : Prop where
  plain : Text.dotted name = [name]
  alone : ∀ x ∈ list.effective, ∀ label, x.label? = some label →
    (Text.dotted label).head? = some name → label = name

theorem ExpressionList.Named.mem_iff {list : ExpressionList} {names : List String}
    (h : list.Named names) (name : String) :
    name ∈ names ↔ ∃ x ∈ list.effective, x.label? = some name := by
  rw [← List.mem_map, h]
  exact (List.mem_map_of_injective (Option.some_injective String)).symm

theorem ExpressionList.Named.last {list : ExpressionList} {names : List String}
    (h : list.Named names) (name : String) (hname : name ∈ names) :
    ∃ x, list.last? name = some x := by
  rcases (h.mem_iff name).mp hname with ⟨x, hx, hlabel⟩
  rw [← Option.isSome_iff_exists, ExpressionList.last?, List.find?_isSome]
  exact ⟨x, List.mem_reverse.mpr hx, beq_iff_eq.mpr hlabel⟩

/-- The column that a name stands for is one of the name. -/
theorem ExpressionList.last?_label {list : ExpressionList} {name : String} {x : Expression}
    (h : list.last? name = some x) : x ∈ list.effective ∧ x.label? = some name := by
  have hfind : list.effective.reverse.find? (fun y => y.label? == some name) = some x := h
  have hlabel := List.find?_some hfind
  exact ⟨List.mem_reverse.mp (List.mem_of_find?_eq_some hfind), beq_iff_eq.mp hlabel⟩

/-- Two lists have a repetition of their own or a common element, if the second one has no
    repetition. -/
theorem duplicate_append_iff {α : Type} [DecidableEq α] (as : List α) {bs : List α}
    (h : bs.Nodup) (a : α) :
    List.Duplicate a (as ++ bs) ↔ List.Duplicate a as ∨ a ∈ as ∧ a ∈ bs := by
  -- An element is repeated if it is counted twice, and the second list counts it once at most.
  have hbs := List.nodup_iff_count_le_one.mp h a
  rw [List.duplicate_iff_two_le_count, List.duplicate_iff_two_le_count, List.count_append,
    ← List.count_pos_iff, ← List.count_pos_iff]
  omega

namespace Sql

/-- The name that an item is selected under. -/
def Item.name? : Item → Option String
  | .named _ name => some name
  | _ => none

/-- The names in a select list. -/
def Statement.selectNames (s : Statement) : List String :=
  s.items.filterMap Item.name?

/-- A sort key that a statement has to select beside its columns. -/
def IsHiddenAt (parts : QueryParts) (projection : Projection) (place : Nat) : Prop :=
  parts.distinct = true ∧ ∃ key, parts.sorts[place]? = some (.simple key) ∧
    isSelected projection key.expression = false

/-- The names in the select list of a statement: those of the columns, and after them one for
    each sort key that is selected beside them. -/
structure Aliased (parts : QueryParts) (projection : Projection) (places : List Nat)
    (compiled : Compiled) : Prop where
  projected : parts.projection = .ok projection
  names : compiled.statement.selectNames = compiled.columns ++ places.map hiddenName
  hidden : ∀ place, place ∈ places ↔ IsHiddenAt parts projection place
  ordered : places.Pairwise (· < ·)

section Places

variable (distinct : Bool) (projection : Projection)

/-- Whether a sort key has to be selected beside the columns. -/
def needsItem : SortKey → Bool
  | .simple key => distinct && !isSelected projection key.expression
  | .native _ => false

/-- The places of such sort keys, where the first place has the given index. -/
def hiddenPlaces (index : Nat) (keys : List SortKey) : List Nat :=
  ((keys.zipIdx index).filter fun place => needsItem distinct projection place.1).map (·.2)

theorem hiddenPlaces_cons (index : Nat) (key : SortKey) (rest : List SortKey) :
    hiddenPlaces distinct projection index (key :: rest) =
      (if needsItem distinct projection key then [index] else []) ++
        hiddenPlaces distinct projection (index + 1) rest := by
  rw [hiddenPlaces, List.zipIdx_cons, List.filter_cons]
  split <;> rfl

theorem hiddenPlaces_ordered (index : Nat) (keys : List SortKey) :
    (hiddenPlaces distinct projection index keys).Pairwise (· < ·) := by
  have hall : ((keys.zipIdx index).map (·.2)).Pairwise (· < ·) := by
    rw [List.zipIdx_map_snd]
    exact List.pairwise_lt_range'
  exact hall.sublist (List.filter_sublist.map _)

theorem mem_hiddenPlaces (keys : List SortKey) (place : Nat) :
    place ∈ hiddenPlaces distinct projection 0 keys ↔
      distinct = true ∧ ∃ key, keys[place]? = some (.simple key) ∧
        isSelected projection key.expression = false := by
  rw [hiddenPlaces, List.mem_map]
  constructor
  · rintro ⟨⟨key, place⟩, hmem, rfl⟩
    rcases List.mem_filter.mp hmem with ⟨hkey, hneeded⟩
    cases key with
    | simple key =>
        rw [needsItem, Bool.and_eq_true, Bool.not_eq_true'] at hneeded
        exact ⟨hneeded.1, key, List.mk_mem_zipIdx_iff_getElem?.mp hkey, hneeded.2⟩
    | native piece => exact absurd hneeded Bool.false_ne_true
  · rintro ⟨hdistinct, key, hkey, hselected⟩
    refine ⟨(.simple key, place), List.mem_filter.mpr
      ⟨List.mk_mem_zipIdx_iff_getElem?.mpr hkey, ?_⟩, rfl⟩
    rw [needsItem, hdistinct, hselected]
    rfl

end Places

variable (schema : Schema) (root : String)

/-- The names of hidden items tell the places of their sort keys. -/
theorem sortClause_names (distinct : Bool) (projection : Projection) (keys : List SortKey)
    (index : Nat) (clause : SortClause)
    (h : sortClauseFrom schema root distinct projection index keys = .ok clause) :
    clause.hidden.filterMap Item.name? =
      (hiddenPlaces distinct projection index keys).map hiddenName := by
  induction keys generalizing index clause with
  | nil =>
      rw [← Except.ok.inj h]
      rfl
  | cons key rest ih =>
      rw [hiddenPlaces_cons, List.map_append]
      cases key with
      | simple key =>
          rcases bind_eq_ok.mp h with ⟨value, _, h⟩
          rcases bind_eq_ok.mp h with ⟨others, hothers, h⟩
          rw [← Except.ok.inj h, List.filterMap_append, ih (index + 1) others hothers, needsItem]
          split <;> rfl
      | native piece =>
          rcases bind_eq_ok.mp h with ⟨order, _, h⟩
          rcases bind_eq_ok.mp h with ⟨others, hothers, h⟩
          rw [← Except.ok.inj h]
          exact ih (index + 1) others hothers

/-- The names of the other items are those of the columns. -/
theorem selectItems_names (projection : Projection) (items : List Item)
    (hnative : ∀ piece, projection ≠ .native piece)
    (h : selectItems schema root projection = .ok items) :
    items.filterMap Item.name? = projectionNames projection := by
  cases projection with
  | entity =>
      rw [← Except.ok.inj h]
      rfl
  | items columns =>
      have hnames : items.map Item.name? = columns.map fun column => some column.1 := by
        refine (map_of_mapM ?_ h).symm
        rintro ⟨name, e⟩ item hitem
        rcases map_eq_ok.mp hitem with ⟨value, _, rfl⟩
        rfl
      have hsome := congrArg (List.filterMap id) hnames
      rw [List.filterMap_map, List.filterMap_map] at hsome
      exact hsome.trans (congrFun List.filterMap_eq_map' columns)
  | native piece => exact absurd rfl (hnative piece)

theorem compileParts_aliased (parts : QueryParts) (hportable : parts.Portable)
    (compiled : Compiled) (h : compileParts schema root parts = .ok compiled) :
    ∃ projection places, Aliased parts projection places compiled := by
  rcases bind_eq_ok.mp h with ⟨plan, _, h⟩
  rcases bind_eq_ok.mp h with ⟨projection, hprojection, h⟩
  rcases bind_eq_ok.mp h with ⟨items, hitems, h⟩
  rcases bind_eq_ok.mp h with ⟨filter, _, h⟩
  rcases bind_eq_ok.mp h with ⟨groupBy, _, h⟩
  rcases bind_eq_ok.mp h with ⟨having, _, h⟩
  rcases bind_eq_ok.mp h with ⟨sorts, hsorts, h⟩
  rw [hportable.customizers] at h
  have hnative := (projection_returned parts hportable projection hprojection).1
  refine ⟨projection, hiddenPlaces parts.distinct projection 0 parts.sorts, ?_⟩
  rw [← Except.ok.inj h]
  constructor
  case projected => exact hprojection
  case names =>
    refine List.filterMap_append.trans ?_
    rw [selectItems_names schema root projection items hnative hitems,
      sortClause_names schema root _ _ _ 0 sorts hsorts]
  case hidden => exact mem_hiddenPlaces parts.distinct projection parts.sorts
  case ordered => exact hiddenPlaces_ordered parts.distinct projection 0 parts.sorts

/-- A name that is selected twice is repeated among the columns, or it is that of a column and of
    a hidden sort key. -/
theorem Aliased.duplicate_iff {parts : QueryParts} {projection : Projection} {places : List Nat}
    {compiled : Compiled} (h : Aliased parts projection places compiled) (name : String) :
    List.Duplicate name compiled.statement.selectNames ↔ List.Duplicate name compiled.columns ∨
      name ∈ compiled.columns ∧ ∃ place ∈ places, name = hiddenName place := by
  have hnodup : (places.map hiddenName).Nodup :=
    List.Pairwise.map hiddenName (fun i j hlt heq =>
      absurd (Text.numbered_injective "__sort_" i j heq) (Nat.ne_of_lt hlt)) h.ordered
  rw [h.names, duplicate_append_iff _ hnodup, List.mem_map]
  simp only [eq_comm]

end Sql

namespace Mongo

/-- A document has nothing under a name that it is left without. -/
theorem lookup_without_of_mem (names : List String) (document : Record) (name : String)
    (h : name ∈ names) : List.lookup name (without names document) = none := by
  rw [List.lookup_eq_none_iff]
  intro member hmember
  have hkept := (List.mem_filter.mp hmember).2
  rw [List.contains_eq_mem, Bool.not_eq_true', decide_eq_false_iff_not] at hkept
  exact bne_iff_ne.mpr fun heq => hkept (heq ▸ h)

/-- Under every other name it has what it had. -/
theorem lookup_without_of_not_mem (names : List String) (document : Record) (name : String)
    (h : name ∉ names) :
    List.lookup name (without names document) = List.lookup name document := by
  induction document with
  | nil => rfl
  | cons member rest ih =>
      rw [without, List.filter_cons, lookup_cons_eq]
      split
      case isTrue =>
        rw [lookup_cons_eq]
        exact if_congr Iff.rfl rfl ih
      case isFalse hgone =>
        have hne : name ≠ member.1 := by
          rintro rfl
          exact hgone (by rw [List.contains_eq_mem, decide_eq_false h]; rfl)
        rw [if_neg hne]
        exact ih

section Fields

variable (scope : Scope)

/-- A sort key is computed under the name of its place. -/
theorem sortStage_field (keys : List SortKey) (hportable : ∀ key ∈ keys, key.isNative = false)
    (stage : SortStage) (h : sortStage scope keys = .ok stage) (place : Nat) (key : SimpleSort)
    (hkey : keys[place]? = some (.simple key)) :
    ∃ e, ofExpression scope key.expression = .ok e ∧ (sortName place, e) ∈ stage.computed := by
  -- What is computed stays, and the later keys are counted from the next index.
  have hfrom : ∀ (keys : List SortKey) (index : Nat) (before : SortStage),
      (∀ key ∈ keys, key.isNative = false) →
      sortStageFrom scope index before keys = .ok stage →
      (∀ field ∈ before.computed, field ∈ stage.computed) ∧
        ∀ i, keys[i]? = some (.simple key) → ∃ e, ofExpression scope key.expression = .ok e ∧
          (sortName (index + i), e) ∈ stage.computed := by
    intro keys
    induction keys with
    | nil =>
        intro index before _ h
        rw [← Except.ok.inj h]
        exact ⟨fun _ hfield => hfield, fun i hi => absurd hi (by rintro ⟨⟩)⟩
    | cons first rest ih =>
        intro index before hportable h
        rw [List.forall_mem_cons] at hportable
        cases first with
        | native piece => exact absurd hportable.1 (by
            simp only [SortKey.isNative, reduceCtorEq, not_false_eq_true])
        | simple first =>
            rcases bind_eq_ok.mp h with ⟨value, hvalue, h⟩
            rcases ih (index + 1) _ hportable.2 h with ⟨hkept, hlater⟩
            refine ⟨fun field hfield => hkept field (List.mem_append_left _ hfield),
              fun i hi => ?_⟩
            cases i with
            | zero =>
                rw [← SortKey.simple.inj (Option.some.inj hi)]
                exact ⟨value, hvalue, hkept _ (List.mem_append_right _ List.mem_cons_self)⟩
            | succ i =>
                rw [show index + (i + 1) = index + 1 + i by omega]
                exact hlater i hi
  have hplace := (hfrom keys 0 ⟨[], []⟩ hportable h).2 place hkey
  rwa [Nat.zero_add] at hplace

/-- A column has a field of a projection for itself. -/
def StandsFor (x : Expression) (field : String × Projected) : Prop :=
  x.label? = some field.1 ∧ ∃ e, ofExpression scope x = .ok e ∧ field.2 = .computed e

/-- The fields of a projection: the columns, and after them the fields to sort by. Of several
    fields under one name the last one counts. -/
def projectedFields (fields : List (String × Projected)) (computed : List (String × Expr)) :
    List (String × Projected) :=
  insertAll (("_id", .omitted) :: fields ++ projectStage.hidden computed)

/-- A projection computes the columns one by one. -/
theorem projectStage_inOrder (computed : List (String × Expr)) (list : ExpressionList)
    (names : List String) (hnamed : list.Named names) (stages : List Stage)
    (h : projectStage scope computed (.items (names.zip list.effective)) = .ok stages) :
    ∃ fields, List.Forall₂ (StandsFor scope) list.effective fields ∧
      stages = [.project (projectedFields fields computed)] := by
  rcases bind_eq_ok.mp h with ⟨fields, hfields, h⟩
  have hstages : stages = [.project (projectedFields fields computed)] := by
    rw [← Except.ok.inj h, projectedFields, insertAll, List.foldl_append]
    rfl
  refine ⟨fields, ?_, hstages⟩
  have hcolumns : List.Forall₂ (fun column field => StandsFor scope column.2 field)
      (names.zip list.effective) fields := by
    have heach : List.Forall₂ (fun (column : String × Expression) field =>
        (ofExpression scope column.2).map (fun e => (column.1, Projected.computed e)) = .ok field)
        (names.zip list.effective) fields := forall₂_of_mapM hfields
    refine ((List.forall₂_and_left _ _).mpr ⟨fun column hcolumn => hnamed.label hcolumn,
      heach⟩).imp ?_
    rintro ⟨name, x⟩ field ⟨hlabel, hfield⟩
    rcases map_eq_ok.mp hfield with ⟨e, he, rfl⟩
    exact ⟨hlabel, e, he, rfl⟩
  rw [← List.map_snd_zip (Nat.le_of_eq hnamed.length.symm)]
  exact List.forall₂_map_left_iff.mpr hcolumns

variable {scope} {xs : List Expression} {fields : List (String × Projected)}

theorem label_of_standsFor (h : List.Forall₂ (StandsFor scope) xs fields)
    (field : String × Projected) (hfield : field ∈ fields) :
    ∃ x ∈ xs, x.label? = some field.1 := by
  have hlabels : xs.map Expression.label? = fields.map fun field => some field.1 := by
    rw [← List.forall₂_eq_eq_eq, List.forall₂_map_left_iff, List.forall₂_map_right_iff]
    exact h.imp fun _ _ hstands => hstands.1
  rw [← List.mem_map, hlabels]
  exact List.mem_map.mpr ⟨field, hfield, rfl⟩

/-- The first column of a name has the first field of this name. -/
theorem lookup_of_find (h : List.Forall₂ (StandsFor scope) xs fields) (name : String)
    (x : Expression) (hx : xs.find? (fun y => y.label? == some name) = some x) :
    ∃ e, ofExpression scope x = .ok e ∧ fields.lookup name = some (.computed e) := by
  induction h with
  | nil => exact absurd hx (by rintro ⟨⟩)
  | @cons y field ys rest hfirst hrest ih =>
      rcases field with ⟨label, value⟩
      rcases hfirst with ⟨hlabel, e, he, rfl⟩
      rw [List.find?_cons, hlabel] at hx
      rw [lookup_cons_eq]
      by_cases hname : name = label
      · rw [hname, beq_self_eq_true] at hx
        rw [if_pos hname, ← Option.some.inj hx]
        exact ⟨e, he, rfl⟩
      · rw [beq_eq_false_iff_ne.mpr fun heq => hname (Option.some.inj heq).symm] at hx
        rw [if_neg hname]
        exact ih hx

variable (computed : List (String × Expr))

/-- A field to sort by is the last one of its name. -/
theorem lookup_hidden (hnames : (computed.map (·.1)).Nodup) (name : String) (e : Expr)
    (h : (name, e) ∈ computed) :
    (projectedFields fields computed).lookup name = some (.computed e) := by
  -- Looked at from the end, the fields to sort by come before the columns.
  have hnodup : ((projectStage.hidden computed).reverse.map (·.1)).Nodup := by
    rw [List.map_reverse, List.nodup_reverse, hidden_names]
    exact hnames
  have hmem : (name, Projected.computed e) ∈ (projectStage.hidden computed).reverse :=
    List.mem_reverse.mpr (List.mem_map.mpr ⟨(name, e), h, rfl⟩)
  rw [projectedFields, lookup_insertAll, List.reverse_append, List.lookup_append,
    lookup_eq_some_of_mem _ hnodup _ hmem, Option.some_or]

/-- The last column of a name is computed unless it has the name of a field to sort by. -/
theorem lookup_column {list : ExpressionList}
    (h : List.Forall₂ (StandsFor scope) list.effective fields) (name : String) (x : Expression)
    (hx : list.last? name = some x) : ∃ e, ofExpression scope x = .ok e ∧
      (name ∉ computed.map (·.1) →
        (projectedFields fields computed).lookup name = some (.computed e)) := by
  rcases lookup_of_find (List.forall₂_reverse_iff.mpr h) name x hx with ⟨e, he, hlookup⟩
  refine ⟨e, he, fun hname => ?_⟩
  have hnone : (projectStage.hidden computed).reverse.lookup name = none := by
    rw [List.lookup_eq_none_iff]
    intro field hfield
    refine bne_iff_ne.mpr fun heq => hname ?_
    rw [← hidden_names, heq]
    exact List.mem_map_of_mem (List.mem_reverse.mp hfield)
  rw [projectedFields, lookup_insertAll, List.reverse_append, List.lookup_append, hnone,
    Option.none_or, List.reverse_cons, List.lookup_append, hlookup, Option.some_or]

end Fields

/-- A pipeline with columns. Its projection computes the last column of every name, and under
    the name of its place every sort key, even where it is the name of a column. There is nothing
    else in it but the identity. -/
structure ComputesColumns (parts : QueryParts) (list : ExpressionList) (names : List String)
    (grouping : Option (Stage × GroupScope)) (before : List Stage)
    (fields : List (String × Projected)) (after : List Stage) (command : Command) : Prop where
  lists : parts.Lists list
  named : list.Named names
  grouped : ∃ projection, parts.projection = .ok projection ∧
    groupingOf parts projection = .ok grouping
  total : ∀ stage ∈ before, Server.Total stage
  stages : command = .aggregate (before ++ .project fields :: after)
  column : ∀ name ∈ names, ∃ x e, list.last? name = some x ∧
    ofExpression (scopeAfter grouping) x = .ok e ∧
    (name ∉ parts.sortNames → fields.lookup name = some (.computed e))
  sortKey : ∀ place key, parts.sorts[place]? = some (.simple key) →
    ∃ e, ofExpression (scopeAfter grouping) key.expression = .ok e ∧
      fields.lookup (sortName place) = some (.computed e)
  only : ∀ field ∈ fields, field.1 = "_id" ∨ field.1 ∈ names ∨ field.1 ∈ parts.sortNames
  nodup : (fields.map (·.1)).Nodup

/-- A row that is made of a document by such a pipeline. Under a name that is no path it has the
    value of the column that the name stands for, unless the column is taken for a flag or the
    name is that of a field to sort by. Such a field is gone. -/
structure Server.Shows (server : Server) (parts : QueryParts) (list : ExpressionList)
    (scope : Scope) (document row : Record) : Prop where
  column : ∀ name x e, list.last? name = some x → list.Flat name → name ∉ parts.sortNames →
    ofExpression scope x = .ok e → e.toJson.isFlag = false →
      List.lookup name row = server.value e document
  hidden : ∀ name ∈ parts.sortNames, List.lookup name row = none

section Rows

variable {parts : QueryParts} {list : ExpressionList} {names : List String}
  {grouping : Option (Stage × GroupScope)} {before after : List Stage}
  {fields : List (String × Projected)} {command : Command}

theorem ComputesColumns.computes
    (h : ComputesColumns parts list names grouping before fields after command) {name : String}
    {x : Expression} {e : Expr} (hx : list.last? name = some x) (hflat : list.Flat name)
    (hname : name ∉ parts.sortNames) (he : ofExpression (scopeAfter grouping) x = .ok e)
    (hvalue : e.toJson.isFlag = false) : Computes fields name e := by
  have hlisted := (h.named.mem_iff name).mpr ⟨x, ExpressionList.last?_label hx⟩
  have hlookup : fields.lookup name = some (.computed e) := by
    rcases h.column name hlisted with ⟨y, e', hy, he', hlookup⟩
    rw [Option.some.inj (hx.symm.trans hy), he'] at he
    rw [hlookup hname, Except.ok.inj he]
  constructor
  case mem => exact mem_of_lookup _ _ _ hlookup
  case plain => exact hflat.plain
  case value => exact hvalue
  case only =>
    intro field hfield hhead
    -- What begins with the name is under the name itself, be it the identity, a column or a
    -- field to sort by, and no two fields are under one name.
    have heq : field.1 = name := by
      rcases h.only field hfield with hidentity | hcolumn | hsort
      · rw [hidentity] at hhead ⊢
        exact Option.some.inj (head_identity.symm.trans hhead)
      · rcases (h.named.mem_iff field.1).mp hcolumn with ⟨y, hy, hlabel⟩
        exact hflat.alone y hy field.1 hlabel hhead
      · rcases List.mem_map.mp hsort with ⟨place, _, hplace⟩
        rw [← hplace, sortName_plain] at hhead
        rw [← hplace]
        exact Option.some.inj hhead
    have hfound := lookup_eq_some_of_mem _ h.nodup field hfield
    rw [heq] at hfound
    exact Prod.ext heq (Option.some.inj (hfound.symm.trans hlookup))

/-- A document that is projected and then left without the fields to sort by shows the columns. -/
theorem ComputesColumns.shows
    (h : ComputesColumns parts list names grouping before fields after command) (server : Server)
    (document : Record) : server.Shows parts list (scopeAfter grouping) document
      (without parts.sortNames (server.project fields document)) := by
  constructor
  case column =>
    intro name x e hx hflat hname he hvalue
    rw [lookup_without_of_not_mem _ _ _ hname]
    exact server.project_field fields document name e (h.computes hx hflat hname he hvalue)
  case hidden => exact fun name hname => lookup_without_of_mem _ _ _ hname

/-- What leaves a pipeline has been projected and is left without the fields to sort by. None of
    it is lost unless it is not on the page. -/
theorem run_sifting (server : Server) {scope : Scope} {sorts : SortStage}
    (hportable : parts.Portable) (hsorts : sortStage scope parts.sorts = .ok sorts)
    (columns : List (String × Expression)) (projected : List Record) : ∃ kept : List Record,
    server.run? (siftingStages parts (.items columns) sorts) projected =
      some (kept.map (without parts.sortNames)) ∧ (∀ a ∈ kept, a ∈ projected) ∧
    (parts.pagination = none → ∀ a ∈ projected, ∃ b ∈ kept, server.Same b a) := by
  have hfirst : ∃ first,
      server.run? (distinctStages parts.distinct (.items columns)) projected = some first ∧
      (∀ a ∈ first, a ∈ projected) ∧ ∀ a ∈ projected, ∃ b ∈ first, server.Same b a := by
    cases parts.distinct with
    | false => exact ⟨projected, rfl, fun _ ha => ha, fun a ha => ⟨a, ha, .refl a⟩⟩
    | true =>
        rcases server.run_distinct projected with ⟨first, hfirst, _, hsource, hcovers⟩
        exact ⟨first, hfirst, hsource, hcovers⟩
  rcases hfirst with ⟨first, hfirst, hsource, hcovers⟩
  rcases run_arranging server hportable hsorts first with ⟨cut, hcut, hsubperm, hwhole⟩
  refine ⟨cut, ?_, fun a ha => hsource a (hsubperm.subset ha), fun hpage a ha => ?_⟩
  · rw [siftingStages, List.append_assoc, List.append_assoc, server.run_append, hfirst,
      Option.bind_some, hcut]
  · rcases hcovers a ha with ⟨b, hb, hsame⟩
    exact ⟨b, (hwhole hpage).mem_iff.mpr hb, hsame⟩

end Rows

/-- The command of parts with columns is such a pipeline. -/
theorem command_computesColumns (schema : Schema) (root : String) (parts : QueryParts)
    (list : ExpressionList) (hportable : parts.Portable) (hlists : parts.Lists list)
    (compiled : Compiled) (h : compileParts schema root parts = .ok compiled) :
    ∃ grouping before fields after,
      ComputesColumns parts list compiled.columns grouping before fields after compiled.command ∧
      ∀ (server : Server) projected, ∃ kept : List Record,
        server.run? after projected = some (kept.map (without parts.sortNames)) ∧
        (∀ a ∈ kept, a ∈ projected) ∧
        (parts.pagination = none → ∀ a ∈ projected, ∃ b ∈ kept, server.Same b a) := by
  have hcolumns := compileParts_columns schema root parts list hlists compiled h
  rcases command_cases schema root parts hportable.customizers compiled h with
    ⟨filter, projection, _, hprojection, hcommand⟩
  rcases named_of_projection parts list hlists projection hprojection with ⟨names, hnamed, rfl⟩
  rcases hcommand with ⟨hentity, _⟩ | ⟨grouping, having, sorts, projected, hmade⟩
  · -- A query for columns is no find of whole records.
    exact absurd hentity (by rintro ⟨⟩)
  · rw [hcolumns.unique hnamed]
    rcases projectStage_inOrder _ sorts.computed list names hnamed projected hmade.projects with
      ⟨fields, hfields, rfl⟩
    have hnames := computed_names hportable hmade.sorted
    refine ⟨grouping, filter.toList.map .matching ++ ((grouping.toList.map fun group => group.1) ++
      having.toList.map .matching), projectedFields fields sorts.computed,
      siftingStages parts (.items (names.zip list.effective)) sorts, ?_,
      fun server => run_sifting server hportable hmade.sorted _⟩
    constructor
    case lists => exact hlists
    case named => exact hnamed
    case grouped => exact ⟨_, hprojection, hmade.grouped⟩
    case total => exact total_before hportable hprojection hmade
    case stages =>
      rw [hmade.stages, laterStages, siftingStages]
      simp only [List.append_assoc, List.cons_append, List.nil_append]
    case column =>
      intro name hname
      -- Of the columns with one name the last is computed, if no sort key has the name.
      rcases hnamed.last name hname with ⟨x, hx⟩
      rcases lookup_column sorts.computed hfields name x hx with ⟨e, he, hlookup⟩
      exact ⟨x, e, hx, he, fun hclear => hlookup (hnames ▸ hclear)⟩
    case sortKey =>
      intro place key hkey
      rcases sortStage_field _ parts.sorts hportable.sorts sorts hmade.sorted place key hkey with
        ⟨e, he, hmem⟩
      exact ⟨e, he, lookup_hidden sorts.computed (hnames ▸ sortNames_nodup _) _ e hmem⟩
    case only =>
      intro field hfield
      -- A field is the identity, which is omitted, a column or a field to sort by.
      rcases List.mem_append.mp (mem_insertAll _ field hfield) with hcolumn | hsort
      · rcases List.mem_cons.mp hcolumn with rfl | hcolumn
        · exact .inl rfl
        · have hlabel := label_of_standsFor hfields field hcolumn
          exact .inr (.inl ((hnamed.mem_iff field.1).mpr hlabel))
      · refine .inr (.inr ?_)
        rw [← hnames, ← hidden_names]
        exact List.mem_map_of_mem hsort
    case nodup => exact nodup_insertAll _

end Mongo

/-- Parts without native pieces return columns or whole records, and no columns are reported for
    those. -/
theorem Mongo.columns_eq_nil (schema : Schema) (root : String) (parts : QueryParts)
    (hportable : parts.Portable) (hlists : ∀ list, ¬ parts.Lists list) (compiled : Mongo.Compiled)
    (h : Mongo.compileParts schema root parts = .ok compiled) : compiled.columns = [] := by
  -- Without a list of columns, and without native ones, whole records are returned.
  have hentity : parts.projection = .ok .entity := by
    rw [QueryParts.projection]
    cases hselect : parts.select with
    | some columns =>
        cases columns with
        | items list => exact absurd (.inl hselect) (hlists list)
        | native piece => exact absurd (hportable.select _ hselect) (by rintro ⟨⟩)
    | none =>
        cases hgroup : parts.groupBy with
        | none => rfl
        | some keys =>
            cases keys with
            | items list => exact absurd (.inr ⟨hselect, hgroup⟩) (hlists list)
            | native piece => exact absurd (hportable.groupBy _ hgroup) (by rintro ⟨⟩)
  rcases bind_eq_ok.mp h with ⟨filter, _, h⟩
  rw [hentity, ok_bind, (projection_entity parts hportable hentity).2] at h
  dsimp only at h
  split at h <;>
    · rcases bind_eq_ok.mp h with ⟨command, _, h⟩
      rw [← Except.ok.inj h]

/-- What generated names do to the names of columns, for every query without native pieces,
    customizers and preprocessors. The select list of a statement has the names of the columns
    and after them those of hidden sort keys. A name is repeated in it if the columns repeat it,
    or if it is the name of a column and of a hidden sort key, and in no other case. The pipeline
    of a command computes the last column of every name unless a sort key has the name, and then
    it computes the sort key instead. Of the fields that leave the projection exactly those to
    sort by are removed. So a row has the value of each of its columns, but under the name of a
    sort key it has nothing. Without a page there is such a row for every document. -/
theorem generated_names (schema : Schema) (root : String) (q : AnyQuery) (hportable : q.Portable) :
    (∀ compiled,
      q.handle (Sql.compileQuery schema root) (Sql.compileAdvanced schema root) = .ok compiled →
        ∃ projection places, Sql.Aliased q.effective projection places compiled ∧
          (∀ name, List.Duplicate name compiled.statement.selectNames ↔
            List.Duplicate name compiled.columns ∨
              name ∈ compiled.columns ∧ ∃ place ∈ places, name = Sql.hiddenName place) ∧
          (List.Disjoint compiled.columns q.effective.sortNames → ∀ name,
            List.Duplicate name compiled.statement.selectNames ↔
              List.Duplicate name compiled.columns)) ∧
    ∀ compiled,
      q.handle (Mongo.compileQuery schema root) (Mongo.compileAdvanced schema root) =
        .ok compiled →
        compiled.columns = [] ∨ ∃ list grouping before fields after,
          Mongo.ComputesColumns q.effective list compiled.columns grouping before fields after
            compiled.command ∧
          ∀ (server : Mongo.Server) documents, ∃ met rows,
            server.run? before documents = some met ∧
            server.run? (before ++ .project fields :: after) documents = some rows ∧
            (∀ row ∈ rows, ∃ document ∈ met,
              row = Mongo.without q.effective.sortNames (server.project fields document) ∧
              server.Shows q.effective list (scopeAfter grouping) document row) ∧
            (q.effective.pagination = none → ∀ document ∈ met, ∃ row ∈ rows, server.Same row
              (Mongo.without q.effective.sortNames (server.project fields document))) := by
  have hparts := portable_effective q hportable
  have hplain : q.preprocessors = [] := by
    cases q with
    | plain q => exact hportable.preprocessors
    | advanced q => exact hportable.query.preprocessors
  constructor
  · intro compiled h
    have hcompiled := compiled_parts (Sql.compileParts schema root) q hplain compiled h
    rcases Sql.compileParts_aliased schema root q.effective hparts compiled hcompiled with
      ⟨projection, places, haliased⟩
    refine ⟨projection, places, haliased, haliased.duplicate_iff, fun hdisjoint name => ?_⟩
    -- A hidden item is named after the place of a sort key, so its name is among these names.
    rw [haliased.duplicate_iff, or_iff_left]
    rintro ⟨hcolumn, place, hplace, rfl⟩
    rcases (haliased.hidden place).mp hplace with ⟨_, key, hkey, _⟩
    have hlt := (List.getElem?_eq_some_iff.mp hkey).1
    exact hdisjoint hcolumn (List.mem_map.mpr ⟨place, List.mem_range.mpr hlt, rfl⟩)
  · intro compiled h
    have hcompiled := compiled_parts (Mongo.compileParts schema root) q hplain compiled h
    by_cases hlists : ∃ list, q.effective.Lists list
    · rcases hlists with ⟨list, hlists⟩
      rcases command_computesColumns schema root q.effective list hparts hlists compiled
        hcompiled with ⟨grouping, before, fields, after, hcomputes, hafter⟩
      refine .inr ⟨list, grouping, before, fields, after, hcomputes, fun server documents => ?_⟩
      rcases server.run_total hcomputes.total documents with ⟨met, hmet⟩
      rcases hafter server (met.map (server.project fields)) with ⟨kept, hkept, hsource, hcovers⟩
      refine ⟨met, kept.map (without q.effective.sortNames), hmet, ?_, fun row hrow => ?_,
        fun hpage document hdocument => ?_⟩
      · rw [server.run_append, hmet, Option.bind_some]
        exact hkept
      · rcases List.mem_map.mp hrow with ⟨projected, hprojected, rfl⟩
        rcases List.mem_map.mp (hsource projected hprojected) with ⟨document, hdocument, rfl⟩
        exact ⟨document, hdocument, rfl, hcomputes.shows server document⟩
      · rcases hcovers hpage _ (List.mem_map_of_mem hdocument) with ⟨projected, hprojected, hsame⟩
        exact ⟨_, List.mem_map_of_mem hprojected, same_without _ hsame⟩
    · exact .inl (Mongo.columns_eq_nil schema root q.effective hparts
        (fun list hlist => hlists ⟨list, hlist⟩) compiled hcompiled)

/-- The names of people under the name of the first sort key, sorted by height. -/
def sampleCaptured : Query where
  select := some (.items ⟨[], [.property "name" (some "__sort_0")]⟩)
  distinct := true
  sorts := [.simple ⟨.property "height" none, .ascending⟩]

/-- The statement has the name twice, and the rows of the pipeline do not have it. -/
theorem generated_names_sample :
    (AnyQuery.plain sampleCaptured).Portable ∧
    (∃ compiled, Sql.compileQuery .default "Person" sampleCaptured = .ok compiled ∧
      compiled.columns = ["__sort_0"] ∧
      List.Duplicate "__sort_0" compiled.statement.selectNames) ∧
    ∃ compiled stages rows, Mongo.compileQuery .default "Person" sampleCaptured = .ok compiled ∧
      compiled.columns = ["__sort_0"] ∧ compiled.command = .aggregate stages ∧
      sampleServer.run? stages samplePeople = some rows ∧
      ∀ row ∈ rows, List.lookup "__sort_0" row = none := by
  have hportable : (AnyQuery.plain sampleCaptured).Portable :=
    ⟨by rintro c ⟨⟩, by decide, by rintro columns ⟨⟩; rfl, rfl, rfl⟩
  have h := generated_names .default "Person" (.plain sampleCaptured) hportable
  refine ⟨hportable, ⟨_, rfl, rfl, ?_⟩, ?_⟩
  · rcases h.1 _ rfl with ⟨projection, places, haliased, hduplicate, _⟩
    have hprojection := Except.ok.inj haliased.projected
    refine (hduplicate _).mpr (.inr ⟨List.mem_cons_self, 0, (haliased.hidden 0).mpr ?_, rfl⟩)
    exact ⟨rfl, _, rfl, hprojection ▸ rfl⟩
  · rcases h.2 _ rfl with hnone | ⟨list, grouping, before, fields, after, hcomputes, hrun⟩
    · exact absurd hnone (List.cons_ne_nil _ _)
    · rcases hrun sampleServer samplePeople with ⟨met, rows, _, hrows, hshows, _⟩
      refine ⟨_, _, rows, rfl, rfl, hcomputes.stages, hrows, fun row hrow => ?_⟩
      rcases hshows row hrow with ⟨document, _, _, hshown⟩
      exact hshown.hidden _ List.mem_cons_self

end Polyquery
