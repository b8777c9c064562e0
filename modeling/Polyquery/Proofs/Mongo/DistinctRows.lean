import Mathlib.Data.List.Pairwise
import Polyquery.Proofs.Backend.Columns
import Polyquery.Proofs.Mongo.Groups
import Polyquery.Proofs.Mongo.Run

/-!
# Distinct Rows

A pipeline that drops equal rows groups whole documents, and at that point a document
still has the fields that it is going to be sorted by. They are removed after the
sorting, when nobody looks for equal rows any more. So what is distinct is a row
together with its sort keys.

Rows come out distinct exactly when no two documents that leave the projection differ
in their sort keys alone (`Server.ToldApart`). Without sort keys that is always so, and
it is so when every sort key is a column as well, since two rows that are the same then
have the same sort keys.

## Main definitions

* `QueryParts.sortNames`: The fields that are sorted by.
* `ExpressionList.Carries`, `QueryParts.SortsByColumns`: Sort keys that are columns.
* `Server.ToldApart`: Documents that do not differ in some fields alone.
* `Server.Sifted`: What becomes of the projected documents.

## Theorems

* `projectStage_columns`: The fields of a projection.
* `project_hidden`, `without_hidden`: The fields to sort by in a document.
* `toldApart_of_carried`: Sort keys that are columns.
* `run_later`: What becomes of the projected documents.
* `distinct_up_to_sortKeys`: The rows that leave a pipeline.
-/

namespace Polyquery

open Mongo Mongo.Server

/-- The fields that the sort keys are computed into. -/
def QueryParts.sortNames (parts : QueryParts) : List String :=
  (List.range parts.sorts.length).map sortName

/-- An expression is a column, under a plain name that nothing else is put under. It is compiled
    to a value that is not taken for a flag. -/
structure ExpressionList.Carries (list : ExpressionList) (name : String) (key : Expression) :
    Prop where
  column : ∃ x ∈ list.effective, x.label? = some name
  plain : Text.dotted name = [name]
  alone : ∀ x ∈ list.effective, ∀ label, x.label? = some label →
    (Text.dotted label).head? = some name →
      label = name ∧ ∀ scope, ofExpression scope x = ofExpression scope key
  value : ∀ scope e, ofExpression scope key = .ok e → e.toJson.isFlag = false

/-- Every sort key is a column, and no column has the name of a field that is sorted by. -/
structure QueryParts.SortsByColumns (parts : QueryParts) (list : ExpressionList) : Prop where
  carried : ∀ key, .simple key ∈ parts.sorts → ∃ name, list.Carries name key.expression
  clear : ∀ x ∈ list.effective, ∀ label, x.label? = some label →
    ∀ name ∈ parts.sortNames, (Text.dotted label).head? ≠ some name

namespace Mongo

section Names

theorem sortName_plain (index : Nat) : Text.dotted (sortName index) = [sortName index] := by
  apply Text.dotted_whole
  intro hpoint
  rw [sortName, String.toList_append, List.mem_append] at hpoint
  rcases hpoint with hprefix | hnumber
  · exact absurd hprefix (by decide)
  · rw [show (toString index).toList = Nat.toDigits 10 index from Nat.toList_repr] at hnumber
    exact absurd (Nat.isDigit_of_mem_toDigits (by decide) (by decide) hnumber) (by decide)

theorem sortName_ne_identity (index : Nat) : sortName index ≠ "_id" := by
  intro h
  have hsecond := congrArg (fun s => s.toList[1]?) h
  simp only [sortName, String.toList_append] at hsecond
  exact absurd (Option.some.inj hsecond) (by decide)

theorem sortNames_nodup (n : Nat) : ((List.range n).map sortName).Nodup :=
  List.Pairwise.map sortName (fun i j hne heq =>
    hne (Text.numbered_injective "__sort_" i j heq)) List.nodup_range

end Names

section Fields

variable (scope : Scope) (computed : List (String × Expr)) (list : ExpressionList)

/-- The fields of a projection that stand for the columns of a list. -/
structure ColumnFields (fields : List (String × Projected)) : Prop where
  labels : list.effective.map Expression.label? = fields.map fun field => some field.1
  each : ∀ field ∈ fields, ∃ x ∈ list.effective, x.label? = some field.1 ∧
    ∃ e, ofExpression scope x = .ok e ∧ field.2 = .computed e

/-- The columns in a projection, with the identity, which is left out unless a column has its
    name. -/
def visibleFields (fields : List (String × Projected)) : List (String × Projected) :=
  insertAll (("_id", .omitted) :: fields)

/-- A projection computes the columns and the fields to sort by. -/
theorem projectStage_columns (names : List String) (hnamed : list.Named names)
    (stages : List Stage)
    (h : projectStage scope computed (.items (names.zip list.effective)) = .ok stages) :
    ∃ fields, ColumnFields scope list fields ∧
      stages = [.project (extend (visibleFields fields) (projectStage.hidden computed))] := by
  rcases bind_eq_ok.mp h with ⟨fields, hfields, h⟩
  -- The names of the columns are the names of the fields, one by one.
  have hfirst : (names.zip list.effective).map (·.1) = fields.map (·.1) := by
    refine map_of_mapM ?_ hfields
    rintro ⟨name, x⟩ field hfield
    rcases map_eq_ok.mp hfield with ⟨e, _, rfl⟩
    rfl
  refine ⟨fields, ⟨?_, fun field hfield => ?_⟩, (Except.ok.inj h).symm⟩
  · rw [List.map_fst_zip (Nat.le_of_eq hnamed.length)] at hfirst
    rw [hnamed, hfirst, List.map_map]
    rfl
  · rcases exists_of_mapM hfields field hfield with ⟨⟨name, x⟩, hcolumn, hx⟩
    rcases map_eq_ok.mp hx with ⟨e, he, rfl⟩
    exact ⟨x, (List.of_mem_zip hcolumn).2, hnamed.label hcolumn, e, he, rfl⟩

variable {scope list} {fields : List (String × Projected)}

theorem mem_visibleFields (field : String × Projected) (h : field ∈ visibleFields fields) :
    field = ("_id", .omitted) ∨ field ∈ fields :=
  List.mem_cons.mp (mem_insertAll _ field h)

theorem head_identity : (Text.dotted "_id").head? = some "_id" := by
  decide

/-- A column that carries an expression is computed by the projection. -/
theorem ColumnFields.computes (h : ColumnFields scope list fields) {name : String}
    {key : Expression} {e : Expr} (hcarries : list.Carries name key)
    (hkey : ofExpression scope key = .ok e) : Computes (visibleFields fields) name e := by
  -- Of the columns with this name the last counts, but all of them hold the same value.
  have hlookup : (visibleFields fields).lookup name = some (.computed e) := by
    rcases hcarries.column with ⟨x, hx, hlabel⟩
    have hmem : some name ∈ fields.map fun field => some field.1 :=
      h.labels ▸ List.mem_map.mpr ⟨x, hx, hlabel⟩
    rcases List.mem_map.mp hmem with ⟨field, hfield, hname⟩
    have hsome : fields.reverse.lookup name ≠ none := by
      rw [Ne, List.lookup_eq_none_iff]
      exact fun h =>
        bne_iff_ne.mp (h field (List.mem_reverse.mpr hfield)) (Option.some.inj hname).symm
    rcases Option.ne_none_iff_exists'.mp hsome with ⟨value, hvalue⟩
    rcases h.each _ (List.mem_reverse.mp (mem_of_lookup _ _ _ hvalue)) with
      ⟨y, hy, hylabel, e', he', rfl⟩
    -- Whatever column it is, it is the expression that the name carries.
    have halone := (hcarries.alone y hy name hylabel (by rw [hcarries.plain]; rfl)).2 scope
    rw [halone, hkey] at he'
    rw [visibleFields, lookup_insertAll, List.reverse_cons, List.lookup_append, hvalue,
      Option.some_or, Except.ok.inj he']
  constructor
  case mem => exact mem_of_lookup _ _ _ hlookup
  case plain => exact hcarries.plain
  case value => exact hcarries.value scope e hkey
  case only =>
    -- A field that begins with the name is the column itself, and not a part of another.
    intro field hfield hhead
    have hname : field.1 = name := by
      rcases mem_visibleFields field hfield with rfl | hcolumn
      · exact Option.some.inj (head_identity.symm.trans hhead)
      · rcases h.each field hcolumn with ⟨y, hy, hylabel, _⟩
        exact (hcarries.alone y hy field.1 hylabel hhead).1
    have hvalue := lookup_eq_some_of_mem _ (nodup_insertAll _) field hfield
    rw [hname] at hvalue
    exact Prod.ext hname (Option.some.inj (hvalue.symm.trans hlookup))

end Fields

section Hiding

variable (server : Server) (computed : List (String × Expr)) {fields : List (String × Projected)}

/-- Fields that come after others in a projection, under names of their own. -/
structure Hidden (fields : List (String × Projected)) (computed : List (String × Expr)) : Prop where
  names : (computed.map (·.1)).Nodup
  plain : ∀ field ∈ computed, Text.dotted field.1 = [field.1]
  value : ∀ field ∈ computed, field.2.toJson.isFlag = false
  fresh : ∀ field ∈ fields, ∀ name ∈ computed.map (·.1), (Text.dotted field.1).head? ≠ some name

theorem Hidden.extend (h : Hidden fields computed) :
    extend fields (projectStage.hidden computed) = fields ++ projectStage.hidden computed := by
  refine extend_fresh _ _ (hidden_names computed ▸ h.names) fun pair hpair hmem => ?_
  have hname : pair.1 ∈ computed.map (·.1) :=
    hidden_names computed ▸ List.mem_map.mpr ⟨pair, hpair, rfl⟩
  rcases List.mem_map.mp hname with ⟨field, hfield, heq⟩
  rcases List.mem_map.mp hmem with ⟨other, hother, hsame⟩
  -- A field of this name would begin with it, which none of the columns does.
  refine h.fresh other hother pair.1 hname ?_
  rw [hsame, ← heq, h.plain field hfield]
  rfl

/-- The fields to sort by come after the columns in a document. -/
theorem project_hidden {other : String} {x : Expr} (hother : Computes fields other x)
    (h : Hidden fields computed) (document : Record) :
    server.project (fields ++ projectStage.hidden computed) document =
      server.project fields document ++ server.members computed document := by
  induction computed generalizing fields with
  | nil =>
      change server.project (fields ++ []) document = server.project fields document ++ []
      rw [List.append_nil, List.append_nil]
  | cons field rest ih =>
      rcases field with ⟨name, e⟩
      have hplain := h.plain (name, e) List.mem_cons_self
      have hvalue := h.value (name, e) List.mem_cons_self
      have hnames := List.nodup_cons.mp h.names
      have hlast : (Text.dotted name).head? = some name := by rw [hplain]; rfl
      have hfresh := fun f hf => h.fresh f hf name List.mem_cons_self
      -- The first of them joins the fields before the others.
      have hnext : Computes (fields ++ [(name, .computed e)]) other x := by
        refine ⟨List.mem_append_left _ hother.mem, hother.plain, hother.value, fun f hf hhead => ?_⟩
        rcases List.mem_append.mp hf with hf | hf
        · exact hother.only f hf hhead
        · rw [List.mem_singleton.mp hf, hlast] at hhead
          refine absurd ?_ (hfresh _ hother.mem)
          rw [hother.plain]
          exact hhead.symm
      -- The others still come under names of their own, also beside this one.
      have hrest : Hidden (fields ++ [(name, .computed e)]) rest := by
        refine ⟨hnames.2, fun f hf => h.plain f (List.mem_cons_of_mem _ hf),
          fun f hf => h.value f (List.mem_cons_of_mem _ hf), fun f hf other hother => ?_⟩
        rcases List.mem_append.mp hf with hf | hf
        · exact h.fresh f hf other (List.mem_cons_of_mem _ hother)
        · rw [List.mem_singleton.mp hf, hlast]
          exact fun heq => hnames.1 (Option.some.inj heq ▸ hother)
      have happend : fields ++ projectStage.hidden ((name, e) :: rest) =
          (fields ++ [(name, .computed e)]) ++ projectStage.hidden rest := by
        rw [List.append_assoc]
        rfl
      rw [happend, ih hnext hrest,
        server.project_last fields document other x name e hother hplain hvalue hfresh,
        List.append_assoc]
      unfold Server.members
      rw [List.filterMap_cons]
      cases server.value e document <;> rfl

/-- Without the fields to sort by there are the columns. -/
theorem without_hidden {other : String} {x : Expr} (hother : Computes fields other x)
    (h : Hidden fields computed) (hidentity : "_id" ∉ computed.map (·.1)) (document : Record) :
    without (computed.map (·.1))
        (server.project (fields ++ projectStage.hidden computed) document) =
      server.project fields document := by
  -- What the columns give is not under the name of a sort key, so it stays.
  have hvisible : without (computed.map (·.1)) (server.project fields document) =
      server.project fields document := by
    refine List.filter_eq_self.mpr fun member hmember => ?_
    rw [List.contains_eq_mem, Bool.not_eq_true', decide_eq_false_iff_not]
    intro hname
    rcases server.project_only fields document other x hother member hmember with hid | hfield
    · exact hidentity (hid ▸ hname)
    · rcases hfield with ⟨field, hfield, hhead⟩
      exact h.fresh field hfield member.1 hname hhead
  -- What the fields to sort by give is under their names, so nothing of it stays.
  have hgone : without (computed.map (·.1)) (server.members computed document) = [] := by
    refine List.filter_eq_nil_iff.mpr fun member hmember => ?_
    rcases List.mem_filterMap.mp hmember with ⟨field, hfield, hvalue⟩
    rcases Option.map_eq_some_iff.mp hvalue with ⟨v, _, rfl⟩
    rw [List.contains_eq_mem, decide_eq_true (List.mem_map.mpr ⟨field, hfield, rfl⟩)]
    exact Bool.false_ne_true
  rw [project_hidden server computed hother h document]
  exact (List.filter_append _ _).trans (by
    rw [show List.filter _ (server.project fields document) = _ from hvisible,
      show List.filter _ (server.members computed document) = _ from hgone, List.append_nil])

end Hiding

section Sifting

variable (server : Server)

/-- No two of the documents differ in some of their members alone. -/
def Server.ToldApart (names : List String) (documents : List Record) : Prop :=
  ∀ a ∈ documents, ∀ b ∈ documents,
    server.Same (without names a) (without names b) → server.Same a b

/-- What becomes of projected documents. Those that are kept are distinct and leave the pipeline
    without their sort keys, and none is lost unless it is not on the page. -/
structure Server.Sifted (parts : QueryParts) (projected kept rows : List Record) : Prop where
  distinct : server.Distinct kept
  source : ∀ a ∈ kept, a ∈ projected
  covers : parts.pagination = none → ∀ a ∈ projected, ∃ b ∈ kept, server.Same b a
  rows : rows = kept.map (without parts.sortNames)

variable {server} {parts : QueryParts} {projected kept rows : List Record}

theorem Server.Sifted.distinct_of_toldApart (h : server.Sifted parts projected kept rows)
    (htold : server.ToldApart parts.sortNames projected) : server.Distinct rows := by
  rw [h.rows]
  refine List.pairwise_map.mpr (h.distinct.imp_of_mem fun ha hb hne hsame => hne ?_)
  exact htold _ (h.source _ ha) _ (h.source _ hb) hsame

/-- Without a page there are no other distinct rows. -/
theorem Server.Sifted.distinct_iff (h : server.Sifted parts projected kept rows)
    (hpage : parts.pagination = none) :
    server.Distinct rows ↔ server.ToldApart parts.sortNames projected := by
  refine ⟨fun hdistinct a ha b hb hsame => ?_, h.distinct_of_toldApart⟩
  rcases h.covers hpage a ha with ⟨a', ha', haa⟩
  rcases h.covers hpage b hb with ⟨b', hb', hbb⟩
  have hrows : server.Same (without parts.sortNames a') (without parts.sortNames b') :=
    ((same_without _ haa).trans hsame).trans (same_without _ hbb).symm
  -- Two documents that were kept have the same row only if they are one document.
  by_cases heq : a' = b'
  · rw [← heq] at hbb
    exact haa.symm.trans hbb
  · rw [h.rows] at hdistinct
    have hsymm : Std.Symm fun a b =>
        ¬ server.Same (without parts.sortNames a) (without parts.sortNames b) :=
      ⟨fun _ _ hab hba => hab hba.symm⟩
    exact absurd hrows ((List.pairwise_map.mp hdistinct).forall ha' hb' heq)

end Sifting

/-- The stages that come after the projection. -/
def siftingStages (parts : QueryParts) (projection : Projection) (sorts : SortStage) : List Stage :=
  distinctStages parts.distinct projection ++
    (if sorts.sort.isEmpty then [] else [.sort sorts.sort]) ++ pageStages parts.pagination ++
    (if sorts.computed.isEmpty then [] else [.unset (sorts.computed.map (·.1))])

section Pipelines

variable (server : Server) {parts : QueryParts} {list : ExpressionList} {scope : Scope}
  {sorts : SortStage} (hportable : parts.Portable)
  (hsorts : sortStage scope parts.sorts = .ok sorts)

include hportable hsorts

theorem computed_names : sorts.computed.map (·.1) = parts.sortNames :=
  sortStage_names scope parts.sorts hportable.sorts sorts hsorts

/-- Documents that are sorted and cut to a page lose the fields that they are sorted by. -/
theorem run_arranging (documents : List Record) : ∃ cut : List Record,
    server.run? ((if sorts.sort.isEmpty then [] else [.sort sorts.sort]) ++
        (pageStages parts.pagination ++
          (if sorts.computed.isEmpty then [] else [.unset (sorts.computed.map (·.1))]))) documents =
      some (cut.map (without parts.sortNames)) ∧
    cut.Subperm documents ∧ (parts.pagination = none → cut.Perm documents) := by
  -- Sorting permutes the documents, and a page is a part of what was sorted.
  rcases server.run_sorting sorts.sort documents with ⟨sorted, hsorted, hperm⟩
  rcases server.run_page parts.pagination sorted with ⟨cut, hcut, hsublist, hwhole⟩
  refine ⟨cut, ?_, hsublist.subperm.trans hperm.subperm, fun hpage => hwhole hpage ▸ hperm⟩
  rw [server.run_append, hsorted, Option.bind_some, server.run_append, hcut, Option.bind_some,
    server.run_unset, computed_names hportable hsorts]

/-- What becomes of the documents that leave a projection. -/
theorem run_later (hdistinct : parts.distinct = true) (columns : List (String × Expression))
    (projected : List Record) : ∃ kept rows,
    server.run? (siftingStages parts (.items columns) sorts) projected = some rows ∧
      server.Sifted parts projected kept rows := by
  -- The deduplication comes first, so it still sees the fields to sort by.
  rcases server.run_distinct projected with ⟨first, hfirst, hapart, hsource, hcovers⟩
  rcases run_arranging server hportable hsorts first with ⟨cut, hcut, hsubperm, hwhole⟩
  refine ⟨cut, cut.map (without parts.sortNames), ?_, ?_⟩
  · have hstages : distinctStages parts.distinct (.items columns) =
        [.group .wholeDocument [], .replaceByKey] := by
      rw [hdistinct]
      rfl
    rw [siftingStages, hstages, List.append_assoc, List.append_assoc, server.run_append, hfirst,
      Option.bind_some, hcut]
  · constructor
    case distinct => exact hapart.subperm hsubperm
    case source => exact fun a ha => hsource a (hsubperm.subset ha)
    case covers =>
      -- Only a page can lose one of the documents that were kept.
      intro hpage a ha
      rcases hcovers a ha with ⟨b, hb, hsame⟩
      exact ⟨b, (hwhole hpage).mem_iff.mpr hb, hsame⟩
    case rows => rfl

/-- Sort keys that are columns tell no documents apart that the columns do not. -/
theorem toldApart_of_carried {fields : List (String × Projected)}
    (hcolumns : ColumnFields scope list fields) (h : parts.SortsByColumns list)
    (documents : List Record) :
    server.ToldApart parts.sortNames (documents.map (server.project
      (extend (visibleFields fields) (projectStage.hidden sorts.computed)))) := by
  have hnames := computed_names hportable hsorts
  have hcomputed (field : String × Expr) (hfield : field ∈ sorts.computed) :
      field.1 ∈ parts.sortNames := hnames ▸ List.mem_map.mpr ⟨field, hfield, rfl⟩
  -- Each field to sort by holds the value of a column that is visible as well.
  have hcarried : ∀ field ∈ sorts.computed, ∃ name, Computes (visibleFields fields) name field.2 ∧
      field.2.toJson.isFlag = false := by
    intro field hfield
    rcases sortStage_computed scope parts.sorts sorts hsorts field hfield with
      ⟨_, key, hkey, _, he⟩
    rcases h.carried key (List.mem_of_getElem? hkey) with ⟨name, hcarries⟩
    exact ⟨name, hcolumns.computes hcarries he, hcarries.value scope _ he⟩
  -- The fields to sort by are under names that no column begins with.
  have hhidden : Hidden (visibleFields fields) sorts.computed := by
    constructor
    case names =>
      rw [hnames]
      exact sortNames_nodup _
    case plain =>
      intro field hfield
      rcases List.mem_map.mp (hcomputed field hfield) with ⟨i, _, hi⟩
      rw [← hi]
      exact sortName_plain i
    case value => exact fun field hfield => (hcarried field hfield).elim fun _ h => h.2
    case fresh =>
      intro field hfield name hname
      rw [hnames] at hname
      rcases mem_visibleFields field hfield with rfl | hcolumn
      · rcases List.mem_map.mp hname with ⟨i, _, rfl⟩
        rw [head_identity]
        exact fun heq => sortName_ne_identity i (Option.some.inj heq).symm
      · rcases hcolumns.each field hcolumn with ⟨x, hx, hlabel, _⟩
        exact h.clear x hx field.1 hlabel name hname
  -- Without fields to sort by nothing is taken away from the documents.
  cases hempty : sorts.computed with
  | nil =>
      rw [hempty] at hnames
      rw [← hnames]
      intro a _ b _ hsame
      rwa [List.map_nil, without_nil, without_nil] at hsame
  | cons first rest =>
      rw [← hempty]
      rcases hcarried first (hempty ▸ List.mem_cons_self) with ⟨other, hother, _⟩
      have hidentity : "_id" ∉ sorts.computed.map (·.1) := by
        rw [hnames]
        intro hmem
        rcases List.mem_map.mp hmem with ⟨i, _, hi⟩
        exact sortName_ne_identity i hi
      -- Two documents with the same columns: each field to sort by has the value of a column.
      intro a ha b hb hsame
      rcases List.mem_map.mp ha with ⟨d, _, rfl⟩
      rcases List.mem_map.mp hb with ⟨d', _, rfl⟩
      rw [hhidden.extend, ← hnames] at hsame
      rw [without_hidden server _ hother hhidden hidentity,
        without_hidden server _ hother hhidden hidentity] at hsame
      rw [hhidden.extend, project_hidden server _ hother hhidden,
        project_hidden server _ hother hhidden]
      refine hsame.append (same_members _ fun field hfield => ?_)
      rcases hcarried field hfield with ⟨name, hcomputes, _⟩
      have hvalues := same_lookup name hsame
      rwa [server.project_field _ _ _ _ hcomputes, server.project_field _ _ _ _ hcomputes]
        at hvalues

end Pipelines

/-- The stages in front of the projection. -/
theorem total_before {maxDepth : Nat} {parts : QueryParts} {projection : Projection}
    {filter having : Option Filter} {grouping : Option (Stage × GroupScope)} {sorts : SortStage}
    {projected : List Stage} {command : Command} (hportable : parts.Portable)
    (hprojection : parts.projection = .ok projection)
    (h : MadeOf maxDepth parts projection filter grouping having sorts projected command) :
    ∀ stage ∈ filter.toList.map .matching ++ ((grouping.toList.map fun group => group.1) ++
      having.toList.map .matching), Server.Total stage := by
  -- Matching keeps a part of the documents and cannot fail.
  have hmatching (f : Option Filter) :
      ∀ stage ∈ f.toList.map Stage.matching, Server.Total stage := by
    intro stage hstage
    rcases List.mem_map.mp hstage with ⟨filter, _, rfl⟩
    exact .matching filter
  -- A grouping of portable parts has keys that are fields or null, so it cannot fail.
  have hgrouping : ∀ stage ∈ grouping.toList.map fun group => group.1, Server.Total stage := by
    intro stage hstage
    rcases List.mem_map.mp hstage with ⟨⟨stage, group⟩, hgroup, rfl⟩
    have hgrouped := h.grouped
    rw [Option.mem_toList.mp hgroup] at hgrouped
    rcases groupStage_grouped parts hportable projection hprojection stage group
      (groupStage_of_groupingOf parts projection stage group hgrouped) with
      ⟨keys, values, known, hkeys⟩
    rw [hkeys.groups]
    refine .group _ _ fun value => ?_
    split <;> rintro ⟨⟩
  simp only [List.forall_mem_append]
  exact ⟨hmatching filter, hgrouping, hmatching having⟩

/-- What leaves the pipeline of a query for distinct columns. The rows are distinct as long as
    they have their sort keys, which are removed in the end. So they are distinct if no two
    documents that leave the projection differ in their sort keys alone, and without a page in
    no other case. This is so if every sort key is a column, and if there is none. -/
theorem distinct_up_to_sortKeys (schema : Schema) (root : String) (q : AnyQuery)
    (list : ExpressionList) (hportable : q.Portable) (hdistinct : q.effective.distinct = true)
    (hlists : q.effective.Lists list) (compiled : Compiled)
    (h : q.handle (compileQuery schema root) (compileAdvanced schema root) = .ok compiled) :
    ∃ before fields after, compiled.command = .aggregate (before ++ .project fields :: after) ∧
      (∀ stage ∈ before, Server.Total stage) ∧
      ∀ (server : Server) documents, ∃ met kept rows,
        server.run? before documents = some met ∧
        server.run? (before ++ .project fields :: after) documents = some rows ∧
        server.Sifted q.effective (met.map (server.project fields)) kept rows ∧
        (server.ToldApart q.effective.sortNames (met.map (server.project fields)) →
          server.Distinct rows) ∧
        (q.effective.pagination = none → (server.Distinct rows ↔
          server.ToldApart q.effective.sortNames (met.map (server.project fields)))) ∧
        (q.effective.SortsByColumns list → server.Distinct rows) := by
  have hparts := portable_effective q hportable
  have hcompiled : compileParts schema root q.effective = .ok compiled :=
    (handle_prepared (compileParts schema root) q hportable
      (prepares_of_compiles (compileParts schema root) q compiled h)).symm.trans h
  rcases command_cases schema root q.effective hparts.customizers compiled hcompiled with
    ⟨filter, projection, _, hprojection, hcommand⟩
  rcases named_of_projection q.effective list hlists projection hprojection with
    ⟨names, hnamed, rfl⟩
  -- A query for columns is no find of whole records.
  rcases hcommand with ⟨hentity, _⟩ | ⟨grouping, having, sorts, projected, hmade⟩
  · exact absurd hentity (by rintro ⟨⟩)
  · rcases projectStage_columns _ sorts.computed list names hnamed projected hmade.projects with
      ⟨fields, hcolumns, rfl⟩
    have hbefore := total_before hparts hprojection hmade
    refine ⟨_, extend (visibleFields fields) (projectStage.hidden sorts.computed),
      siftingStages q.effective (.items (names.zip list.effective)) sorts, ?_, hbefore,
      fun server documents => ?_⟩
    · rw [hmade.stages, laterStages, siftingStages]
      simp only [List.append_assoc, List.cons_append, List.nil_append]
    · rcases server.run_total hbefore documents with ⟨met, hmet⟩
      rcases run_later server hparts hmade.sorted hdistinct (names.zip list.effective)
        (met.map (server.project _)) with ⟨kept, rows, hrows, hsifted⟩
      refine ⟨met, kept, rows, hmet, ?_, hsifted, hsifted.distinct_of_toldApart,
        hsifted.distinct_iff, fun hsorts => hsifted.distinct_of_toldApart ?_⟩
      · rw [server.run_append, hmet, Option.bind_some]
        exact hrows
      · exact toldApart_of_carried server hparts hmade.sorted hcolumns hsorts met

/-- The categories of people, sorted by their height. -/
def sampleHeights : Query where
  select := some (.items ⟨["category"], []⟩)
  distinct := true
  sorts := [.simple ⟨.property "height" none, .ascending⟩]

/-- Two people of one category. -/
def samplePeople : List Record :=
  [[("category", .string "jedi"), ("height", .ofInt 66)],
    [("category", .string "jedi"), ("height", .ofInt 172)]]

/-- A server that reads fields. -/
noncomputable def sampleServer : Server :=
  .flat (fun e document => match e with
    | .field path => List.lookup path document
    | _ => none) (fun _ group => .ofNat group.length) (fun _ _ => true)

/-- People of one category who differ in height make rows that are not distinct. -/
theorem distinct_up_to_sortKeys_sample :
    (AnyQuery.plain sampleHeights).Portable ∧
    ∃ compiled stages rows, compileQuery .default "Person" sampleHeights = .ok compiled ∧
      compiled.command = .aggregate stages ∧
      sampleServer.run? stages samplePeople = some rows ∧ ¬ sampleServer.Distinct rows := by
  have hportable : (AnyQuery.plain sampleHeights).Portable :=
    ⟨by rintro c ⟨⟩, by decide, by rintro columns ⟨⟩; rfl, rfl, rfl⟩
  rcases distinct_up_to_sortKeys .default "Person" (.plain sampleHeights) ⟨["category"], []⟩
    hportable rfl (.inl rfl) _ rfl with ⟨before, fields, after, hcommand, hbefore, hrun⟩
  rcases hrun sampleServer samplePeople with ⟨met, kept, rows, hmet, hrows, _, _, hiff, _⟩
  refine ⟨hportable, _, _, rows, rfl, hcommand, hrows, fun hdistinct => ?_⟩
  cases before with
  | cons stage rest =>
      -- The pipeline begins with the projection.
      have hstage := (List.cons.inj (Command.aggregate.inj hcommand)).1
      have htotal := hbefore stage List.mem_cons_self
      rw [← hstage] at htotal
      exact absurd htotal (by rintro ⟨⟩)
  | nil =>
      have hfields := Stage.project.inj (List.cons.inj (Command.aggregate.inj hcommand)).1
      have htold := (hiff rfl).mp hdistinct
      rw [← Option.some.inj hmet, ← hfields] at htold
      have hsame := Json.object.inj (htold _ List.mem_cons_self _
        (List.mem_cons_of_mem _ List.mem_cons_self) rfl)
      have hheight := congrArg (fun document => List.lookup "__sort_0" document) hsame
      exact absurd hheight (by rintro ⟨⟩)

end Mongo

end Polyquery
