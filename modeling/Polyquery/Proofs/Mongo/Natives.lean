import Polyquery.Proofs.Condition.Rendering
import Polyquery.Proofs.Mongo.Stages
import Polyquery.Proofs.Query.Customizers
import Polyquery.Proofs.Query.Natives

/-!
# Native Pieces in Mongo

A native piece of Mongo is a document in JSON, and it comes out of a query as it went
in. What becomes of it depends on the command. A native condition stands in the filter
of a find, or in a stage before or after the grouping of a pipeline, where the condition
has it. A native sort adds its members to the sort document, in which a later key under
the same name takes the place of an earlier one (`LastOf`). A native select is the
projection, apart from the fields that are computed to sort by, and a native group-by
is the identity of the groups.

A find has no stages to filter groups with, and none to project or to group. It has to
be seen that a query with such a piece never becomes one.

## Main definitions

* `Mongo.accepts`, `Mongo.Resolves`: The payloads that are translated at a place.
* `Mongo.rawFilter`: A native condition in a command.
* `Mongo.Joined`: A filter in a larger one.
* `Mongo.Command.TestsBy`: A command with a filter before and one after its grouping.
* `Mongo.Command.sortDocument`, `Mongo.LastOf`: The keys that a command sorts by.
* `Mongo.Carries`: A command with everything native in its place.

## Theorems

* `Mongo.natives_iff`, `Mongo.accepts_iff`: The payloads in the tables.
* `Mongo.renders`, `Mongo.gathers`: Native pieces in filters.
* `Mongo.findSort_walk`, `Mongo.sortStage_walk`: The sort documents.
* `Mongo.Carries.translated`: What a command carries is translated.
* `Mongo.MadeOf.carries`, `Mongo.compileParts_carries`: The command of a query.
-/

namespace Polyquery.Mongo

/-- The payloads that a command is made of. -/
def accepts : NativePosition → Payload → Bool
  | _, .json _ => true
  | _, _ => false

/-- The table of a place makes something of a piece. There is one for all places. -/
def Resolves (_ : NativePosition) (piece : Native) : Prop :=
  ∃ document, natives.resolve piece = .ok document

theorem natives_iff (piece : Native) (document : Json) :
    natives.resolve piece = .ok document ↔ piece.payload = .json document := by
  rcases piece with ⟨stamp, name, payload⟩
  rw [NativeTable.resolve_eq_ok]
  cases payload <;> simp [natives, NativeTable.accept, NativeTable.empty, Payload.asJson?]

/-- The accepted payloads are those of which the table makes something. -/
theorem accepts_iff (position : NativePosition) (piece : Native) :
    accepts position piece.payload = true ↔ Resolves position piece := by
  rcases piece with ⟨stamp, name, payload⟩
  cases position <;> cases payload <;> simp [accepts, Resolves, natives_iff]

/-- A native condition is its document. A piece of any other kind has none, and no command is made
    with it. -/
def rawFilter (piece : Native) : Filter :=
  .native (piece.payload.asJson?.getD .null)

theorem renders (scope : Scope) : (interpretation scope).Renders rawFilter where
  simple := fun _ _ => rfl
  native := by
    intro piece f h
    rcases map_eq_ok.mp h with ⟨document, hdocument, rfl⟩
    rw [rawFilter, (natives_iff piece document).mp hdocument]
    rfl

/-- A filter is joined with others into a larger one, or with none. -/
inductive Joined (filter : Filter) : Filter → Prop where
  | alone : Joined filter filter
  | and (parts : List Filter) (part : Filter) (hmem : part ∈ parts) (h : Joined filter part) :
    Joined filter (.and parts)
  | or (parts : List Filter) (part : Filter) (hmem : part ∈ parts) (h : Joined filter part) :
    Joined filter (.or parts)

theorem gathers (scope : Scope) : (interpretation scope).Gathers Joined where
  alone := fun _ => .alone
  joined := by
    intro connective parts part filter hmem hpart
    cases connective with
    | and => exact .and parts part hmem hpart
    | or => exact .or parts part hmem hpart

section Positions

/-- The filters that a stage tests by. -/
def Stage.filters : Stage → List Filter
  | .matching filter => [filter]
  | _ => []

/-- The keys that a stage sorts by. -/
def Stage.sortKeys : Stage → List (String × SortValue)
  | .sort keys => keys
  | _ => []

/-- Whether a stage groups documents. -/
def Stage.isGrouping : Stage → Bool
  | .group _ _ => true
  | _ => false

namespace Command

/-- The stages of a pipeline. -/
def stages : Command → List Stage
  | .find _ _ _ _ => []
  | .aggregate stages => stages

/-- The document that a command sorts by. -/
def sortDocument : Command → List (String × SortValue)
  | .find _ sort _ _ => sort
  | .aggregate stages => stages.flatMap Stage.sortKeys

/-- A command tests documents by one filter, groups them and tests the groups by another one. It
    tests nothing else. -/
def TestsBy (filter having : Option Filter) : Command → Prop
  | .find tested _ _ _ => tested = filter.getD .all ∧ having = none
  | .aggregate stages => ∃ (grouping : Option Stage) (rest : List Stage),
    stages = filter.toList.map .matching ++
      (grouping.toList ++ (having.toList.map .matching ++ rest)) ∧
    (∀ stage ∈ grouping, stage.isGrouping = true) ∧
    (having.isSome = true → grouping.isSome = true) ∧ ∀ stage ∈ rest, stage.filters = []

end Command

/-- A document with every name of some entries once, in the place of its first entry and with the
    value of its last one. -/
structure LastOf {α : Type} (entries document : List (String × α)) : Prop where
  names : document.map (·.1) = (entries.map (·.1)).eraseDups
  lookup : ∀ name, document.lookup name = entries.reverse.lookup name

/-- What a sort key adds to the sort document. -/
def Ordered : SortKey → List (String × SortValue) → Prop
  | .simple key, entries => ∀ entry ∈ entries, entry.2 = .by key.direction
  | .native piece, entries => ∃ keys, piece.payload = .json (.object keys) ∧
    entries = keys.map fun key => (key.1, .native key.2)

/-- A command with everything native that a query has, each piece in its place. Only the fields
    that are computed to sort by can take the place of a member that is projected. -/
structure Carries (q : AdvancedQuery) (command : Command) : Prop where
  tests : ∃ scope filter having, command.TestsBy filter having ∧
    (interpretation .document).FilterOf rawFilter Joined q.filter filter ∧
    (interpretation scope).FilterOf rawFilter Joined q.having having
  sorts : ∃ entries, List.Forall₂ Ordered q.sorts entries ∧
    LastOf entries.flatten command.sortDocument
  select : ∀ piece, q.select = some (.native piece) → ∃ members fields,
    piece.payload = .json (.object members) ∧ .project fields ∈ command.stages ∧
    ∀ name, (∀ i key, q.sorts[i]? = some (.simple key) → name ≠ sortName i) →
      fields.lookup name = (members.lookup name).map .native
  groupBy : ∀ piece, q.groupBy = some (.native piece) → ∃ key values,
    piece.payload = .json key ∧
    command.stages.find? Stage.isGrouping = some (.group (.native key) values)

/-- What a command carries is of kinds that are translated. -/
theorem Carries.translated {q : AdvancedQuery} {command : Command} (h : Carries q command)
    (hfilter : TranslatedIn accepts q.filter) (hhaving : TranslatedIn accepts q.having) :
    q.Translated accepts := by
  rcases h.sorts with ⟨entries, hentries, _⟩
  refine ⟨hfilter, hhaving, forall_native hentries ?_, ?_, ?_⟩
  · rintro piece entry ⟨keys, hpayload, _⟩
    rw [hpayload]
    rfl
  · intro piece hpiece
    rcases h.select piece hpiece with ⟨members, _, hpayload, _⟩
    rw [hpayload]
    rfl
  · intro piece hpiece
    rcases h.groupBy piece hpiece with ⟨key, _, hpayload, _⟩
    rw [hpayload]
    rfl

end Positions

section Sorting

theorem lastOf_insertAll {α : Type} (entries : List (String × α)) :
    LastOf entries (insertAll entries) :=
  ⟨keys_insertAll entries, lookup_insertAll entries⟩

theorem nativeSortKeys_ordered (piece : Native) (keys : List (String × SortValue))
    (h : nativeSortKeys piece = .ok keys) : Ordered (.native piece) keys := by
  rcases bind_eq_ok.mp h with ⟨document, hdocument, h⟩
  rw [natives_iff] at hdocument
  split at h
  · exact ⟨_, hdocument, (Except.ok.inj h).symm⟩
  · exact absurd h (by rintro ⟨⟩)

theorem extend_append {α : Type} (members added later : List (String × α)) :
    extend (extend members added) later = extend members (added ++ later) :=
  (List.foldl_append ..).symm

/-- A find adds the sort keys to its document, and passes over an expression that is no field. -/
theorem findSort_walk : SortWalk findSort Ordered
    (fun start entries found => found = extend start entries.flatten) where
  nil := fun start found h => (Except.ok.inj h).symm
  cons := by
    intro start key rest found h
    cases key with
    | simple key =>
        simp only [findSort] at h
        -- A property is sorted by its path; a call has no path, and is passed over.
        split at h
        · rename_i path _
          refine ⟨_, [(path, .by key.direction)], found, ?_, h, fun entries hfound => hfound⟩
          intro entry hentry
          rw [List.mem_singleton.mp hentry]
        · exact ⟨_, [], found, fun entry hentry => absurd hentry List.not_mem_nil, h,
            fun entries hfound => hfound⟩
    | native piece =>
        rcases bind_eq_ok.mp h with ⟨keys, hkeys, h⟩
        refine ⟨_, keys, found, nativeSortKeys_ordered piece keys hkeys, h, ?_⟩
        intro entries hfound
        rw [hfound, extend_append, List.flatten_cons]

/-- A pipeline adds the sort keys to its document, each expression under a name of its own. -/
theorem sortStage_walk (scope : Scope) :
    SortWalk (fun start : Nat × SortStage => sortStageFrom scope start.1 start.2)
      Ordered
      (fun start entries found => found.sort = extend start.2.sort entries.flatten) where
  nil := fun start found h => congrArg SortStage.sort (Except.ok.inj h).symm
  cons := by
    intro start key rest found h
    cases key with
    | simple key =>
        rcases bind_eq_ok.mp h with ⟨value, _, h⟩
        refine ⟨(start.1 + 1, _), [(sortName start.1, .by key.direction)], found, ?_, h,
          fun entries hfound => hfound⟩
        intro entry hentry
        rw [List.mem_singleton.mp hentry]
    | native piece =>
        rcases bind_eq_ok.mp h with ⟨keys, hkeys, h⟩
        refine ⟨(start.1 + 1, { start.2 with sort := extend start.2.sort keys }), keys, found,
          nativeSortKeys_ordered piece keys hkeys, h, ?_⟩
        intro entries hfound
        rw [hfound, extend_append, List.flatten_cons]

end Sorting

section Pipelines

/-- Whether a stage neither tests nor sorts. -/
def Stage.isPlain : Stage → Bool
  | .matching _ => false
  | .sort _ => false
  | _ => true

theorem projectStage_plain (scope : Scope) (computed : List (String × Expr))
    (projection : Projection) (stages : List Stage)
    (h : projectStage scope computed projection = .ok stages) :
    ∀ stage ∈ stages, stage.isPlain = true := by
  intro stage hstage
  cases projection with
  | entity =>
      rw [← Except.ok.inj h] at hstage
      split at hstage
      · exact absurd hstage List.not_mem_nil
      · rw [List.mem_singleton.mp hstage]
        rfl
  | items columns =>
      rcases projectStage_items scope computed columns stages h with ⟨fields, rfl, _⟩
      rw [List.mem_singleton.mp hstage]
      rfl
  | native piece =>
      -- A native select is one stage, and no field to sort by can stand beside it.
      rcases bind_eq_ok.mp h with ⟨document, _, h⟩
      split at h
      · rw [← Except.ok.inj h] at hstage
        rw [List.mem_singleton.mp hstage]
        rfl
      · exact absurd h (by rintro ⟨⟩)

theorem distinctStages_plain (distinct : Bool) (projection : Projection) :
    ∀ stage ∈ distinctStages distinct projection, stage.isPlain = true := by
  intro stage hstage
  unfold distinctStages at hstage
  split at hstage
  · exact absurd hstage List.not_mem_nil
  · split at hstage
    · rcases List.mem_cons.mp hstage with rfl | hlast
      · rfl
      · rw [List.mem_singleton.mp hlast]
        rfl
    · exact absurd hstage List.not_mem_nil

theorem pageStages_plain (page : Option Pagination) :
    ∀ stage ∈ pageStages page, stage.isPlain = true := by
  intro stage hstage
  cases page with
  | none => exact absurd hstage List.not_mem_nil
  | some page =>
      rcases List.mem_append.mp hstage with hskip | hlimit
      · split at hskip
        · rw [List.mem_singleton.mp hskip]
          rfl
        · exact absurd hskip List.not_mem_nil
      · rw [List.mem_singleton.mp hlimit]
        rfl

theorem filters_of_isPlain {stage : Stage} (h : stage.isPlain = true) : stage.filters = [] := by
  cases stage with
  | matching filter => exact absurd h Bool.false_ne_true
  | _ => rfl

theorem sortKeys_of_isPlain {stages : List Stage} (h : ∀ stage ∈ stages, stage.isPlain = true) :
    stages.flatMap Stage.sortKeys = [] := by
  rw [List.flatMap_eq_nil_iff]
  intro stage hstage
  have hplain := h stage hstage
  cases stage with
  | sort keys => exact absurd hplain Bool.false_ne_true
  | _ => rfl

/-- After the grouping there is the filter of groups, and later one stage to sort. -/
theorem laterStages_split {scope : Scope} (parts : QueryParts) {projection : Projection}
    (having : Option Filter) {sorts : SortStage} {projected : List Stage}
    (h : projectStage scope sorts.computed projection = .ok projected) :
    ∃ before after, laterStages parts projection having sorts projected =
        having.toList.map .matching ++
          (before ++ ((if sorts.sort.isEmpty then [] else [.sort sorts.sort]) ++ after)) ∧
      (∀ stage ∈ before, stage.isPlain = true) ∧ ∀ stage ∈ after, stage.isPlain = true := by
  refine ⟨projected ++ distinctStages parts.distinct projection, pageStages parts.pagination ++
    (if sorts.computed.isEmpty then [] else [.unset (sorts.computed.map (·.1))]), ?_, ?_, ?_⟩
  · simp only [laterStages, List.append_assoc]
  · intro stage hstage
    exact (List.mem_append.mp hstage).elim (projectStage_plain scope _ projection projected h stage)
      (distinctStages_plain parts.distinct projection stage)
  · intro stage hstage
    rcases List.mem_append.mp hstage with hpage | hunset
    · exact pageStages_plain parts.pagination stage hpage
    · split at hunset
      · exact absurd hunset List.not_mem_nil
      · rw [List.mem_singleton.mp hunset]
        rfl

/-- The grouping of some parts, if there is one. A native group-by is its key. -/
theorem groupingOf_cases (parts : QueryParts) (projection : Projection)
    (grouping : Option (Stage × GroupScope)) (h : groupingOf parts projection = .ok grouping) :
    (grouping = none ∧ parts.groupBy = none) ∨
      ∃ key values scope, grouping = some (.group key values, scope) ∧
        ∀ piece, parts.groupBy = some (.native piece) →
          ∃ document, piece.payload = .json document ∧ key = .native document := by
  unfold groupingOf at h
  split at h
  · rcases map_eq_ok.mp h with ⟨group, hgroup, rfl⟩
    rcases bind_eq_ok.mp hgroup with ⟨⟨key, scope⟩, hkey, hgroup⟩
    rcases bind_eq_ok.mp hgroup with ⟨⟨values, known⟩, _, hgroup⟩
    refine .inr ⟨key, values, _, congrArg some (Except.ok.inj hgroup).symm, ?_⟩
    intro piece hpiece
    rw [hpiece] at hkey
    rcases bind_eq_ok.mp hkey with ⟨document, hdocument, hkey⟩
    exact ⟨document, (natives_iff piece document).mp hdocument,
      (congrArg Prod.fst (Except.ok.inj hkey)).symm⟩
  · rename_i hnone
    rw [Bool.or_eq_true, not_or, Bool.not_eq_true, Option.isSome_eq_false_iff,
      Option.isNone_iff_eq_none] at hnone
    exact .inl ⟨(Except.ok.inj h).symm, hnone.1⟩

/-- A native select is the projection, with the fields to sort by added. -/
theorem projectStage_native (scope : Scope) (computed : List (String × Expr)) (piece : Native)
    (stages : List Stage) (h : projectStage scope computed (.native piece) = .ok stages) :
    ∃ members fields, piece.payload = .json (.object members) ∧ stages = [.project fields] ∧
      ∀ name, name ∉ computed.map (·.1) →
        fields.lookup name = (members.lookup name).map .native := by
  rcases bind_eq_ok.mp h with ⟨document, hdocument, h⟩
  rw [natives_iff] at hdocument
  split at h
  · refine ⟨_, _, hdocument, (Except.ok.inj h).symm, ?_⟩
    intro name hname
    rw [lookup_extend _ _ name (by rwa [hidden_names]), lookup_map]
  · exact absurd h (by rintro ⟨⟩)

section Made

variable {maxDepth : Nat} {parts : QueryParts} {projection : Projection} {filter : Option Filter}
  {grouping : Option (Stage × GroupScope)} {having : Option Filter} {sorts : SortStage}
  {projected : List Stage} {command : Command}

/-- The filters of a pipeline stand on their sides of the grouping. -/
theorem MadeOf.testsBy
    (h : MadeOf maxDepth parts projection filter grouping having sorts projected command)
    (hgroups : parts.having.isSome = true → parts.groupBy.isSome = true) :
    command.TestsBy filter having := by
  rcases laterStages_split parts having h.projects with
    ⟨before, after, hlater, hbefore, hafter⟩
  rw [h.stages, hlater]
  refine ⟨grouping.map fun group => group.1, _, by rw [Option.toList_map], ?_, ?_, ?_⟩
  · -- The stage between the two filters groups, so it is no filter itself.
    intro stage hstage
    rcases Option.mem_map.mp hstage with ⟨group, hgroup, rfl⟩
    rcases groupingOf_cases parts projection grouping h.grouped with
      ⟨rfl, _⟩ | ⟨key, values, scope, rfl, _⟩
    · exact absurd hgroup (by rintro ⟨⟩)
    · rw [← Option.some.inj hgroup]
      rfl
  · intro hhaving
    rcases groupingOf_cases parts projection grouping h.grouped with
      ⟨rfl, hgroup⟩ | ⟨key, values, scope, rfl, _⟩
    · -- Nothing is grouped, so there is no filter of groups.
      have hfiltered := h.filtered
      have hnone : parts.having = none := by
        rw [hgroup] at hgroups
        exact Option.not_isSome_iff_eq_none.mp fun hsome => Bool.false_ne_true (hgroups hsome)
      rw [hnone] at hfiltered
      rw [← Except.ok.inj hfiltered] at hhaving
      exact absurd hhaving Bool.false_ne_true
    · rfl
  · intro stage hstage
    -- Behind the filter of groups come plain stages and the one that sorts.
    rcases List.mem_append.mp hstage with hin | hstage
    · exact filters_of_isPlain (hbefore stage hin)
    · rcases List.mem_append.mp hstage with hsort | hin
      · split at hsort
        · exact absurd hsort List.not_mem_nil
        · rw [List.mem_singleton.mp hsort]
          rfl
      · exact filters_of_isPlain (hafter stage hin)

/-- The sort document of a pipeline is that of its sort stage. -/
theorem MadeOf.sortDocument
    (h : MadeOf maxDepth parts projection filter grouping having sorts projected command) :
    command.sortDocument = sorts.sort := by
  rcases laterStages_split parts having h.projects with
    ⟨before, after, hlater, hbefore, hafter⟩
  -- Filters, groupings and the plain stages sort by nothing, so the one sort stage is left.
  have hmatching : ∀ tested : Option Filter,
      (tested.toList.map Stage.matching).flatMap Stage.sortKeys = [] := by
    rintro (_ | tested) <;> rfl
  have hgroup : (grouping.toList.map fun group => group.1).flatMap Stage.sortKeys = [] := by
    rcases groupingOf_cases parts projection grouping h.grouped with
      ⟨rfl, _⟩ | ⟨key, values, scope, rfl, _⟩ <;> rfl
  have hsort : (if sorts.sort.isEmpty then [] else [Stage.sort sorts.sort]).flatMap
      Stage.sortKeys = sorts.sort := by
    split
    case isTrue hempty => exact (List.isEmpty_iff.mp hempty).symm
    case isFalse => exact List.append_nil _
  rw [h.stages, hlater, Command.sortDocument]
  simp only [List.flatMap_append, hmatching, hgroup, hsort, sortKeys_of_isPlain hbefore,
    sortKeys_of_isPlain hafter, List.nil_append, List.append_nil]

end Made

/-- A pipeline has the native pieces of the query that it is made of. -/
theorem MadeOf.carries {maxDepth : Nat} {q : AnyQuery} {projection : Projection}
    {filter : Option Filter} {grouping : Option (Stage × GroupScope)} {having : Option Filter}
    {sorts : SortStage} {projected : List Stage} {command : Command}
    (h : MadeOf maxDepth (q.effective.withCustomizers []) projection filter grouping having sorts
      projected command)
    (hgroups : q.effective.having.isSome = true → q.effective.groupBy.isSome = true)
    (hfilter : (interpretation .document).filter q.effective.filter maxDepth = .ok filter)
    (hprojection : (q.effective.withCustomizers []).projection = .ok projection) :
    Carries q.lift command := by
  constructor
  case tests =>
    exact ⟨scopeAfter grouping, filter, having, h.testsBy hgroups,
      filterOf_of_filter (renders _) (gathers _) hfilter,
      filterOf_of_filter (renders _) (gathers _) h.filtered⟩
  case sorts =>
    rcases (sortStage_walk (scopeAfter grouping)).entries _ (0, ⟨[], []⟩) sorts h.sorted
      with ⟨entries, hentries, hsorts⟩
    refine ⟨entries, hentries, ?_⟩
    rw [h.sortDocument, hsorts]
    exact lastOf_insertAll entries.flatten
  case select =>
    intro piece hpiece
    have hprojects := h.projects
    rw [projection_native (select_effective hpiece) hprojection] at hprojects
    rcases projectStage_native _ _ piece projected hprojects with
      ⟨members, fields, hmembers, rfl, hlookup⟩
    refine ⟨members, fields, hmembers, ?_, ?_⟩
    · simp only [h.stages, Command.stages, laterStages, List.mem_append, List.mem_singleton,
        true_or, or_true]
    · intro name hname
      refine hlookup name fun hcomputed => ?_
      -- What is computed to sort by has the number of its sort key.
      rcases List.mem_map.mp hcomputed with ⟨field, hfield, rfl⟩
      rcases sortStage_computed _ _ sorts h.sorted field hfield with ⟨i, key, hkey, hsortName, _⟩
      exact hname i key hkey hsortName
  case groupBy =>
    intro piece hpiece
    rcases groupingOf_cases _ projection grouping h.grouped with
      ⟨_, hnone⟩ | ⟨key, values, scope, rfl, hkey⟩
    · exact absurd ((select_effective hpiece).symm.trans hnone) (by rintro ⟨⟩)
    · rcases hkey piece (select_effective hpiece) with ⟨document, hdocument, rfl⟩
      refine ⟨document, values, hdocument, ?_⟩
      have hfirst : (filter.toList.map Stage.matching).find? Stage.isGrouping = none := by
        cases filter <;> rfl
      rw [h.stages, Command.stages, List.find?_append, hfirst]
      rfl

/-- In a query with a command every native piece is translated. Before it is customized, the
    command has all of them in their places. -/
theorem compileParts_carries (schema : Schema) (root : String) (q : AnyQuery)
    (hgroups : q.effective.having.isSome = true → q.effective.groupBy.isSome = true)
    (compiled : Compiled)
    (h : compileParts schema root (q.effective.withCustomizers []) = .ok compiled) :
    q.lift.Translated accepts ∧ Carries q.lift compiled.command := by
  have haccepts : ∀ scope piece f, (interpretation scope).native piece = .ok f →
      accepts .condition piece.payload = true := by
    intro scope piece f hf
    rcases map_eq_ok.mp hf with ⟨document, hdocument, _⟩
    exact (accepts_iff .condition piece).mpr ⟨document, hdocument⟩
  rcases command_cases schema root _ rfl compiled h with
    ⟨filter, projection, hfilter, hprojection, hcommand⟩
  have hfiltered := translatedIn_of_filter (haccepts .document) hfilter
  rcases hcommand with ⟨rfl, hgroup, sort, skip, limit, hsort, hfind⟩ |
    ⟨grouping, having, sorts, projected, hmade⟩
  · -- A find returns whole records of a query that does not group.
    have hgroup : q.effective.groupBy = none := hgroup
    have hnone : (interpretation .document).filter q.effective.having schema.maxDepth =
        .ok none := by
      rw [hgroup] at hgroups
      rw [Option.not_isSome_iff_eq_none.mp fun hsome => Bool.false_ne_true (hgroups hsome)]
      rfl
    have hcarries : Carries q.lift compiled.command := by
      rw [hfind]
      constructor
      case tests =>
        exact ⟨.document, filter, none, ⟨rfl, rfl⟩,
          filterOf_of_filter (renders _) (gathers _) hfilter,
          filterOf_of_filter (renders _) (gathers _) hnone⟩
      case sorts =>
        -- The entries of the keys are put into one document, where the last of a path stays.
        rcases findSort_walk.entries _ [] sort hsort with ⟨entries, hentries, rfl⟩
        exact ⟨entries, hentries, lastOf_insertAll entries.flatten⟩
      case select =>
        intro piece hpiece
        exact absurd (projection_native (select_effective hpiece) hprojection) (by rintro ⟨⟩)
      case groupBy =>
        intro piece hpiece
        exact absurd ((select_effective hpiece).symm.trans hgroup) (by rintro ⟨⟩)
    exact ⟨hcarries.translated hfiltered (translatedIn_of_filter (haccepts .document) hnone),
      hcarries⟩
  · -- The stages of a pipeline have been looked through above.
    have hcarries := hmade.carries hgroups hfilter hprojection
    exact ⟨hcarries.translated hfiltered (translatedIn_of_filter (haccepts _) hmade.filtered),
      hcarries⟩

end Pipelines

end Polyquery.Mongo
