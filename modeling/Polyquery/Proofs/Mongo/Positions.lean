import Polyquery.Proofs.Mongo.Stages

/-!
# Where Expressions Stand

The places of a command where Mongo reads an expression, and what is found
there. Every expression of a pipeline comes from one part of the query, and it
is that part compiled: on a document in front of the grouping and in the
grouping itself, and in the scope that the grouping leaves behind after it.
The one exception is the grouping of whole documents, by which equal rows are
found.

## Main definitions

* `Stage.expressions`, `Command.expressions`: The places where expressions are
  read.
* `Stage.columns`, `Command.columns`: Those among them that may choose columns.
* `After`, `Source`: Where an expression comes from.

## Theorems

* `filter_compares`: The expressions of a filter.
* `groupStage_source`, `projectStage_compiles`: The expressions of stages.
* `laterStages_cases`, `laterStages_after`: The stages after the grouping.
* `pipeline_source`, `pipeline_columns`: The expressions of a pipeline.
-/

namespace Polyquery.Mongo

namespace Filter

mutual

/-- The expressions in a filter. -/
def expressions : Filter → List Json
  | .all => []
  | .field _ _ => []
  | .expr condition => [condition.toJson]
  | .and parts => expressionsOf parts
  | .or parts => expressionsOf parts
  | .native _ => []

/-- The expressions in several filters. -/
def expressionsOf : List Filter → List Json
  | [] => []
  | part :: rest => part.expressions ++ expressionsOf rest

end

end Filter

/-- The expressions by which documents are grouped. -/
def GroupKey.expressions : GroupKey → List Json
  | .none => []
  | .fields keys => keys.map fun key => key.2.toJson
  | .wholeDocument => [GroupKey.wholeDocument.toJson]
  | .native value => [value]

/-- The values of a projection that are computed. -/
def Projected.expressions : Projected → List Json
  | .omitted => []
  | .computed value => [value.toJson]
  | .native value => [value]

/-- The values of the columns of a stage. -/
def Stage.columns : Stage → List Json
  | .project fields => fields.flatMap fun field => field.2.expressions
  | _ => []

/-- The expressions in a stage: in the filters, in the keys and accumulators of a grouping and
    in the fields that are computed. -/
def Stage.expressions : Stage → List Json
  | .matching filter => filter.expressions
  | .group key accumulators => key.expressions ++ accumulators.map fun value => value.2.toJson
  | .addFields fields => fields.map fun field => field.2.toJson
  | stage => stage.columns

/-- Whether a stage filters or groups documents. -/
def Stage.sifts : Stage → Bool
  | .matching _ => true
  | .group _ _ => true
  | _ => false

/-- The expressions in a command. -/
def Command.expressions : Command → List Json
  | .find filter _ _ _ => filter.expressions
  | .aggregate pipeline => pipeline.flatMap Stage.expressions

/-- The values of the columns of a command. -/
def Command.columns : Command → List Json
  | .find _ _ _ _ => []
  | .aggregate pipeline => pipeline.flatMap Stage.columns

theorem columns_subset (stage : Stage) : stage.columns ⊆ stage.expressions := by
  cases stage with
  | group key accumulators => exact List.nil_subset _
  | matching filter => exact List.nil_subset _
  | addFields fields => exact List.nil_subset _
  | project fields => exact List.Subset.refl _
  | replaceByKey => exact List.Subset.refl _
  | sort keys => exact List.Subset.refl _
  | skip count => exact List.Subset.refl _
  | limit count => exact List.Subset.refl _
  | unset fields => exact List.Subset.refl _

/-- Where an expression after the grouping comes from. -/
inductive After (parts : QueryParts) (scope : Scope) : Json → Prop where
  | having (leaf : SimpleCondition) (h : leaf ∈ leavesOf parts.having) (negated : Bool) (e : Expr)
    (hcompiled : condition scope leaf (Polarity.of leaf.operator negated) = .ok e) :
    After parts scope e.toJson
  | projected (x : Expression) (h : x ∈ parts.returned ∨ x ∈ parts.sortExpressions) (e : Expr)
    (hcompiled : ofExpression scope x = .ok e) : After parts scope e.toJson

/-- Where an expression of a command comes from, with the scope of the later stages. -/
inductive Source (parts : QueryParts) (later : Scope) : Json → Prop where
  | filter (leaf : SimpleCondition) (h : leaf ∈ leavesOf parts.filter) (negated : Bool) (e : Expr)
    (hcompiled : condition .document leaf (Polarity.of leaf.operator negated) = .ok e) :
    Source parts later e.toJson
  | key (x : Expression) (h : x ∈ parts.keys) (e : Expr)
    (hcompiled : ofExpression .document x = .ok e) : Source parts later e.toJson
  | accumulator (x : Expression) (h : x ∈ parts.calls) (e : Expr)
    (hcompiled : ofExpression .document x = .ok e) : Source parts later e.toJson
  | after (j : Json) (h : After parts later j) : Source parts later j
  /-- Equal rows are found by grouping whole documents. -/
  | distinct (h : parts.distinct = true) : Source parts later GroupKey.wholeDocument.toJson

section Filters

variable (scope : Scope)

theorem mem_expressionsOf (parts : List Filter) (j : Json) :
    j ∈ Filter.expressionsOf parts ↔ ∃ part ∈ parts, j ∈ part.expressions := by
  induction parts with
  | nil => simp only [Filter.expressionsOf, List.not_mem_nil, false_and, exists_false]
  | cons part rest ih =>
      simp only [Filter.expressionsOf, List.mem_append, ih, List.mem_cons, exists_eq_or_imp]

/-- What holds of the expressions of all filters under a connective holds of those of the
    connective. -/
theorem keeps_expressions (P : Json → Prop) :
    (interpretation scope).Keeps fun f => ∀ j ∈ f.expressions, P j where
  matchAll := fun j hj => absurd hj List.not_mem_nil
  combine := by
    intro connective parts hparts j hj
    cases connective <;>
      rcases (mem_expressionsOf parts j).mp hj with ⟨part, hpart, hmem⟩ <;>
      exact hparts part hpart j hmem

/-- The expressions of a filter are comparisons of its condition, as they are or turned around. -/
theorem filter_compares (condition : Option Condition) (maxDepth : Nat) (f : Filter)
    (hnative : ∀ c, condition = some c → c.nativeFree = true)
    (h : (interpretation scope).filter condition maxDepth = .ok (some f)) :
    ∀ j ∈ f.expressions, ∃ leaf ∈ leavesOf condition, ∃ negated e,
      Mongo.condition scope leaf (Polarity.of leaf.operator negated) = .ok e ∧ j = e.toJson := by
  refine Interpretation.filter_keeps (keeps_expressions scope _) condition maxDepth f hnative ?_ h
  intro c hc leaf hleaf ctx f hf j hj
  replace hf : leafFilter scope leaf ctx = .ok f := hf
  unfold leafFilter at hf
  split at hf
  · -- A clause on a field is no expression.
    rcases map_eq_ok.mp hf with ⟨clause, _, heq⟩
    rw [← heq] at hj
    exact absurd hj List.not_mem_nil
  · rcases map_eq_ok.mp hf with ⟨e, he, heq⟩
    rw [← heq] at hj
    refine ⟨leaf, ?_, ctx.negated, e, he, List.mem_singleton.mp hj⟩
    rw [hc, leavesOf_some]
    exact hleaf

end Filters

section Stages

variable (parts : QueryParts) (hportable : parts.Portable)

include hportable

/-- The expressions of a grouping are its keys and its accumulators. -/
theorem groupStage_source (later : Scope) (projection : Projection)
    (hprojection : parts.projection = .ok projection) (stage : Stage) (group : GroupScope)
    (h : groupStage parts projection = .ok (stage, group)) :
    ∀ j ∈ stage.expressions, Source parts later j := by
  rcases groupStage_grouped parts hportable projection hprojection stage group h with
    ⟨keys, values, known, hgrouped⟩
  intro j hj
  rw [hgrouped.groups] at hj
  rcases List.mem_append.mp hj with hkeys | hvalues
  · split at hkeys
    · rcases List.mem_map.mp hkeys with ⟨key, hmem, heq⟩
      rcases hgrouped.keyed.each key hmem with ⟨x, hx, hcompiled⟩
      rw [← heq]
      exact .key x hx key.2 hcompiled
    · exact absurd hkeys List.not_mem_nil
  · rcases List.mem_map.mp hvalues with ⟨value, hmem, heq⟩
    rcases hgrouped.accumulated.each value hmem with ⟨x, hx, hcompiled⟩
    rw [← heq]
    exact .accumulator x hx value.2 hcompiled

/-- The expressions of a projection are the columns and the sort keys. -/
theorem projectStage_compiles (scope : Scope) (projection : Projection)
    (hprojection : parts.projection = .ok projection) (sorts : SortStage)
    (hsorts : sortStage scope parts.sorts = .ok sorts) (projected : List Stage)
    (h : projectStage scope sorts.computed projection = .ok projected) :
    ∀ stage ∈ projected, ∀ j ∈ stage.expressions, ∃ x e,
      (x ∈ parts.returned ∨ x ∈ parts.sortExpressions) ∧ ofExpression scope x = .ok e ∧
        j = e.toJson := by
  rcases projection_returned parts hportable projection hprojection with ⟨hnative, hreturned⟩
  -- A field to sort by is compiled from the expression of its key.
  have hsort : ∀ field ∈ sorts.computed, ∃ x ∈ parts.sortExpressions,
      ofExpression scope x = .ok field.2 := by
    intro field hmem
    rcases sortStage_computed scope parts.sorts sorts hsorts field hmem with
      ⟨_, key, hkey, _, hcompiled⟩
    have hmem := List.mem_of_getElem? hkey
    exact ⟨key.expression, (mem_sortExpressions parts _).mpr ⟨key, hmem, rfl⟩, hcompiled⟩
  intro stage hstage j hj
  cases projection with
  | native piece => exact absurd rfl (hnative piece)
  | entity =>
      -- Whole records have a stage only for the fields to sort by.
      rw [← Except.ok.inj h] at hstage
      split at hstage
      · exact absurd hstage List.not_mem_nil
      · rw [List.mem_singleton.mp hstage] at hj
        rcases List.mem_map.mp hj with ⟨field, hmem, heq⟩
        rcases hsort field hmem with ⟨x, hx, hcompiled⟩
        exact ⟨x, field.2, .inr hx, hcompiled, heq.symm⟩
  | items columns =>
      rcases projectStage_items scope sorts.computed columns projected h with
        ⟨fields, hstages, hfields⟩
      rw [hstages] at hstage
      rw [List.mem_singleton.mp hstage] at hj
      rcases List.mem_flatMap.mp hj with ⟨field, hmem, hj⟩
      rcases hfields field hmem with homitted | ⟨value, hvalue, hcolumn | ⟨name, hsorted⟩⟩
      · -- What is omitted holds no expression.
        rw [homitted] at hj
        exact absurd hj List.not_mem_nil
      · rcases hcolumn with ⟨x, hx, hcompiled⟩
        rw [hvalue] at hj
        refine ⟨x, value, .inl ?_, hcompiled, List.mem_singleton.mp hj⟩
        rw [← hreturned]
        exact hx
      · rcases hsort (name, value) hsorted with ⟨x, hx, hcompiled⟩
        rw [hvalue] at hj
        exact ⟨x, value, .inr hx, hcompiled, List.mem_singleton.mp hj⟩

end Stages

/-- A projection neither filters nor groups. -/
theorem projectStage_sifts (scope : Scope) (computed : List (String × Expr))
    (projection : Projection) (hnative : ∀ piece, projection ≠ .native piece)
    (projected : List Stage) (h : projectStage scope computed projection = .ok projected) :
    ∀ stage ∈ projected, stage.sifts = false := by
  intro stage hstage
  cases projection with
  | native piece => exact absurd rfl (hnative piece)
  | entity =>
      rw [← Except.ok.inj h] at hstage
      split at hstage
      · exact absurd hstage List.not_mem_nil
      · rw [List.mem_singleton.mp hstage]
        rfl
  | items columns =>
      rcases projectStage_items scope computed columns projected h with ⟨fields, hstages, _⟩
      rw [hstages] at hstage
      rw [List.mem_singleton.mp hstage]
      rfl

/-- A stage that holds no expression and neither filters nor groups. -/
structure Stage.Bare (stage : Stage) : Prop where
  expressions : stage.expressions = []
  sifts : stage.sifts = false

/-- A stage after the grouping filters groups, projects or drops equal rows, or it is bare. -/
theorem laterStages_cases (parts : QueryParts) (projection : Projection) (having : Option Filter)
    (sorts : SortStage) (projected : List Stage) (stage : Stage)
    (h : stage ∈ laterStages parts projection having sorts projected) :
    (∃ f, having = some f ∧ stage = .matching f) ∨ stage ∈ projected ∨
      (parts.distinct = true ∧ stage = .group .wholeDocument []) ∨ stage.Bare := by
  -- The stages of a page count documents and read nothing of them.
  have hpages : stage ∈ pageStages parts.pagination → stage.Bare := by
    intro h
    cases hpage : parts.pagination with
    | none =>
        rw [hpage] at h
        exact absurd h List.not_mem_nil
    | some page =>
        rw [hpage] at h
        rcases List.mem_append.mp h with hskip | hlimit
        · split at hskip
          · rw [List.mem_singleton.mp hskip]
            exact ⟨rfl, rfl⟩
          · exact absurd hskip List.not_mem_nil
        · rw [List.mem_singleton.mp hlimit]
          exact ⟨rfl, rfl⟩
  simp only [laterStages, List.mem_append] at h
  rcases h with ((((hhaving | hprojected) | hdistinct) | hsort) | hpage) | hunset
  · cases having with
    | none => exact absurd hhaving List.not_mem_nil
    | some f => exact .inl ⟨f, rfl, List.mem_singleton.mp hhaving⟩
  · exact .inr (.inl hprojected)
  · -- Equal rows are dropped by two stages: a grouping by the whole document, and its undoing.
    unfold distinctStages at hdistinct
    split at hdistinct
    · exact absurd hdistinct List.not_mem_nil
    · split at hdistinct
      · rename_i hdrops
        rcases List.mem_cons.mp hdistinct with heq | hreplace
        · exact .inr (.inr (.inl ⟨hdrops, heq⟩))
        · rw [List.mem_singleton.mp hreplace]
          exact .inr (.inr (.inr ⟨rfl, rfl⟩))
      · exact absurd hdistinct List.not_mem_nil
  · split at hsort
    · exact absurd hsort List.not_mem_nil
    · rw [List.mem_singleton.mp hsort]
      exact .inr (.inr (.inr ⟨rfl, rfl⟩))
  · exact .inr (.inr (.inr (hpages hpage)))
  · split at hunset
    · exact absurd hunset List.not_mem_nil
    · rw [List.mem_singleton.mp hunset]
      exact .inr (.inr (.inr ⟨rfl, rfl⟩))

section Pipelines

variable {maxDepth : Nat} {parts : QueryParts} {projection : Projection} {filter : Option Filter}
  {grouping : Option (Stage × GroupScope)} {having : Option Filter} {sorts : SortStage}
  {projected : List Stage} {command : Command}

/-- The expressions after the grouping, but for the grouping of whole documents. -/
theorem laterStages_after (hportable : parts.Portable)
    (hprojection : parts.projection = .ok projection)
    (h : MadeOf maxDepth parts projection filter grouping having sorts projected command)
    (stage : Stage) (hstage : stage ∈ laterStages parts projection having sorts projected) :
    (parts.distinct = true ∧ stage = .group .wholeDocument []) ∨
      ∀ j ∈ stage.expressions, After parts (scopeAfter grouping) j := by
  rcases laterStages_cases parts projection having sorts projected stage hstage with
    ⟨f, hf, hmatching⟩ | hproject | hdistinct | hbare
  · -- The filter of groups is read in the scope behind the grouping.
    have hfiltered := h.filtered
    rw [hf] at hfiltered
    rw [hmatching]
    refine .inr fun j hj => ?_
    rcases filter_compares _ parts.having maxDepth f hportable.having hfiltered j hj with
      ⟨leaf, hleaf, negated, e, hcompiled, heq⟩
    rw [heq]
    exact .having leaf hleaf negated e hcompiled
  · refine .inr fun j hj => ?_
    rcases projectStage_compiles parts hportable _ projection hprojection sorts h.sorted projected
      h.projects stage hproject j hj with ⟨x, e, hx, hcompiled, heq⟩
    rw [heq]
    exact .projected x hx e hcompiled
  · exact .inl hdistinct
  · rw [hbare.expressions]
    exact .inr fun j hj => absurd hj List.not_mem_nil

/-- Every expression of a pipeline comes from a part of the query. -/
theorem pipeline_source (hportable : parts.Portable)
    (hfilter : (interpretation .document).filter parts.filter maxDepth = .ok filter)
    (hprojection : parts.projection = .ok projection)
    (h : MadeOf maxDepth parts projection filter grouping having sorts projected command) :
    ∀ j ∈ command.expressions, Source parts (scopeAfter grouping) j := by
  intro j hj
  rw [h.stages] at hj
  simp only [Command.expressions, List.flatMap_append, List.mem_append] at hj
  -- The expression is in the first filter, in the grouping or in a stage after it.
  rcases hj with hfirst | hgroup | hlater
  · cases filter with
    | none => exact absurd hfirst List.not_mem_nil
    | some f =>
        simp only [Option.toList_some, List.map_cons, List.map_nil, List.flatMap_cons,
          List.flatMap_nil, List.append_nil] at hfirst
        rcases filter_compares .document parts.filter maxDepth f hportable.filter hfilter j
          hfirst with ⟨leaf, hleaf, negated, e, hcompiled, heq⟩
        rw [heq]
        exact .filter leaf hleaf negated e hcompiled
  · cases grouping with
    | none => exact absurd hgroup List.not_mem_nil
    | some found =>
        simp only [Option.toList_some, List.map_cons, List.map_nil, List.flatMap_cons,
          List.flatMap_nil, List.append_nil] at hgroup
        exact groupStage_source parts hportable _ projection hprojection found.1 found.2
          (groupStage_of_groupingOf parts projection found.1 found.2 h.grouped) j hgroup
  · rcases List.mem_flatMap.mp hlater with ⟨stage, hstage, hj⟩
    rcases laterStages_after hportable hprojection h stage hstage with ⟨hdistinct, hroot⟩ | hafter
    · rw [hroot] at hj
      rw [List.mem_singleton.mp hj]
      exact .distinct hdistinct
    · exact .after j (hafter j hj)

/-- Columns are in the projection only. -/
theorem pipeline_columns (hportable : parts.Portable)
    (hprojection : parts.projection = .ok projection)
    (h : MadeOf maxDepth parts projection filter grouping having sorts projected command) :
    ∀ j ∈ command.columns, j ∈ projected.flatMap Stage.columns := by
  intro j hj
  rw [h.stages] at hj
  simp only [Command.columns, List.flatMap_append, List.mem_append] at hj
  -- Filters and groupings choose no columns.
  rcases hj with hfirst | hgroup | hlater
  · cases filter with
    | none => exact absurd hfirst List.not_mem_nil
    | some f => exact absurd hfirst List.not_mem_nil
  · cases grouping with
    | none => exact absurd hgroup List.not_mem_nil
    | some found =>
        rcases groupStage_grouped parts hportable projection hprojection found.1 found.2
          (groupStage_of_groupingOf parts projection found.1 found.2 h.grouped) with
          ⟨keys, values, known, hgrouped⟩
        simp only [Option.toList_some, List.map_cons, List.map_nil, List.flatMap_cons,
          List.flatMap_nil, List.append_nil, hgrouped.groups] at hgroup
        exact absurd hgroup List.not_mem_nil
  · rcases List.mem_flatMap.mp hlater with ⟨stage, hstage, hj⟩
    -- Of the later stages only the projection does.
    rcases laterStages_cases parts projection having sorts projected stage hstage with
      ⟨f, _, hmatching⟩ | hproject | ⟨_, hdistinct⟩ | hbare
    · rw [hmatching] at hj
      exact absurd hj List.not_mem_nil
    · exact List.mem_flatMap.mpr ⟨stage, hproject, hj⟩
    · rw [hdistinct] at hj
      exact absurd hj List.not_mem_nil
    · have hnone := columns_subset stage hj
      rw [hbare.expressions] at hnone
      exact absurd hnone List.not_mem_nil

end Pipelines

end Polyquery.Mongo
