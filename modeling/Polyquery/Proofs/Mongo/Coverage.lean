import Polyquery.Proofs.Mongo.Groups
import Polyquery.Proofs.Mongo.Missing

/-!
# Grouped Queries

When a query that groups documents has a command, and what its command reads.
After the grouping a property has a value only as a part of a group key or of an
aggregate call; `Expression.loose` are the properties of an expression that
stand in neither. It is enough to look at the query for them, because the
fields of the group stand for exactly the group keys and the aggregate calls
(`missing_grouped`).

A query with such a property in a column, a sort key or the filter of groups
has no command. Beside them only the depth of a condition and a column without
a name can keep a grouped query that passes the checks from having one.

## Main definitions

* `Expression.loose`, `QueryParts.loose`: Properties outside of group keys and
  aggregate calls.
* `QueryParts.Groups`: Parts that group documents.
* `Refused`: Why such parts have no command.

## Theorems

* `missing_grouped`: The properties without a value after the grouping.
* `groupStage_total`: The grouping itself never fails.
* `compileParts_refused`, `compileParts_covers`: Parts without and with a
  command.
* `grouped_wellScoped`: Queries.
-/

namespace Polyquery

namespace Expression

mutual

/-- The properties of an expression outside of aggregate calls and of what has one of several
    expression strings. -/
def loose (covered : List String) : Expression → List String
  | .property path label =>
    if covered.contains (text (.property path label)) then [] else [path]
  | .call function arguments label =>
    if function.isAggregate || covered.contains (text (.call function arguments label)) then []
    else argumentLoose covered arguments

/-- Such properties in the arguments of a call. -/
def argumentLoose (covered : List String) : List Argument → List String
  | [] => []
  | .expression value :: rest => loose covered value ++ argumentLoose covered rest
  | .literal _ :: rest => argumentLoose covered rest

end

end Expression

namespace QueryParts

/-- The properties of an expression that stand in no group key and in no aggregate call. -/
def loose (parts : QueryParts) (x : Expression) : List String :=
  x.loose (parts.keys.map Expression.text)

/-- Parts that group documents, by group keys or to return an aggregate. -/
def Groups (parts : QueryParts) : Prop :=
  parts.groupBy.isSome = true ∨ ∃ x ∈ parts.returned, x.aggregate?.isSome = true

end QueryParts

namespace Mongo

section Missing

variable {parts : QueryParts} {keys values : List (String × Expr)}
  {known : List (String × String)} {stage : Stage} {group : GroupScope}

theorem contains_text_iff (text : String) :
    (parts.keys.map Expression.text).contains text = true ↔
      ∃ key ∈ parts.keys, key.text = text := by
  rw [List.contains_iff_mem, List.mem_map]

mutual

/-- After the grouping exactly those properties have no value that are in no group key and in no
    aggregate call. -/
theorem missing_grouped (hgrouped : Grouped parts keys values known stage group)
    (hregular : parts.Regular) :
    ∀ x : Expression, x.Dotted → (∀ call ∈ x.aggregateCalls, call ∈ parts.calls) →
      (Scope.grouped group).missing x = parts.loose x
  | .property path label, hdotted, _ => by
      have hcovered : ((Scope.grouped group).fieldOf? (.property path label)).isSome = true ↔
          (parts.keys.map Expression.text).contains _ = true :=
        (hgrouped.lookup_isSome_iff hregular _ hdotted rfl).trans (contains_text_iff _).symm
      simp only [Scope.missing, QueryParts.loose, Expression.loose, hcovered,
        Scope.missingProperty, hgrouped.portable, Bool.false_eq_true, if_false]
  | .call function arguments label, hdotted, hcalls => by
      simp only [Expression.aggregateCalls] at hcalls
      simp only [Scope.missing, QueryParts.loose, Expression.loose]
      cases haggregate : function.isAggregate with
      | true =>
          -- An aggregate call has an accumulator, so nothing below it is read.
          rw [if_pos haggregate, List.forall_mem_singleton] at hcalls
          rcases hgrouped.call_accumulated hregular _ hcalls with ⟨index, _, hlookup⟩
          have hfield : (Scope.grouped group).fieldOf? (.call function arguments label) =
              some (valueName index) := hlookup
          simp only [hfield, Option.isSome_some, Bool.true_or, if_true]
      | false =>
          -- Another call is read from a group key, or else from its arguments.
          rw [if_neg (Bool.eq_false_iff.mp haggregate)] at hcalls
          have hcovered :
              ((Scope.grouped group).fieldOf? (.call function arguments label)).isSome = true ↔
                (parts.keys.map Expression.text).contains _ = true :=
            (hgrouped.lookup_isSome_iff hregular _ hdotted haggregate).trans
              (contains_text_iff _).symm
          simp only [hcovered, Bool.false_or]
          rw [missingArguments_grouped hgrouped hregular arguments hdotted hcalls]

/-- So it is with the arguments of a call. -/
theorem missingArguments_grouped (hgrouped : Grouped parts keys values known stage group)
    (hregular : parts.Regular) :
    ∀ arguments : List Argument,
      (∀ path ∈ Expression.argumentPaths arguments, Text.isDottedIdentifier path = true) →
      (∀ call ∈ Expression.argumentAggregateCalls arguments, call ∈ parts.calls) →
      (Scope.grouped group).missingArguments arguments =
        Expression.argumentLoose (parts.keys.map Expression.text) arguments
  | [], _, _ => rfl
  | .expression value :: rest, hdotted, hcalls => by
      simp only [Expression.argumentPaths, List.forall_mem_append] at hdotted
      simp only [Expression.argumentAggregateCalls, List.forall_mem_append] at hcalls
      simp only [Scope.missingArguments, Expression.argumentLoose]
      rw [missing_grouped hgrouped hregular value hdotted.1 hcalls.1,
        missingArguments_grouped hgrouped hregular rest hdotted.2 hcalls.2]
      rfl
  | .literal value :: rest, hdotted, hcalls => by
      simp only [Scope.missingArguments, Expression.argumentLoose]
      exact missingArguments_grouped hgrouped hregular rest hdotted hcalls

end

/-- What is read after the grouping is made of identifiers, and its aggregate calls have
    accumulators. -/
theorem missing_later (hgrouped : Grouped parts keys values known stage group)
    (hchecked : parts.Checked) (hregular : parts.Regular) (x : Expression) (hx : x ∈ parts.later) :
    (Scope.grouped group).missing x = parts.loose x := by
  refine missing_grouped hgrouped hregular x (hregular.dotted x (later_mem_read parts x hx)) ?_
  simp only [QueryParts.later, List.mem_append] at hx
  rcases hx with (hreturned | hhaving) | hsort
  · exact calls_of_later hchecked x (.inl hreturned)
  · rcases List.mem_flatMap.mp hhaving with ⟨leaf, hleaf, hside⟩
    rcases List.mem_cons.mp hside with rfl | hfield
    · exact calls_of_having leaf hleaf
    · -- Another property has no aggregate in it.
      rcases List.mem_map.mp hfield with ⟨path, _, rfl⟩
      exact fun call hcall => absurd hcall List.not_mem_nil
  · exact calls_of_later hchecked x (.inr hsort)

end Missing

section Grouping

theorem groupFields_total (index : Nat) (known : List (String × String)) (es : List Expression)
    (h : ∀ e ∈ es, e.valid = true) : ∃ found, groupFields index known es = .ok found := by
  induction es generalizing index known with
  | nil => exact ⟨_, rfl⟩
  | cons e rest ih =>
      rw [List.forall_mem_cons] at h
      rcases ofExpression_document e h.1 with ⟨value, hvalue⟩
      rcases ih (index + 1) ((e.text, "_id." ++ ("g" ++ toString index)) :: known) h.2 with
        ⟨found, hfound⟩
      refine ⟨(("g" ++ toString index, value) :: found.1, found.2), ?_⟩
      simp only [groupFields, hvalue, hfound, ok_bind]
      rfl

theorem accumulators_total (index : Nat) (known : List (String × String))
    (calls : List Expression) (h : ∀ call ∈ calls, call.valid = true) :
    ∃ found, accumulators index known calls = .ok found := by
  induction calls generalizing index known with
  | nil => exact ⟨_, rfl⟩
  | cons call rest ih =>
      rw [List.forall_mem_cons] at h
      simp only [accumulators]
      split
      · exact ih index known h.2
      · rcases ofExpression_document call h.1 with ⟨value, hvalue⟩
        rcases ih (index + 1) ((call.text, "a" ++ toString index) :: known) h.2 with
          ⟨found, hfound⟩
        refine ⟨(("a" ++ toString index, value) :: found.1, found.2), ?_⟩
        simp only [hvalue, hfound, ok_bind]
        rfl

/-- Grouping documents never fails. -/
theorem groupStage_total (parts : QueryParts) (hportable : parts.Portable) (hvalid : parts.Valid)
    (projection : Projection) (hprojection : parts.projection = .ok projection) :
    ∃ stage group, groupStage parts projection = .ok (stage, group) := by
  -- The keys and the accumulators are compiled from expressions that are valid.
  have hkey : ∃ found, groupKey parts.groupBy = .ok found := by
    cases hgroup : parts.groupBy with
    | none => exact ⟨_, rfl⟩
    | some columns =>
        cases columns with
        | native piece => exact absurd (hportable.groupBy _ hgroup) (by
            simp only [Selection.isNative, reduceCtorEq, not_false_eq_true])
        | items list =>
            rcases groupFields_total 0 [] list.effective (hvalid.groupBy _ hgroup) with
              ⟨found, hfound⟩
            refine ⟨(.fields found.1, ⟨found.2, false⟩), ?_⟩
            simp only [groupKey, hfound, ok_bind]
            rfl
  rcases hkey with ⟨⟨key, before⟩, hkey⟩
  rcases accumulators_total 0 before.fields parts.calls hvalid.calls with
    ⟨⟨values, fields⟩, hvalues⟩
  refine ⟨.group key values, { before with fields := fields }, ?_⟩
  simp only [groupStage, hkey, ok_bind, aggregateCalls_eq parts hportable projection hprojection,
    hvalues]
  rfl

/-- Parts that group documents have a grouping. -/
theorem groupingOf_groups (parts : QueryParts) (hportable : parts.Portable) (hvalid : parts.Valid)
    (hgroups : parts.Groups) (projection : Projection)
    (hprojection : parts.projection = .ok projection) :
    ∃ stage group, groupingOf parts projection = .ok (some (stage, group)) := by
  rcases groupStage_total parts hportable hvalid projection hprojection with
    ⟨stage, group, hstage⟩
  refine ⟨stage, group, ?_⟩
  have haggregates := hasAggregate_iff parts hportable projection hprojection
  have hcondition : (parts.groupBy.isSome || hasAggregate projection) = true := by
    rw [Bool.or_eq_true, haggregates]
    exact hgroups
  unfold groupingOf
  rw [if_pos hcondition, hstage]
  rfl

end Grouping

/-- Why parts that group documents have no command. -/
inductive Refused (parts : QueryParts) (maxDepth : Nat) : CompileError → Prop where
  /-- A condition is too deep. -/
  | deep (c : Condition) (h : parts.filter = some c ∨ parts.having = some c)
    (hdeep : maxDepth < c.height) : Refused parts maxDepth (.depthExceeded maxDepth)
  /-- A column has no name. -/
  | unnamed (x : Expression) (h : x ∈ parts.returned) (hlabel : x.alias? = none)
    (hpath : x.path? = none) : Refused parts maxDepth (.missingAlias x.text)
  /-- A property stands in no group key and in no aggregate call. -/
  | ungrouped (x : Expression) (h : x ∈ parts.later) (path : String)
    (hpath : path ∈ parts.loose x) : Refused parts maxDepth (.typeMismatch (.ungrouped path))

section Compiling

variable {parts : QueryParts} (hportable : parts.Portable) (hvalid : parts.Valid)
  (hchecked : parts.Checked) (hregular : parts.Regular) (hgroups : parts.Groups)

include hportable hgroups in
/-- Parts that group documents return columns. -/
theorem projection_items (projection : Projection)
    (hprojection : parts.projection = .ok projection) : ∃ columns, projection = .items columns := by
  cases projection with
  | items columns => exact ⟨columns, rfl⟩
  | native piece =>
      exact absurd rfl ((projection_returned parts hportable _ hprojection).1 piece)
  | entity =>
      -- Whole records are returned by queries without columns and without group keys.
      rcases projection_entity parts hportable hprojection with ⟨hselect, hgroup⟩
      rcases hgroups with hkeys | ⟨x, hx, _⟩
      · rw [hgroup] at hkeys
        exact absurd hkeys Bool.false_ne_true
      · simp only [QueryParts.returned, hselect, hgroup] at hx
        exact absurd hx List.not_mem_nil

include hportable hgroups in
/-- Parts that group documents are compiled to a pipeline. -/
theorem compileParts_error (schema : Schema) (root : String) (e : CompileError)
    (h : compileParts schema root parts = .error e) :
    (interpretation .document).filter parts.filter schema.maxDepth = .error e ∨
      parts.projection = .error e ∨
      ∃ filter columns, parts.projection = .ok (.items columns) ∧
        pipeline filter parts (.items columns) schema.maxDepth = .error e := by
  unfold compileParts at h
  rcases bind_eq_error.mp h with hfilter | ⟨filter, _, h⟩
  · exact .inl hfilter
  · rcases bind_eq_error.mp h with hprojection | ⟨projection, hprojection, h⟩
    · exact .inr (.inl hprojection)
    · rcases projection_items hportable hgroups projection hprojection with ⟨columns, rfl⟩
      rcases bind_eq_error.mp h with hpipeline | ⟨command, _, hrest⟩
      · exact .inr (.inr ⟨filter, columns, hprojection, hpipeline⟩)
      · cases hrest

include hportable hvalid hchecked hregular hgroups

/-- Parts that group documents and have no command are refused for one of the reasons. -/
theorem compileParts_refused (schema : Schema) (root : String) (e : CompileError)
    (h : compileParts schema root parts = .error e) : Refused parts schema.maxDepth e := by
  have hfilter : ∀ leaf ∈ leavesOf parts.filter, leaf.Valid ∧ checkValue leaf = .ok () :=
    fun leaf hleaf => ⟨hvalid.filter leaf hleaf, hchecked.filter leaf hleaf⟩
  have hhaving : ∀ leaf ∈ leavesOf parts.having, leaf.Valid ∧ checkValue leaf = .ok () :=
    fun leaf hleaf => ⟨hvalid.having leaf hleaf, hchecked.having leaf hleaf⟩
  rcases compileParts_error hportable hgroups schema root e h with
    hfirst | hprojection | ⟨filter, columns, hprojection, hpipeline⟩
  · rcases filter_fault .document parts.filter schema.maxDepth hportable.filter hfilter e
        hfirst with
      ⟨c, hc, hdeep, rfl⟩ | ⟨leaf, _, path, hpath, _⟩
    · exact .deep c (.inl hc) hdeep
    · -- On a document no property is without a value.
      rcases List.mem_flatMap.mp hpath with ⟨x, _, hmissing⟩
      rw [Scope.missing_document x] at hmissing
      exact absurd hmissing List.not_mem_nil
  · rcases projection_unnamed parts e hprojection with ⟨x, hx, hlabel, hpath, rfl⟩
    exact .unnamed x hx hlabel hpath
  · -- The grouping never fails, so the error is that of a later stage.
    rcases groupingOf_groups parts hportable hvalid hgroups _ hprojection with
      ⟨stage, group, hgrouping⟩
    rcases groupStage_grouped parts hportable _ hprojection stage group
      (groupStage_of_groupingOf parts _ stage group hgrouping) with
      ⟨keys, values, known, hgrouped⟩
    have hlater := missing_later hgrouped hchecked hregular
    have hreturned := (projection_returned parts hportable _ hprojection).2
    -- What a later stage misses is loose, and the stage is among what comes after the grouping.
    have hungrouped : ∀ xs : List Expression, xs ⊆ parts.later →
        firstUngrouped (xs.flatMap (Scope.grouped group).missing) = some e →
        Refused parts schema.maxDepth e := by
      intro xs hxs hfirst
      rcases firstUngrouped_eq_some hfirst with ⟨path, hpath, rfl⟩
      rcases List.mem_flatMap.mp hpath with ⟨x, hx, hmissing⟩
      rw [hlater x (hxs hx)] at hmissing
      exact .ungrouped x (hxs hx) path hmissing
    rw [pipeline_eq, hgrouping, ok_bind] at hpipeline
    rcases bind_eq_error.mp hpipeline with hgroups | ⟨_, _, hpipeline⟩
    · -- The filter of groups is too deep, or it compares something loose.
      rcases filter_fault _ parts.having schema.maxDepth hportable.having hhaving e hgroups with
        ⟨c, hc, hdeep, rfl⟩ | ⟨leaf, hleaf, path, hpath, rfl⟩
      · exact .deep c (.inr hc) hdeep
      · rcases List.mem_flatMap.mp hpath with ⟨x, hx, hmissing⟩
        have hmem := having_mem_later parts leaf hleaf x hx
        rw [scopeAfter, hlater x hmem] at hmissing
        exact .ungrouped x hmem path hmissing
    · rcases bind_eq_error.mp hpipeline with hsorts | ⟨sorts, _, hpipeline⟩
      · rw [← errorOf?_eq_some, scopeAfter,
          sortStage_missing _ parts.sorts hportable.sorts hvalid.sorts] at hsorts
        exact hungrouped parts.sortExpressions (sort_subset_later parts) hsorts
      · -- Nothing can fail behind the projection.
        rcases bind_eq_error.mp hpipeline with hprojected | ⟨_, _, hrest⟩
        · have hcolumns : columns.map (·.2) = parts.returned := hreturned
          rw [← errorOf?_eq_some, scopeAfter,
            projectStage_missing _ _ columns (hcolumns ▸ hvalid.returned), hcolumns] at hprojected
          exact hungrouped parts.returned (returned_subset_later parts) hprojected
        · cases hrest

/-- Parts that group documents and have a command read nothing but group keys and aggregates
    after the grouping. -/
theorem compileParts_covers (schema : Schema) (root : String) (compiled : Compiled)
    (h : compileParts schema root parts = .ok compiled) :
    ∀ x ∈ parts.later, parts.loose x = [] := by
  rcases command_cases schema root parts hportable.customizers compiled h with
    ⟨filter, projection, _, hprojection, ⟨rfl, _⟩ | ⟨grouping, having, sorts, projected, hmade⟩⟩
  · rcases projection_items hportable hgroups _ hprojection with ⟨columns, heq⟩
    exact absurd heq (by simp only [reduceCtorEq, not_false_eq_true])
  · rcases groupingOf_groups parts hportable hvalid hgroups projection hprojection with
      ⟨stage, group, hgrouping⟩
    have hsome : grouping = some (stage, group) :=
      Except.ok.inj (hmade.grouped.symm.trans hgrouping)
    rw [hsome] at hmade
    rcases groupStage_grouped parts hportable projection hprojection stage group
      (groupStage_of_groupingOf parts projection stage group hgrouping) with
      ⟨keys, values, known, hgrouped⟩
    intro x hx
    -- Each of the later stages has a result, so none of its expressions has a missing property.
    rw [← missing_later hgrouped hchecked hregular x hx]
    simp only [QueryParts.later, List.mem_append] at hx
    -- The expression is a column, a side of a comparison of groups or a sort key.
    rcases hx with (hreturned | hhaving) | hsort
    · rcases projection_items hportable hgroups projection hprojection with ⟨columns, rfl⟩
      have hcolumns : columns.map (·.2) = parts.returned :=
        (projection_returned parts hportable _ hprojection).2
      have hnone := errorOf?_eq_none.mpr ⟨_, hmade.projects⟩
      rw [projectStage_missing _ _ columns (hcolumns ▸ hvalid.returned), hcolumns,
        firstUngrouped_eq_none, List.flatMap_eq_nil_iff] at hnone
      exact hnone x hreturned
    · rcases List.mem_flatMap.mp hhaving with ⟨leaf, hleaf, hside⟩
      have hnone := filter_covers _ parts.having schema.maxDepth hportable.having
        (fun leaf hleaf => ⟨hvalid.having leaf hleaf, hchecked.having leaf hleaf⟩) having
        hmade.filtered leaf hleaf
      rw [Scope.missingSides, List.flatMap_eq_nil_iff] at hnone
      exact hnone x hside
    · have hnone := errorOf?_eq_none.mpr ⟨_, hmade.sorted⟩
      rw [sortStage_missing _ parts.sorts hportable.sorts hvalid.sorts, firstUngrouped_eq_none,
        List.flatMap_eq_nil_iff] at hnone
      exact hnone x hsort

end Compiling

/-- Parts group documents when their pipeline has a stage for it, apart from the search for equal
    rows. -/
theorem groups_iff_stage (schema : Schema) (root : String) (parts : QueryParts)
    (hportable : parts.Portable) (hvalid : parts.Valid) (compiled : Compiled)
    (h : compileParts schema root parts = .ok compiled) :
    parts.Groups ↔ ∃ stages key values, compiled.command = .aggregate stages ∧
      .group key values ∈ stages ∧ key ≠ .wholeDocument := by
  rcases command_cases schema root parts hportable.customizers compiled h with
    ⟨filter, projection, _, hprojection, ⟨rfl, _, sort, skip, limit, _, hfind⟩ |
      ⟨grouping, having, sorts, projected, hmade⟩⟩
  · -- A find of whole records neither groups nor has a stage.
    constructor
    · intro hgroups
      rcases projection_items hportable hgroups _ hprojection with ⟨columns, heq⟩
      exact absurd heq (by simp only [reduceCtorEq, not_false_eq_true])
    · rintro ⟨stages, key, values, hcommand, _⟩
      rw [hfind] at hcommand
      exact absurd hcommand (by simp only [reduceCtorEq, not_false_eq_true])
  · constructor
    · intro hgroups
      rcases groupingOf_groups parts hportable hvalid hgroups projection hprojection with
        ⟨stage, group, hgrouping⟩
      rw [Except.ok.inj (hmade.grouped.symm.trans hgrouping)] at hmade
      rcases groupStage_grouped parts hportable projection hprojection stage group
        (groupStage_of_groupingOf parts projection stage group hgrouping) with
        ⟨keys, values, known, hgrouped⟩
      refine ⟨_, if parts.groupBy.isSome then .fields keys else .none, values, hmade.stages, ?_, ?_⟩
      · refine List.mem_append_right _ (List.mem_append_left _ (List.mem_singleton.mpr ?_))
        exact hgrouped.groups.symm
      · -- The key is null or a document of fields, which is not the whole document.
        split <;> simp only [ne_eq, reduceCtorEq, not_false_eq_true]
    · rintro ⟨stages, key, values, hcommand, hstage, hkey⟩
      rcases madeOf_grouping hportable hprojection hmade stages hcommand key hkey hstage with
        ⟨group, hsome⟩
      have hgrouping := hmade.grouped
      rw [hsome] at hgrouping
      unfold groupingOf at hgrouping
      split at hgrouping
      · rename_i hcondition
        rw [Bool.or_eq_true, hasAggregate_iff parts hportable projection hprojection] at hcondition
        exact hcondition
      · exact absurd hgrouping (by simp only [Except.ok.injEq, reduceCtorEq, not_false_eq_true])

/-- A query that groups documents is well scoped. In its pipeline only filters stand before the
    grouping, the members of a group are numbered, and what is read after it are the fields of
    the group and the clock, with every aggregate call replaced by its accumulator. If a column,
    a sort key or a comparison of groups has a property in no group key and in no aggregate call,
    the query has no command, and unless it is kept from one by the checks, by a condition that
    is too deep or by a column without a name, the error is such a property. -/
theorem grouped_wellScoped (schema : Schema) (root : String) (q : AnyQuery)
    (hportable : q.Portable) (hvalid : q.effective.Valid) (hregular : q.effective.Regular) :
    (∀ compiled, q.handle (compileQuery schema root) (compileAdvanced schema root) = .ok compiled →
      (q.effective.Groups ↔ ∃ stages key values, compiled.command = .aggregate stages ∧
        .group key values ∈ stages ∧ key ≠ .wholeDocument) ∧
      ∀ stages key values, compiled.command = .aggregate stages →
        .group key values ∈ stages → key ≠ .wholeDocument →
        ∃ before group after, stages = before ++ .group key values :: after ∧
          (∀ stage ∈ before, ∃ f, stage = .matching f) ∧
          WellGrouped q.effective key values group after) ∧
    (q.effective.Groups → (∃ x ∈ q.effective.later, q.effective.loose x ≠ []) →
      ∃ e, q.handle (compileQuery schema root) (compileAdvanced schema root) = .error e ∧
        (q.Prepares → Refused q.effective schema.maxDepth e)) := by
  have hparts := portable_effective q hportable
  -- A query that passes the checks is compiled as its parts are.
  have hcompile : q.Prepares → q.handle (compileQuery schema root) (compileAdvanced schema root) =
      compileParts schema root q.effective :=
    handle_prepared (compileParts schema root) q hportable
  have hprepares : ∀ compiled, q.handle (compileQuery schema root) (compileAdvanced schema root) =
      .ok compiled → q.Prepares :=
    prepares_of_compiles (compileParts schema root) q
  constructor
  · intro compiled h
    have hchecked := checked_of_prepares q hportable (hprepares compiled h)
    rw [hcompile (hprepares compiled h)] at h
    refine ⟨groups_iff_stage schema root q.effective hparts hvalid compiled h, ?_⟩
    intro stages key values hcommand hstage hkey
    rcases command_cases schema root q.effective hparts.customizers compiled h with
      ⟨filter, projection, _, hprojection, ⟨_, _, sort, skip, limit, _, hfind⟩ |
        ⟨grouping, having, sorts, projected, hmade⟩⟩
    · -- A find has no stages.
      rw [hfind] at hcommand
      exact absurd hcommand (by simp only [reduceCtorEq, not_false_eq_true])
    · exact madeOf_wellGrouped hparts hvalid hchecked hregular hprojection hmade stages hcommand key
        hkey hstage
  · rintro hgroups ⟨x, hx, hloose⟩
    cases hresult : q.handle (compileQuery schema root) (compileAdvanced schema root) with
    | ok compiled =>
        have hchecked := checked_of_prepares q hportable (hprepares compiled hresult)
        rw [hcompile (hprepares compiled hresult)] at hresult
        exact absurd (compileParts_covers hparts hvalid hchecked hregular hgroups schema root
          compiled hresult x hx) hloose
    | error e =>
        refine ⟨e, rfl, ?_⟩
        intro hprepared
        rw [hcompile hprepared] at hresult
        exact compileParts_refused hparts hvalid (checked_of_prepares q hportable hprepared)
          hregular
          hgroups schema root e hresult

/-- A sum in a call and a call of the group key, with a filter of groups. -/
def sampleGrouped : AdvancedQuery where
  select := some (.items ⟨[], [
    .call .concat [.expression (.property "region" none), .literal (.string "-")] (some "label"),
    .call .abs [.expression (.call .sum [.expression (.property "amount" none)] none)]
      (some "total")]⟩)
  groupBy := some (.items ⟨["region"], []⟩)
  having := some (.simple
    ⟨.call .count [.expression (.property "id" none)] none, .greaterThan,
      some (.scalar (.integer 1))⟩)
  sorts := [.simple ⟨.property "region" none, .ascending⟩]

/-- The same query with a filter of groups that compares with an ungrouped property. -/
def sampleLoose : AdvancedQuery :=
  { sampleGrouped with
    having := some (.simple
      ⟨.call .max [.expression (.property "amount" none)] none, .greaterThan,
        some (.field "cost")⟩) }

/-- What both samples have in common. -/
theorem sample_regular (q : AdvancedQuery)
    (hread : ((AnyQuery.advanced q).effective.read.all fun x =>
      x.paths.all Text.isDottedIdentifier) = true)
    (hliterals : ∀ s, .string s ∈ (AnyQuery.advanced q).effective.literals ++
      (AnyQuery.advanced q).effective.listed → s = "-")
    (hkeys : (AnyQuery.advanced q).effective.keys = [.property "region" none]) :
    (AnyQuery.advanced q).effective.Regular := by
  constructor
  case dotted => exact fun x hx => List.all_eq_true.mp (List.all_eq_true.mp hread x hx)
  case texts =>
    intro s hs
    rw [hliterals s hs]
    exact ⟨by decide, by decide⟩
  case keys =>
    intro x hx
    rw [hkeys] at hx
    rw [List.mem_singleton.mp hx]
    rfl

theorem sampleGrouped_portable : (AnyQuery.advanced sampleGrouped).Portable :=
  ⟨⟨by rintro c ⟨⟩, by decide, by rintro columns ⟨⟩; rfl, rfl, rfl⟩,
    by rintro columns ⟨⟩; rfl, by rintro c ⟨⟩; rfl⟩

theorem sampleLoose_portable : (AnyQuery.advanced sampleLoose).Portable :=
  ⟨⟨by rintro c ⟨⟩, by decide, by rintro columns ⟨⟩; rfl, rfl, rfl⟩,
    by rintro columns ⟨⟩; rfl, by rintro c ⟨⟩; rfl⟩

theorem sampleGrouped_valid : (AnyQuery.advanced sampleGrouped).effective.Valid := by
  constructor
  case filter => exact fun leaf hleaf => absurd hleaf List.not_mem_nil
  case sorts =>
    intro key hkey
    rw [SortKey.simple.inj (List.mem_singleton.mp hkey)]
    rfl
  case select =>
    rintro columns ⟨⟩
    decide
  case groupBy =>
    rintro columns ⟨⟩
    decide
  case having =>
    intro leaf hleaf
    rw [List.mem_singleton.mp hleaf]
    exact ⟨by decide, by rintro v ⟨⟩; rfl, rfl⟩

theorem sampleLoose_valid : (AnyQuery.advanced sampleLoose).effective.Valid where
  filter := sampleGrouped_valid.filter
  sorts := sampleGrouped_valid.sorts
  select := sampleGrouped_valid.select
  groupBy := sampleGrouped_valid.groupBy
  having := by
    intro leaf hleaf
    rw [List.mem_singleton.mp hleaf]
    exact ⟨by decide, by rintro v ⟨⟩; rfl, rfl⟩

/-- The first sample has a command with a well scoped grouping, and the second one is refused
    for the property of its filter of groups. -/
theorem grouped_wellScoped_sample :
    (∃ compiled before key values group after,
      compileAdvanced .default "Order" sampleGrouped = .ok compiled ∧
      compiled.command = .aggregate (before ++ .group key values :: after) ∧
      values.length = 2 ∧
      WellGrouped (AnyQuery.advanced sampleGrouped).effective key values group after) ∧
    compileAdvanced .default "Order" sampleLoose = .error (.typeMismatch (.ungrouped "cost")) ∧
      Refused (AnyQuery.advanced sampleLoose).effective defaultMaxDepth
        (.typeMismatch (.ungrouped "cost")) := by
  constructor
  · have hregular := sample_regular sampleGrouped rfl (by
      intro s hs
      have hliterals : (AnyQuery.advanced sampleGrouped).effective.literals ++
        (AnyQuery.advanced sampleGrouped).effective.listed = [.string "-", .integer 1] := rfl
      rw [hliterals] at hs
      simpa only [List.mem_cons, Literal.string.injEq, reduceCtorEq, List.not_mem_nil,
        or_false] using hs) rfl
    rcases (grouped_wellScoped .default "Order" (.advanced sampleGrouped) sampleGrouped_portable
      sampleGrouped_valid hregular).1 _ rfl with ⟨_, hstages⟩
    rcases hstages _ _ _ rfl List.mem_cons_self (by simp only [ne_eq, reduceCtorEq,
      not_false_eq_true]) with ⟨before, group, after, hcommand, _, hwell⟩
    exact ⟨_, before, _, _, group, after, rfl, congrArg Command.aggregate hcommand, rfl, hwell⟩
  · have hregular := sample_regular sampleLoose rfl (by
      intro s hs
      have hliterals : (AnyQuery.advanced sampleLoose).effective.literals ++
        (AnyQuery.advanced sampleLoose).effective.listed = [.string "-"] := rfl
      rw [hliterals] at hs
      simpa only [List.mem_cons, Literal.string.injEq, List.not_mem_nil, or_false] using hs) rfl
    have hlater : .property "cost" none ∈ (AnyQuery.advanced sampleLoose).effective.later :=
      having_mem_later _ _ (List.mem_singleton.mpr rfl) _ (field_mem_expressions _ "cost" rfl)
    rcases (grouped_wellScoped .default "Order" (.advanced sampleLoose) sampleLoose_portable
      sampleLoose_valid hregular).2 (.inl rfl) ⟨_, hlater, List.cons_ne_nil "cost" []⟩ with
      ⟨e, he, hrefused⟩
    have hungrouped : e = .typeMismatch (.ungrouped "cost") := (Except.error.inj he).symm
    rw [hungrouped] at hrefused
    exact ⟨rfl, hrefused ⟨_, rfl⟩⟩

end Mongo

end Polyquery
