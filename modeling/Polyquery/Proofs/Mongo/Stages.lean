import Polyquery.Mongo.Pipeline
import Polyquery.Proofs.Condition.Results
import Polyquery.Proofs.Json.Members
import Polyquery.Proofs.Query.Expressions

/-!
# The Stages of a Pipeline

How a pipeline of a portable query is put together. The grouping comes first:
it numbers the group keys and the accumulators and writes down which expression
string each of them stands for. What is written down once stays, and an
expression that is written down already gets no second accumulator, so the
accumulators are numbered without a gap (`accumulators_accumulated`).

The later stages are compiled in the scope that the grouping leaves behind.
`MadeOf` names the parts of a pipeline and says where each comes from, and
every command, before customizers adjust it, is a find or is made in that way
(`command_cases`).

## Main definitions

* `keyName`, `valueName`: The fields of a group.
* `Keyed`, `Accumulated`: What the group keys and the accumulators stand for.
* `Grouped`: What a grouping is made of.
* `scopeAfter`: The scope that a grouping leaves behind.
* `MadeOf`: What a pipeline is put together from.

## Theorems

* `mem_extend`, `extend_fresh`, `lookup_extend`: The members of a document that has been
  extended.
* `groupFields_keyed`, `accumulators_accumulated`: The fields of a group.
* `groupStage_grouped`: The grouping of portable parts.
* `sortStage_computed`, `sortStage_names`, `projectStage_items`: The later stages.
* `command_cases`: Every command that nothing has adjusted.
-/

namespace Polyquery.Mongo

section Members

variable {α : Type}

/-- What is in a document that has been extended was there or has been added. -/
theorem mem_extend (members added : List (String × α)) (pair : String × α)
    (h : pair ∈ extend members added) : pair ∈ members ∨ pair ∈ added := by
  unfold extend at h
  induction added generalizing members with
  | nil => exact .inl h
  | cons first rest ih =>
      rcases ih (insertKey first.1 first.2 members) h with hmembers | hrest
      · rcases mem_insertKey first.1 first.2 members pair hmembers with heq | hold
        · exact .inr (List.mem_cons.mpr (.inl heq))
        · exact .inl hold
      · exact .inr (List.mem_cons_of_mem first hrest)

/-- What is new comes last. -/
theorem extend_fresh (members added : List (String × α)) (hnames : (added.map (·.1)).Nodup)
    (hfresh : ∀ pair ∈ added, pair.1 ∉ members.map (·.1)) :
    extend members added = members ++ added := by
  induction added generalizing members with
  | nil => exact (List.append_nil members).symm
  | cons first rest ih =>
      rw [List.map_cons, List.nodup_cons] at hnames
      rw [List.forall_mem_cons] at hfresh
      have hrest : ∀ pair ∈ rest, pair.1 ∉ (members ++ [first]).map (·.1) := by
        intro pair hpair
        rw [List.map_append, List.mem_append, not_or, List.map_singleton, List.mem_singleton]
        refine ⟨hfresh.2 pair hpair, fun heq => hnames.1 ?_⟩
        exact heq ▸ List.mem_map.mpr ⟨pair, hpair, rfl⟩
      change extend (insertKey first.1 first.2 members) rest = _
      rw [insertKey_fresh _ _ _ hfresh.1, ih _ hnames.2 hrest, List.append_assoc,
        List.singleton_append]

/-- What is not added is there as it was. -/
theorem lookup_extend (members added : List (String × α)) (name : String)
    (hname : name ∉ added.map (·.1)) :
    (extend members added).lookup name = members.lookup name := by
  induction added generalizing members with
  | nil => rfl
  | cons first rest ih =>
      rw [List.map_cons, List.mem_cons, not_or] at hname
      change (extend (insertKey first.1 first.2 members) rest).lookup name = _
      rw [ih _ hname.2, lookup_insertKey, if_neg hname.1]

end Members

section Grouping

/-- The name of a group key. -/
def keyName (index : Nat) : String :=
  "g" ++ toString index

/-- The name of an accumulated value. -/
def valueName (index : Nat) : String :=
  "a" ++ toString index

/-- The group keys from an index on, of which the fields stand for the expression strings. -/
structure Keyed (index : Nat) (known : List (String × String)) (es : List Expression)
    (keys : List (String × Expr)) (fields : List (String × String)) : Prop where
  names : keys.map (·.1) = (List.range' index es.length).map keyName
  each : ∀ key ∈ keys, ∃ e ∈ es, ofExpression .document e = .ok key.2
  /-- A field is one that was there before, or it is that of a key. -/
  added : ∀ text field, fields.lookup text = some field → known.lookup text = some field ∨
    ∃ i e, es[i]? = some e ∧ e.text = text ∧ field = "_id." ++ keyName (index + i)
  covers : ∀ text, (fields.lookup text).isSome = true ↔
    (known.lookup text).isSome = true ∨ ∃ e ∈ es, e.text = text

/-- The accumulators from an index on, of which the fields stand for the expression strings. -/
structure Accumulated (index : Nat) (known : List (String × String)) (calls : List Expression)
    (values : List (String × Expr)) (fields : List (String × String)) : Prop where
  names : values.map (·.1) = (List.range' index values.length).map valueName
  each : ∀ value ∈ values, ∃ call ∈ calls, ofExpression .document call = .ok value.2
  /-- What stood for an expression string still does. -/
  kept : ∀ text field, known.lookup text = some field → fields.lookup text = some field
  /-- A field is one that was there before, or it is that of an accumulator. -/
  added : ∀ text field, fields.lookup text = some field → known.lookup text = some field ∨
    ∃ j call value, values[j]? = some (field, value) ∧ field = valueName (index + j) ∧
      call ∈ calls ∧ call.text = text ∧ ofExpression .document call = .ok value
  covers : ∀ call ∈ calls, (fields.lookup call.text).isSome = true

theorem groupFields_keyed (index : Nat) (known : List (String × String)) (es : List Expression)
    (keys : List (String × Expr)) (fields : List (String × String))
    (h : groupFields index known es = .ok (keys, fields)) :
    Keyed index known es keys fields := by
  induction es generalizing index known keys fields with
  | nil =>
      -- Nothing to group by: the fields are the known ones, and there is no key.
      have heq := Prod.mk.inj (Except.ok.inj h)
      rw [← heq.1, ← heq.2]
      constructor
      case names => rfl
      case each => exact fun key hmem => absurd hmem List.not_mem_nil
      case added => exact fun text field hlookup => .inl hlookup
      case covers =>
        intro text
        simp only [List.not_mem_nil, false_and, exists_false, or_false]
  | cons e rest ih =>
      rcases bind_eq_ok.mp h with ⟨value, hvalue, h⟩
      rcases bind_eq_ok.mp h with ⟨⟨others, known'⟩, hothers, h⟩
      have heq := Prod.mk.inj (Except.ok.inj h)
      -- The other keys are numbered one further on, and know the field of this one.
      have hrest := ih (index + 1) _ others known' hothers
      rw [← heq.1, ← heq.2]
      constructor
      case names =>
        rw [List.map_cons, List.length_cons, List.range'_succ, List.map_cons, hrest.names]
        rfl
      case each =>
        rw [List.forall_mem_cons]
        refine ⟨⟨e, List.mem_cons_self, hvalue⟩, ?_⟩
        intro key hmem
        rcases hrest.each key hmem with ⟨e', he', hcompiled⟩
        exact ⟨e', List.mem_cons_of_mem e he', hcompiled⟩
      case added =>
        intro text field hlookup
        -- A field that the other keys already knew is that of this key or older.
        rcases hrest.added text field hlookup with hknown | ⟨i, e', hget, htext, hfield⟩
        · rw [lookup_cons_eq] at hknown
          split at hknown
          · rename_i htext
            exact .inr ⟨0, e, rfl, htext.symm, (Option.some.inj hknown).symm⟩
          · exact .inl hknown
        · -- A field of a later key counts its number from this key.
          refine .inr ⟨i + 1, e', hget, htext, ?_⟩
          rw [hfield, Nat.add_assoc, Nat.add_comm 1 i]
      case covers =>
        intro text
        rw [hrest.covers text, lookup_cons_eq]
        simp only [List.mem_cons, exists_eq_or_imp]
        split
        · rename_i htext
          simp only [Option.isSome_some, true_or, htext, or_true]
        · rename_i htext
          have hne : ¬ e.text = text := fun heq => htext heq.symm
          -- Another string than that of this key is known as it was before.
          simp only [hne, false_or]

theorem accumulators_accumulated (index : Nat) (known : List (String × String))
    (calls : List Expression) (values : List (String × Expr)) (fields : List (String × String))
    (h : accumulators index known calls = .ok (values, fields)) :
    Accumulated index known calls values fields := by
  induction calls generalizing index known values fields with
  | nil =>
      -- Without calls nothing is accumulated, and the fields stay the known ones.
      have heq := Prod.mk.inj (Except.ok.inj h)
      rw [← heq.1, ← heq.2]
      constructor
      case names => rfl
      case each => exact fun value hmem => absurd hmem List.not_mem_nil
      case kept => exact fun text field hlookup => hlookup
      case added => exact fun text field hlookup => .inl hlookup
      case covers => exact fun call hmem => absurd hmem List.not_mem_nil
  | cons call rest ih =>
      simp only [accumulators] at h
      -- A call whose string has a field already is not accumulated a second time.
      by_cases hknown : (known.lookup call.text).isSome = true
      · rw [if_pos hknown] at h
        have hrest := ih index known values fields h
        constructor
        case names => exact hrest.names
        case each =>
          intro value hmem
          rcases hrest.each value hmem with ⟨other, hother, hvalue⟩
          exact ⟨other, List.mem_cons_of_mem call hother, hvalue⟩
        case kept => exact hrest.kept
        case added =>
          intro text field hlookup
          rcases hrest.added text field hlookup with
            hold | ⟨j, other, value, hget, hname, hother, h⟩
          · exact .inl hold
          · exact .inr ⟨j, other, value, hget, hname, List.mem_cons_of_mem call hother, h⟩
        case covers =>
          rw [List.forall_mem_cons]
          refine ⟨?_, hrest.covers⟩
          -- The call is covered by the field that it shares, which is kept to the end.
          rcases Option.isSome_iff_exists.mp hknown with ⟨field, hfield⟩
          -- The field that was just given to the call is kept by the later calls.
          rw [hrest.kept call.text field hfield]
          rfl
      · -- A new call takes the next number, and its string leads to its field from now on.
        rw [if_neg hknown] at h
        rcases bind_eq_ok.mp h with ⟨value, hvalue, h⟩
        rcases bind_eq_ok.mp h with ⟨⟨others, known'⟩, hothers, h⟩
        have heq := Prod.mk.inj (Except.ok.inj h)
        have hrest := ih (index + 1) _ others known' hothers
        rw [← heq.1, ← heq.2]
        constructor
        case names =>
          rw [List.map_cons, List.length_cons, List.range'_succ, List.map_cons, hrest.names]
          rfl
        case each =>
          rw [List.forall_mem_cons]
          refine ⟨⟨call, List.mem_cons_self, hvalue⟩, ?_⟩
          intro other hmem
          rcases hrest.each other hmem with ⟨call', hcall', hcompiled⟩
          exact ⟨call', List.mem_cons_of_mem call hcall', hcompiled⟩
        case kept =>
          intro text field hlookup
          -- A known string is not the one of this call, so its field is not shadowed.
          apply hrest.kept
          rw [lookup_cons_eq, if_neg]
          · exact hlookup
          · rintro rfl
            exact hknown (by rw [hlookup]; rfl)
        case added =>
          intro text field hlookup
          rcases hrest.added text field hlookup with
            hold | ⟨j, other, value', hget, hname, hother, hrest'⟩
          · -- Older than the later calls: this call's own field, or one known before it.
            rw [lookup_cons_eq] at hold
            split at hold
            · rename_i htext
              have hfield := Option.some.inj hold
              refine .inr ⟨0, call, value, ?_, hfield.symm, List.mem_cons_self, htext.symm, hvalue⟩
              rw [← hfield]
              rfl
            · exact .inl hold
          · refine .inr ⟨j + 1, other, value', hget, ?_, List.mem_cons_of_mem call hother, hrest'⟩
            rw [hname, Nat.add_assoc, Nat.add_comm 1 j]
        case covers =>
          rw [List.forall_mem_cons]
          refine ⟨?_, hrest.covers⟩
          rw [hrest.kept call.text ("a" ++ toString index)]
          · rfl
          · rw [lookup_cons_eq, if_pos rfl]

/-- What a grouping of portable parts is made of: the group keys, the accumulators and the
    fields of the keys. -/
structure Grouped (parts : QueryParts) (keys values : List (String × Expr))
    (known : List (String × String)) (stage : Stage) (group : GroupScope) : Prop where
  keyed : Keyed 0 [] parts.keys keys known
  accumulated : Accumulated 0 known parts.calls values group.fields
  groups : stage = .group (if parts.groupBy.isSome then .fields keys else .none) values
  portable : group.nativeKey = false

theorem aggregateCalls_eq (parts : QueryParts) (hportable : parts.Portable)
    (projection : Projection) (h : parts.projection = .ok projection) :
    aggregateCalls parts projection = parts.calls := by
  rcases projection_returned parts hportable projection h with ⟨hnative, hreturned⟩
  unfold QueryParts.calls aggregateCalls
  rw [← hreturned]
  cases projection with
  | items columns => rw [Projection.expressions, List.flatMap_map]
  | entity => rfl
  | native piece => exact absurd rfl (hnative piece)

/-- Whether there is something to aggregate is a matter of what the query returns. -/
theorem hasAggregate_iff (parts : QueryParts) (hportable : parts.Portable)
    (projection : Projection) (h : parts.projection = .ok projection) :
    hasAggregate projection = true ↔ ∃ x ∈ parts.returned, x.aggregate?.isSome = true := by
  rcases projection_returned parts hportable projection h with ⟨hnative, hreturned⟩
  rw [← hreturned]
  cases projection with
  | native piece => exact absurd rfl (hnative piece)
  | entity =>
      simp only [hasAggregate, Projection.expressions, Bool.false_eq_true, List.not_mem_nil,
        false_and, exists_false]
  | items columns =>
      simp only [hasAggregate, Projection.expressions, List.any_eq_true, List.mem_map,
        exists_exists_and_eq_and]

theorem groupStage_grouped (parts : QueryParts) (hportable : parts.Portable)
    (projection : Projection) (hprojection : parts.projection = .ok projection)
    (stage : Stage) (group : GroupScope) (h : groupStage parts projection = .ok (stage, group)) :
    ∃ keys values known, Grouped parts keys values known stage group := by
  rcases bind_eq_ok.mp h with ⟨⟨key, before⟩, hkey, h⟩
  rcases bind_eq_ok.mp h with ⟨⟨values, fields⟩, hvalues, h⟩
  have heq := Prod.mk.inj (Except.ok.inj h)
  rw [aggregateCalls_eq parts hportable projection hprojection] at hvalues
  have haccumulated := accumulators_accumulated 0 before.fields parts.calls values fields hvalues
  rw [← heq.1, ← heq.2]
  -- What the keys are made of depends on whether there is a group-by.
  cases hgroup : parts.groupBy with
  | none =>
      -- All records are one group: its key is null, and no field stands for it.
      rw [hgroup] at hkey
      have hnone := Prod.mk.inj (Except.ok.inj hkey)
      rw [← hnone.1, ← hnone.2]
      rw [← hnone.2] at haccumulated
      refine ⟨[], values, [], ?_, haccumulated, ?_, rfl⟩
      · unfold QueryParts.keys
        rw [hgroup]
        exact groupFields_keyed 0 [] [] [] [] rfl
      · rw [hgroup]
        rfl
  | some columns =>
      rw [hgroup] at hkey
      cases columns with
      | native piece => exact absurd (hportable.groupBy _ hgroup) (by
          simp only [Selection.isNative, reduceCtorEq, not_false_eq_true])
      | items list =>
          -- One numbered field for each expression of the group-by.
          rcases bind_eq_ok.mp hkey with ⟨⟨keys, known⟩, hkeys, hkey⟩
          have hsome := Prod.mk.inj (Except.ok.inj hkey)
          rw [← hsome.1, ← hsome.2]
          rw [← hsome.2] at haccumulated
          refine ⟨keys, values, known, ?_, haccumulated, ?_, rfl⟩
          · unfold QueryParts.keys
            rw [hgroup]
            exact groupFields_keyed 0 [] list.effective keys known hkeys
          · rw [hgroup]
            rfl

/-- A field that an expression can stand for after the grouping is a group key or an
    accumulated value. -/
theorem Grouped.field {parts : QueryParts} {keys values : List (String × Expr)}
    {known : List (String × String)} {stage : Stage} {group : GroupScope}
    (h : Grouped parts keys values known stage group) (text field : String)
    (hlookup : group.fields.lookup text = some field) :
    (∃ i < parts.keys.length, field = "_id." ++ keyName i) ∨
      ∃ j < values.length, field = valueName j := by
  rcases h.accumulated.added text field hlookup with hknown | ⟨j, call, value, hget, hname, _⟩
  · rcases h.keyed.added text field hknown with hnone | ⟨i, e, hget, _, hfield⟩
    · exact absurd hnone (by simp only [List.lookup_nil, reduceCtorEq, not_false_eq_true])
    · rw [Nat.zero_add] at hfield
      exact .inl ⟨i, (List.getElem?_eq_some_iff.mp hget).1, hfield⟩
  · rw [Nat.zero_add] at hname
    exact .inr ⟨j, (List.getElem?_eq_some_iff.mp hget).1, hname⟩

end Grouping

/-- The scope that a grouping leaves behind, if there is one. -/
def scopeAfter : Option (Stage × GroupScope) → Scope
  | some (_, group) => .grouped group
  | none => .document

/-- The grouping of a pipeline, if there is something to group or to aggregate. -/
def groupingOf (parts : QueryParts) (projection : Projection) :
    Except CompileError (Option (Stage × GroupScope)) :=
  if parts.groupBy.isSome || hasAggregate projection then (groupStage parts projection).map some
  else .ok none

/-- The grouping of a pipeline that has one. -/
theorem groupStage_of_groupingOf (parts : QueryParts) (projection : Projection)
    (stage : Stage) (group : GroupScope)
    (h : groupingOf parts projection = .ok (some (stage, group))) :
    groupStage parts projection = .ok (stage, group) := by
  unfold groupingOf at h
  -- Only the branch that groups gives a grouping.
  split at h
  · rcases map_eq_ok.mp h with ⟨found, hfound, heq⟩
    rw [hfound, Option.some.inj heq]
  · exact absurd (Except.ok.inj h) (by simp only [reduceCtorEq, not_false_eq_true])

/-- The stages that come after the grouping. -/
def laterStages (parts : QueryParts) (projection : Projection) (having : Option Filter)
    (sorts : SortStage) (projected : List Stage) : List Stage :=
  having.toList.map .matching ++ projected ++ distinctStages parts.distinct projection ++
    (if sorts.sort.isEmpty then [] else [.sort sorts.sort]) ++ pageStages parts.pagination ++
    (if sorts.computed.isEmpty then [] else [.unset (sorts.computed.map (·.1))])

/-- What a pipeline is put together from. -/
structure MadeOf (maxDepth : Nat) (parts : QueryParts) (projection : Projection)
    (filter : Option Filter) (grouping : Option (Stage × GroupScope)) (having : Option Filter)
    (sorts : SortStage) (projected : List Stage) (command : Command) : Prop where
  grouped : groupingOf parts projection = .ok grouping
  filtered : (interpretation (scopeAfter grouping)).filter parts.having maxDepth = .ok having
  sorted : sortStage (scopeAfter grouping) parts.sorts = .ok sorts
  projects : projectStage (scopeAfter grouping) sorts.computed projection = .ok projected
  stages : command = .aggregate (filter.toList.map .matching ++
    ((grouping.toList.map fun group => group.1) ++
      laterStages parts projection having sorts projected))

/-- A pipeline from the grouping on. -/
def pipelineFrom (filter : Option Filter) (parts : QueryParts) (projection : Projection)
    (maxDepth : Nat) (grouping : Option (Stage × GroupScope)) : Except CompileError Command := do
  let having ← (interpretation (scopeAfter grouping)).filter parts.having maxDepth
  let sorts ← sortStage (scopeAfter grouping) parts.sorts
  let projected ← projectStage (scopeAfter grouping) sorts.computed projection
  return .aggregate (filter.toList.map .matching ++
    ((grouping.toList.map fun group => group.1) ++
      laterStages parts projection having sorts projected))

theorem pipeline_eq (filter : Option Filter) (parts : QueryParts) (projection : Projection)
    (maxDepth : Nat) :
    pipeline filter parts projection maxDepth =
      groupingOf parts projection >>= pipelineFrom filter parts projection maxDepth := by
  -- What follows is the same, with the stages in another grouping of brackets.
  have hrest : ∀ grouping : Option (Stage × GroupScope), (do
      let having ← havingStages (scopeAfter grouping) parts.having maxDepth
      let sorts ← sortStage (scopeAfter grouping) parts.sorts
      let projected ← projectStage (scopeAfter grouping) sorts.computed projection
      return Command.aggregate (
        filter.toList.map .matching ++
        (grouping.toList.map fun group => group.1) ++
        having ++
        projected ++
        distinctStages parts.distinct projection ++
        (if sorts.sort.isEmpty then [] else [.sort sorts.sort]) ++
        pageStages parts.pagination ++
        (if sorts.computed.isEmpty then [] else [.unset (sorts.computed.map (·.1))]))) =
      pipelineFrom filter parts projection maxDepth grouping := by
    intro grouping
    simp only [pipelineFrom, laterStages, havingStages, List.append_assoc, bind_assoc, pure_bind]
  unfold pipeline groupingOf
  by_cases hgroups : (parts.groupBy.isSome || hasAggregate projection) = true
  · simp only [if_pos hgroups]
    cases groupStage parts projection with
    | error e => rfl
    | ok group => exact hrest (some group)
  · simp only [if_neg hgroups]
    exact hrest none

/-- A pipeline is made in that way. -/
theorem pipeline_madeOf (maxDepth : Nat) (filter : Option Filter) (parts : QueryParts)
    (projection : Projection) (command : Command)
    (h : pipeline filter parts projection maxDepth = .ok command) :
    ∃ grouping having sorts projected,
      MadeOf maxDepth parts projection filter grouping having sorts projected command := by
  rw [pipeline_eq] at h
  rcases bind_eq_ok.mp h with ⟨grouping, hgrouping, h⟩
  rcases bind_eq_ok.mp h with ⟨having, hhaving, h⟩
  rcases bind_eq_ok.mp h with ⟨sorts, hsorts, h⟩
  rcases bind_eq_ok.mp h with ⟨projected, hprojected, h⟩
  exact ⟨grouping, having, sorts, projected, hgrouping, hhaving, hsorts, hprojected,
    (Except.ok.inj h).symm⟩

/-- A command that nothing has adjusted is a find of whole records or a pipeline. -/
theorem command_cases (schema : Schema) (root : String) (parts : QueryParts)
    (hcustomizers : parts.customizers = []) (compiled : Compiled)
    (h : compileParts schema root parts = .ok compiled) :
    ∃ filter projection,
      (interpretation .document).filter parts.filter schema.maxDepth = .ok filter ∧
      parts.projection = .ok projection ∧
      ((projection = .entity ∧ parts.groupBy = none ∧
          ∃ sort skip limit, findSort [] parts.sorts = .ok sort ∧
            compiled.command = .find (filter.getD .all) sort skip limit) ∨
        ∃ grouping having sorts projected,
          MadeOf schema.maxDepth parts projection filter grouping having sorts projected
            compiled.command) := by
  unfold compileParts at h
  rcases bind_eq_ok.mp h with ⟨filter, hfilter, h⟩
  rcases bind_eq_ok.mp h with ⟨projection, hprojection, h⟩
  -- No customizer is of this backend, so the command is not adjusted.
  have hnone : matchingCustomizers Payload.asCommandAdjustment? parts.customizers = [] := by
    rw [hcustomizers]
    rfl
  refine ⟨filter, projection, hfilter, hprojection, ?_⟩
  simp only [hnone, adjustAll_nil] at h
  -- Whatever the columns are, a pipeline is made in the way that `MadeOf` says.
  have hpipeline : ∀ columns, (pipeline filter parts projection schema.maxDepth >>= fun command =>
        .ok (Compiled.mk (schema.tableName root) command columns)) = .ok compiled →
      ∃ grouping having sorts projected,
        MadeOf schema.maxDepth parts projection filter grouping having sorts projected
          compiled.command := by
    intro columns h
    rcases bind_eq_ok.mp h with ⟨command, hcommand, h⟩
    rw [← Except.ok.inj h]
    exact pipeline_madeOf schema.maxDepth filter parts projection command hcommand
  -- Only whole records without a group-by may be found without a pipeline,
  split at h
  · rename_i _ _ hgroups
    -- and of these only records that need not be distinct or sorted by a computed value.
    split at h
    · exact .inr (hpipeline _ h)
    · rcases bind_eq_ok.mp h with ⟨command, hcommand, h⟩
      rcases bind_eq_ok.mp hcommand with ⟨sort, hsort, hfind⟩
      rw [← Except.ok.inj h, ← Except.ok.inj hfind]
      exact .inl ⟨rfl, hgroups, sort, _, _, hsort, rfl⟩
  · exact .inr (hpipeline _ h)

section Later

variable (scope : Scope)

/-- A field that is computed to sort by comes from a sort key and has its number. -/
theorem sortStage_computed (keys : List SortKey) (stage : SortStage)
    (h : sortStage scope keys = .ok stage) :
    ∀ field ∈ stage.computed, ∃ i key, keys[i]? = some (.simple key) ∧ field.1 = sortName i ∧
      ofExpression scope key.expression = .ok field.2 := by
  -- A field was there before or comes from one of the keys that are still to come.
  have hfrom : ∀ (keys : List SortKey) (index : Nat) (before stage : SortStage),
      sortStageFrom scope index before keys = .ok stage →
      ∀ field ∈ stage.computed, field ∈ before.computed ∨
        ∃ i key, keys[i]? = some (.simple key) ∧ field.1 = sortName (index + i) ∧
          ofExpression scope key.expression = .ok field.2 := by
    intro keys
    induction keys with
    | nil =>
        intro index before stage h field hmem
        rw [← Except.ok.inj h] at hmem
        exact .inl hmem
    | cons key rest ih =>
        intro index before stage h field hmem
        cases key with
        | native piece =>
            rcases bind_eq_ok.mp h with ⟨keys, _, h⟩
            refine (ih _ _ stage h field hmem).imp_right ?_
            rintro ⟨i, key', hkey', hname, hcompiled⟩
            exact ⟨i + 1, key', hkey', hname.trans (by rw [Nat.add_assoc, Nat.add_comm 1]),
              hcompiled⟩
        | simple key =>
            rcases bind_eq_ok.mp h with ⟨value, hvalue, h⟩
            rcases ih _ _ stage h field hmem with hbefore | ⟨i, key', hkey', hname, hcompiled⟩
            · rcases List.mem_append.mp hbefore with hold | hnew
              · exact .inl hold
              · rw [List.mem_singleton.mp hnew]
                exact .inr ⟨0, key, rfl, rfl, hvalue⟩
            · exact .inr ⟨i + 1, key', hkey',
                hname.trans (by rw [Nat.add_assoc, Nat.add_comm 1]), hcompiled⟩
  intro field hmem
  rcases hfrom keys 0 _ stage h field hmem with hnone | ⟨i, key, hkey, hname, hcompiled⟩
  · exact absurd hnone List.not_mem_nil
  · exact ⟨i, key, hkey, hname.trans (by rw [Nat.zero_add]), hcompiled⟩

/-- The fields to sort by are numbered. -/
theorem sortStage_names (keys : List SortKey) (hportable : ∀ key ∈ keys, key.isNative = false)
    (stage : SortStage) (h : sortStage scope keys = .ok stage) :
    stage.computed.map (·.1) = (List.range keys.length).map sortName := by
  -- Behind the fields that were there before stand those of the keys, from the index on.
  have hfrom : ∀ (keys : List SortKey) (index : Nat) (before stage : SortStage),
      (∀ key ∈ keys, key.isNative = false) →
      sortStageFrom scope index before keys = .ok stage →
      stage.computed.map (·.1) =
        before.computed.map (·.1) ++ (List.range' index keys.length).map sortName := by
    intro keys
    induction keys with
    | nil =>
        intro index before stage _ h
        rw [← Except.ok.inj h]
        exact (List.append_nil _).symm
    | cons key rest ih =>
        intro index before stage hportable h
        rw [List.forall_mem_cons] at hportable
        cases key with
        | native piece => exact absurd hportable.1 (by
            simp only [SortKey.isNative, reduceCtorEq, not_false_eq_true])
        | simple key =>
            rcases bind_eq_ok.mp h with ⟨value, _, h⟩
            rw [ih _ _ stage hportable.2 h, List.map_append, List.length_cons, List.range'_succ,
              List.map_cons, List.append_assoc]
            rfl
  rw [hfrom keys 0 _ stage hportable h, List.range_eq_range']
  rfl

theorem hidden_names (computed : List (String × Expr)) :
    (projectStage.hidden computed).map (·.1) = computed.map (·.1) := by
  rw [projectStage.hidden, List.map_map]
  rfl

/-- The projection of columns computes the columns and the fields to sort by. -/
theorem projectStage_items (computed : List (String × Expr))
    (columns : List (String × Expression)) (stages : List Stage)
    (h : projectStage scope computed (.items columns) = .ok stages) :
    ∃ fields, stages = [.project fields] ∧
      ∀ field ∈ fields, field.2 = .omitted ∨
        ∃ value, field.2 = .computed value ∧
          ((∃ x ∈ columns.map (·.2), ofExpression scope x = .ok value) ∨
            ∃ name, (name, value) ∈ computed) := by
  rcases bind_eq_ok.mp h with ⟨fields, hfields, h⟩
  refine ⟨_, (Except.ok.inj h).symm, ?_⟩
  intro field hmem
  rcases mem_extend _ _ field hmem with hcolumns | hcomputed
  · rcases mem_extend _ _ field hcolumns with hidentity | hcolumn
    · rw [List.mem_singleton.mp hidentity]
      exact .inl rfl
    · rcases exists_of_mapM hfields field hcolumn with ⟨⟨name, x⟩, hx, hfield⟩
      rcases map_eq_ok.mp hfield with ⟨value, hvalue, heq⟩
      rw [← heq]
      exact .inr ⟨value, rfl, .inl ⟨x, List.mem_map.mpr ⟨(name, x), hx, rfl⟩, hvalue⟩⟩
  · rcases List.mem_map.mp hcomputed with ⟨⟨name, value⟩, hpair, heq⟩
    rw [← heq]
    exact .inr ⟨value, rfl, .inr ⟨name, hpair⟩⟩

end Later

end Polyquery.Mongo
