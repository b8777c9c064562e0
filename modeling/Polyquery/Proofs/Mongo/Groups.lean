import Polyquery.Proofs.Mongo.Aggregates
import Polyquery.Proofs.Mongo.Positions

/-!
# Expressions of Groups

What the stages after the grouping read. A grouping leaves nothing of a document
but its own fields, and these are found by expression string: one for each group
key and one for each aggregate call. An aggregate call never has the string of a
group key without aggregates, so each call of the query has an accumulator, and
what stands above such a call has no field of its own.

Whatever is compiled after the grouping therefore refers to nothing but the
fields of the group and the clock, and no aggregate is applied in it: it is the
expression of the query with every outermost aggregate call replaced.

## Main definitions

* `QueryParts.Regular`: Parts that the statements here are about.
* `GroupReference`: The references to the fields of a group.
* `Filter.Computed`: Filters that test expressions only.
* `GroupedExpression`: What is known of an expression after the grouping.
* `WellGrouped`: What is known of a pipeline from the grouping on.

## Theorems

* `Grouped.lookup_cases`, `Grouped.lookup_isSome_iff`: What a field stands for.
* `Grouped.call_accumulated`: Aggregate calls have accumulators.
* `ofExpression_replaced`: An expression after the grouping.
* `after_groupReference`: Its references.
* `madeOf_grouping`, `madeOf_wellGrouped`: Pipelines.
-/

namespace Polyquery

/-- Parts whose paths are made of identifiers, whose texts are neither empty nor start with the
    sign of references, and whose group keys hold no aggregate. -/
structure QueryParts.Regular (parts : QueryParts) : Prop where
  dotted : ∀ x ∈ parts.read, x.Dotted
  texts : ∀ s, .string s ∈ parts.literals ++ parts.listed → s ≠ "" ∧ ¬ Mongo.Signed s
  keys : ∀ x ∈ parts.keys, x.aggregate? = none

namespace Mongo

/-- A reference to a field of a group with a number of keys and of accumulators, or to the
    clock. -/
inductive GroupReference (keys values : Nat) : String → Prop where
  | key (index : Nat) (h : index < keys) : GroupReference keys values ("$_id." ++ keyName index)
  | value (index : Nat) (h : index < values) : GroupReference keys values ("$" ++ valueName index)
  | clock : GroupReference keys values "$$NOW"

/-- A filter that tests expressions and no field by itself. -/
inductive Filter.Computed : Filter → Prop where
  | all : Computed .all
  | expr (condition : Expr) : Computed (.expr condition)
  | and (parts : List Filter) (h : ∀ part ∈ parts, Computed part) : Computed (.and parts)
  | or (parts : List Filter) (h : ∀ part ∈ parts, Computed part) : Computed (.or parts)

theorem call_isAggregateCall (parts : QueryParts) (call : Expression) (h : call ∈ parts.calls) :
    call.isAggregateCall = true := by
  have hcall : ∀ x : Expression, call ∈ x.aggregateCalls → call.isAggregateCall = true := by
    intro x hx
    rcases Expression.aggregateCalls_aggregate x call hx with
      ⟨function, arguments, label, heq, haggregate⟩
    rw [heq]
    exact haggregate
  rcases List.mem_append.mp h with hreturned | hhaving
  · rcases List.mem_flatMap.mp hreturned with ⟨x, _, hx⟩
    exact hcall x hx
  · rcases List.mem_flatMap.mp hhaving with ⟨leaf, _, hx⟩
    exact hcall leaf.left hx

section Regular

variable {parts : QueryParts} (hregular : parts.Regular)

include hregular

theorem call_dotted (call : Expression) (h : call ∈ parts.calls) : call.Dotted := by
  rcases call_part parts call h with ⟨x, hx, hpart⟩
  exact fun path hpath => hregular.dotted x hx path (hpart.paths hpath)

/-- What has the expression string of a group key has no aggregate in it either. -/
theorem plain_of_key_text (x key : Expression) (hx : x.Dotted) (hkey : key ∈ parts.keys)
    (htext : key.text = x.text) : x.aggregate? = none := by
  have hsame := Expression.aggregate?_of_text key x
    (hregular.dotted key (key_mem_read parts key hkey))
    hx htext
  rw [hregular.keys key hkey] at hsame
  exact Option.isSome_eq_false_iff.mp hsame.symm |> Option.isNone_iff_eq_none.mp

end Regular

section Lookup

variable {parts : QueryParts} {keys values : List (String × Expr)}
  {known : List (String × String)} {stage : Stage} {group : GroupScope}
  (hgrouped : Grouped parts keys values known stage group)

include hgrouped

/-- A field stands for the expression string of a group key, or it is an accumulator. -/
theorem Grouped.lookup_cases (text field : String)
    (hlookup : group.fields.lookup text = some field) :
    (∃ key ∈ parts.keys, key.text = text) ∨
      ∃ call ∈ parts.calls, call.text = text ∧ ∃ index value, field = valueName index ∧
        ofExpression .document call = .ok value ∧
        values[index]? = some (valueName index, value) := by
  rcases hgrouped.accumulated.added text field hlookup with
    hknown | ⟨index, call, value, hvalue, hfield, hmem, htext, hcompiled⟩
  · rcases hgrouped.keyed.added text field hknown with hnone | ⟨i, key, hkey, htext, _⟩
    · exact absurd hnone (by simp only [List.lookup_nil, reduceCtorEq, not_false_eq_true])
    · exact .inl ⟨key, List.mem_of_getElem? hkey, htext⟩
  · rw [Nat.zero_add] at hfield
    rw [hfield] at hvalue
    exact .inr ⟨call, hmem, htext, index, value, hfield, hcompiled, hvalue⟩

variable (hregular : parts.Regular)

include hregular

/-- A field stands for an expression that is no aggregate as a whole if the expression is a
    group key. -/
theorem Grouped.lookup_isSome_iff (x : Expression) (hx : x.Dotted)
    (hplain : x.isAggregateCall = false) :
    (group.fields.lookup x.text).isSome = true ↔ ∃ key ∈ parts.keys, key.text = x.text := by
  constructor
  · intro hsome
    rcases Option.isSome_iff_exists.mp hsome with ⟨field, hlookup⟩
    rcases hgrouped.lookup_cases x.text field hlookup with hkey | ⟨call, hcall, htext, _⟩
    · exact hkey
    · -- An accumulator stands for calls only.
      have hsame := Expression.isAggregateCall_of_text call x (call_dotted hregular call hcall) hx
        htext
      rw [hplain, call_isAggregateCall parts call hcall] at hsame
      exact absurd hsame (by decide)
  · intro hkey
    rcases Option.isSome_iff_exists.mp ((hgrouped.keyed.covers x.text).mpr (.inr hkey)) with
      ⟨field, hlookup⟩
    rw [hgrouped.accumulated.kept x.text field hlookup]
    rfl

/-- Nothing stands for what lies above an aggregate call. -/
theorem Grouped.lookup_above (x : Expression) (hx : x.Dotted) (hplain : x.isAggregateCall = false)
    (haggregate : x.aggregate?.isSome = true) : group.fields.lookup x.text = none := by
  cases hlookup : group.fields.lookup x.text with
  | none => rfl
  | some field =>
      rcases (hgrouped.lookup_isSome_iff hregular x hx hplain).mp (by rw [hlookup]; rfl) with
        ⟨key, hkey, htext⟩
      rw [plain_of_key_text hregular x key hx hkey htext] at haggregate
      exact absurd haggregate (by decide)

/-- An aggregate call of the query is the field of an accumulator. -/
theorem Grouped.call_accumulated (call : Expression) (hcall : call ∈ parts.calls) :
    ∃ index, Accumulates values index call ∧
      group.fields.lookup call.text = some (valueName index) := by
  rcases Option.isSome_iff_exists.mp (hgrouped.accumulated.covers call hcall) with ⟨field, hlookup⟩
  have hdotted := call_dotted hregular call hcall
  rcases hgrouped.lookup_cases call.text field hlookup with
    ⟨key, hkey, htext⟩ | ⟨other, _, htext, index, value, hfield, hcompiled, hvalue⟩
  · -- A group key has no aggregate, but the call is one.
    have hplain := plain_of_key_text hregular call key hdotted hkey htext
    have haggregate := call_isAggregateCall parts call hcall
    cases call with
    | property path label => exact absurd haggregate Bool.false_ne_true
    | call function arguments label =>
        simp only [Expression.isAggregateCall] at haggregate
        simp only [Expression.aggregate?, haggregate, if_true, reduceCtorEq] at hplain
  · rw [hfield] at hlookup
    exact ⟨index, ⟨other, value, htext, hcompiled, hvalue⟩, hlookup⟩

end Lookup

section Replacing

variable {parts : QueryParts} {keys values : List (String × Expr)}
  {known : List (String × String)} {stage : Stage} {group : GroupScope}

mutual

/-- After the grouping an expression is what remains when its aggregate calls are replaced. -/
theorem ofExpression_replaced (hgrouped : Grouped parts keys values known stage group)
    (hregular : parts.Regular) :
    ∀ (x : Expression) (e : Expr), x.Dotted → (∀ call ∈ x.aggregateCalls, call ∈ parts.calls) →
      ofExpression (.grouped group) x = .ok e → Replaced group values x e
  | .property path label, e, _, _, h => .free _ e rfl h
  | .call function arguments label, e, hdotted, hcalls, h => by
      simp only [Expression.aggregateCalls] at hcalls
      cases haggregate : function.isAggregate with
      | true =>
          rw [if_pos haggregate, List.forall_mem_singleton] at hcalls
          rcases hgrouped.call_accumulated hregular _ hcalls with ⟨index, haccumulates, hlookup⟩
          simp only [ofExpression, Scope.fieldOf?, hlookup] at h
          rw [← Except.ok.inj h]
          exact .accumulated (.call function arguments label) haggregate index haccumulates
      | false =>
          rw [if_neg (Bool.eq_false_iff.mp haggregate)] at hcalls
          have hbelow : (Expression.call function arguments label).aggregate? =
              Expression.argumentAggregate? arguments := by
            simp only [Expression.aggregate?, haggregate, Bool.false_eq_true, if_false]
          cases hnone : Expression.argumentAggregate? arguments with
          | none => exact .free _ e (hbelow.trans hnone) h
          | some found =>
              -- With an aggregate below it the call has no field, so it is built again.
              have hlookup := hgrouped.lookup_above hregular _ hdotted haggregate
                (by rw [hbelow, hnone]; rfl)
              simp only [ofExpression, Scope.fieldOf?, hlookup] at h
              rcases bind_eq_ok.mp h with ⟨es, hes, happly⟩
              exact .rebuilt function haggregate arguments label es e
                (ofArguments_replaced hgrouped hregular arguments es hdotted hcalls hes) happly

/-- So are the arguments of a call. -/
theorem ofArguments_replaced (hgrouped : Grouped parts keys values known stage group)
    (hregular : parts.Regular) :
    ∀ (arguments : List Argument) (es : List Expr),
      (∀ path ∈ Expression.argumentPaths arguments, Text.isDottedIdentifier path = true) →
      (∀ call ∈ Expression.argumentAggregateCalls arguments, call ∈ parts.calls) →
      ofArguments (.grouped group) arguments = .ok es → ReplacedAll group values arguments es
  | [], es, _, _, h => by
      simp only [ofArguments] at h
      rw [← Except.ok.inj h]
      exact .nil
  | .expression value :: rest, es, hdotted, hcalls, h => by
      simp only [Expression.argumentPaths, List.forall_mem_append] at hdotted
      simp only [Expression.argumentAggregateCalls, List.forall_mem_append] at hcalls
      simp only [ofArguments] at h
      rcases bind_eq_ok.mp h with ⟨first, hfirst, h⟩
      rcases bind_eq_ok.mp h with ⟨others, hothers, h⟩
      rw [← Except.ok.inj h]
      exact .expression value first rest others
        (ofExpression_replaced hgrouped hregular value first hdotted.1 hcalls.1 hfirst)
        (ofArguments_replaced hgrouped hregular rest others hdotted.2 hcalls.2 hothers)
  | .literal value :: rest, es, hdotted, hcalls, h => by
      simp only [ofArguments] at h
      rcases bind_eq_ok.mp h with ⟨others, hothers, h⟩
      rw [← Except.ok.inj h]
      exact .literal value rest others
        (ofArguments_replaced hgrouped hregular rest others hdotted hcalls hothers)

end

end Replacing

section After

variable {parts : QueryParts} {keys values : List (String × Expr)}
  {known : List (String × String)} {stage : Stage} {group : GroupScope}
  (hgrouped : Grouped parts keys values known stage group)

include hgrouped

/-- The fields of a group are its keys and its accumulators. -/
theorem Grouped.groupReference (text : String) (h : group.Refers (.reference text)) :
    GroupReference parts.keys.length values.length text := by
  rcases h with ⟨found, field, hlookup, hm⟩
  rw [Mark.reference.inj hm]
  rcases hgrouped.field found field hlookup with ⟨i, hi, hfield⟩ | ⟨k, hk, hfield⟩
  · have hreference : "$" ++ ("_id." ++ keyName i) = "$_id." ++ keyName i := by
      rw [← String.append_assoc]
      rfl
    rw [hfield, hreference]
    exact .key i hi
  · rw [hfield]
    exact .value k hk

/-- After the grouping an expression refers to the group and to the clock. -/
theorem marks_groupReference (x : Expression) (text : String)
    (h : .reference text ∈ (Scope.grouped group).marks x) :
    GroupReference parts.keys.length values.length text := by
  rcases marks_grouped group hgrouped.portable x _ h with
    hrefers | ⟨path, hpath, _⟩ | ⟨_, hclock⟩ | ⟨s, _, _, hquoted⟩
  · exact hgrouped.groupReference text hrefers
  · exact absurd hpath List.not_mem_nil
  · rw [Mark.reference.inj hclock]
    exact .clock
  · exact absurd hquoted (by simp only [reduceCtorEq, not_false_eq_true])

variable (hregular : parts.Regular)

include hregular

/-- So does a comparison of groups, because no text of the query is a reference. -/
theorem leafMarks_groupReference (leaf : SimpleCondition) (hleaf : leaf ∈ leavesOf parts.having)
    (text : String) (h : .reference text ∈ (Scope.grouped group).leafMarks leaf) :
    GroupReference parts.keys.length values.length text := by
  have hmem := having_mem_leaves parts leaf hleaf
  rcases leafMarks_cases _ leaf _ h with
    ⟨x, _, hx⟩ | ⟨s, _, _, hquoted⟩ | ⟨s, hs, _, hsigned⟩ | ⟨_, hvalue, _⟩
  · exact marks_groupReference hgrouped x text hx
  · exact absurd hquoted (by simp only [reduceCtorEq, not_false_eq_true])
  · have hlisted := List.mem_flatMap.mpr ⟨leaf, hmem, hs⟩
    exact absurd hsigned (hregular.texts s (List.mem_append_right _ hlisted)).2
  · have hscalar : .string "" ∈ leaf.scalar := by
      rw [SimpleCondition.scalar, hvalue]
      exact List.mem_singleton.mpr rfl
    have hliteral := List.mem_append_right (parts.read.flatMap Expression.literals)
      (List.mem_flatMap.mpr ⟨leaf, hmem, hscalar⟩)
    exact absurd rfl (hregular.texts "" (List.mem_append_left _ hliteral)).1

/-- The references of what stands after the grouping. -/
theorem after_groupReference (hvalid : parts.Valid) (j : Json)
    (h : After parts (.grouped group) j) (text : String) (hm : .reference text ∈ marks j) :
    GroupReference parts.keys.length values.length text := by
  cases h with
  | having leaf hleaf negated e hcompiled =>
      exact leafMarks_groupReference hgrouped hregular leaf hleaf text
        ((condition_marks _ leaf negated e (hvalid.having leaf hleaf).left
          (hvalid.having leaf hleaf).value hcompiled _).mp hm)
  | projected x hx e hcompiled =>
      have hxvalid : x.valid = true :=
        hx.elim (hvalid.returned x) (hvalid.sortExpressions x)
      exact marks_groupReference hgrouped x text
        ((ofExpression_marks _ x e hxvalid hcompiled _).mp hm)

end After

/-- The filter of groups tests expressions only. -/
theorem filter_computed (group : GroupScope) (condition : Option Condition) (maxDepth : Nat)
    (f : Filter) (hnative : ∀ c, condition = some c → c.nativeFree = true)
    (h : (interpretation (.grouped group)).filter condition maxDepth = .ok (some f)) :
    f.Computed := by
  have hkeeps : (interpretation (.grouped group)).Keeps Filter.Computed :=
    ⟨.all, fun connective parts hparts => by cases connective <;> constructor <;> exact hparts⟩
  refine Interpretation.filter_keeps hkeeps condition maxDepth f hnative ?_ h
  intro c _ leaf _ ctx f hf
  rcases map_eq_ok.mp hf with ⟨e, _, heq⟩
  rw [← heq]
  exact .expr e

/-- What is known of an expression after the grouping. -/
structure GroupedExpression (parts : QueryParts) (values : List (String × Expr))
    (group : GroupScope) (j : Json) : Prop where
  references : ∀ text, .reference text ∈ marks j →
    GroupReference parts.keys.length values.length text
  plain : aggregates j = false
  /-- It is a column, a sort key or a comparison with its aggregate calls replaced. -/
  replaced :
    (∃ x e, (x ∈ parts.returned ∨ x ∈ parts.sortExpressions) ∧ Replaced group values x e ∧
      j = e.toJson) ∨
    ∃ leaf ∈ leavesOf parts.having, ∃ negated left e, Replaced group values leaf.left left ∧
      ofExpression (.grouped group) leaf.left = .ok left ∧
      condition (.grouped group) leaf (Polarity.of leaf.operator negated) = .ok e ∧ j = e.toJson

/-- What is known of a pipeline from the grouping on. -/
structure WellGrouped (parts : QueryParts) (key : GroupKey) (values : List (String × Expr))
    (group : GroupScope) (after : List Stage) : Prop where
  /-- The identity and the numbered accumulators are all there is in a group. -/
  members : ∃ members, (Stage.group key values).toJson = single "$group" (.object members) ∧
    members.map (·.1) = "_id" :: (List.range values.length).map valueName
  distinct : ("_id" :: (List.range values.length).map valueName).Nodup
  /-- The identity has a field for each group key. -/
  identity : (parts.groupBy = none ∧ key = .none) ∨ ∃ fields, key = .fields fields ∧
    fields.map (·.1) = (List.range parts.keys.length).map keyName
  /-- Every aggregate call has an accumulator and is the field of it. -/
  calls : ∀ call ∈ parts.calls, ∃ index, Accumulates values index call ∧
    ofExpression (.grouped group) call = .ok (.field (valueName index))
  /-- Only equal rows are grouped again. -/
  groupings : ∀ key values, .group key values ∈ after → key = .wholeDocument ∧ values = []
  filters : ∀ f, .matching f ∈ after → f.Computed
  expressions : ∀ stage ∈ after, stage ≠ .group .wholeDocument [] → ∀ j ∈ stage.expressions,
    GroupedExpression parts values group j

theorem valueName_injective (i j : Nat) (h : valueName i = valueName j) : i = j :=
  Text.numbered_injective "a" i j h

theorem valueNames_nodup (n : Nat) : ("_id" :: (List.range n).map valueName).Nodup := by
  rw [List.nodup_cons]
  constructor
  · intro hmem
    rcases List.mem_map.mp hmem with ⟨i, _, hi⟩
    -- The names of values start with another letter.
    have hhead : (valueName i).toList.head? = some '_' := by
      rw [hi]
      rfl
    simp only [valueName, String.toList_append] at hhead
    exact absurd (Option.some.inj hhead) (by decide)
  · exact List.Pairwise.map valueName (fun i j hne heq => hne (valueName_injective i j heq))
      List.nodup_range

section Pipelines

variable {maxDepth : Nat} {parts : QueryParts} {projection : Projection} {filter : Option Filter}
  {grouping : Option (Stage × GroupScope)} {having : Option Filter} {sorts : SortStage}
  {projected : List Stage} {command : Command}
  {keys values : List (String × Expr)} {known : List (String × String)} {stage : Stage}
  {group : GroupScope}

/-- After the grouping only the filter of groups and the search for equal rows leave out
    documents. -/
theorem later_sifts (hportable : parts.Portable) (hprojection : parts.projection = .ok projection)
    (h : MadeOf maxDepth parts projection filter grouping having sorts projected command)
    (later : Stage) (hlater : later ∈ laterStages parts projection having sorts projected)
    (hsifts : later.sifts = true) :
    (∃ f, having = some f ∧ later = .matching f) ∨ later = .group .wholeDocument [] := by
  have hnative := (projection_returned parts hportable projection hprojection).1
  rcases laterStages_cases parts projection having sorts projected later hlater with
    hmatching | hproject | ⟨_, hdistinct⟩ | hbare
  · exact .inl hmatching
  · rw [projectStage_sifts _ _ projection hnative projected h.projects later hproject] at hsifts
    exact absurd hsifts Bool.false_ne_true
  · exact .inr hdistinct
  · rw [hbare.sifts] at hsifts
    exact absurd hsifts Bool.false_ne_true

/-- What is read after the grouping has no aggregate calls but those with accumulators. -/
theorem calls_of_later (hchecked : parts.Checked) (x : Expression)
    (hx : x ∈ parts.returned ∨ x ∈ parts.sortExpressions) :
    ∀ call ∈ x.aggregateCalls, call ∈ parts.calls := by
  intro call hcall
  rcases hx with hreturned | hsort
  · exact List.mem_append_left _ (List.mem_flatMap.mpr ⟨x, hreturned, hcall⟩)
  · rcases (mem_sortExpressions parts x).mp hsort with ⟨key, hkey, rfl⟩
    rw [(Expression.aggregateCalls_eq_nil_iff _).mpr (hchecked.sorts key hkey)] at hcall
    exact absurd hcall List.not_mem_nil

theorem calls_of_having (leaf : SimpleCondition) (hleaf : leaf ∈ leavesOf parts.having) :
    ∀ call ∈ leaf.left.aggregateCalls, call ∈ parts.calls :=
  fun _ hcall => List.mem_append_right _ (List.mem_flatMap.mpr ⟨leaf, hleaf, hcall⟩)

/-- What is compiled after the grouping. -/
theorem after_groupedExpression (hgrouped : Grouped parts keys values known stage group)
    (hvalid : parts.Valid) (hchecked : parts.Checked) (hregular : parts.Regular) (j : Json)
    (h : After parts (.grouped group) j) : GroupedExpression parts values group j := by
  have hreferences := after_groupReference hgrouped hregular hvalid j h
  -- What is read after the grouping is compared by the filter of groups, or it is projected.
  cases h with
  | having leaf hleaf negated e hcompiled =>
      rcases bind_eq_ok.mp hcompiled with ⟨left, hleft, _⟩
      have hmem := leaf_mem_read parts leaf (having_mem_leaves parts leaf hleaf) leaf.left
        List.mem_cons_self
      -- The right side is a literal or a property, so only the left one can hold aggregates.
      have hreplaced : ∀ e, ofExpression (.grouped group) leaf.left = .ok e →
          Replaced group values leaf.left e := fun e =>
        ofExpression_replaced hgrouped hregular leaf.left e (hregular.dotted _ hmem)
          (calls_of_having leaf hleaf)
      exact {
        references := hreferences
        plain := condition_plain _ leaf _ e (fun e he => (hreplaced e he).plain) hcompiled
        replaced := .inr ⟨leaf, hleaf, negated, left, e, hreplaced left hleft, hleft, hcompiled,
          rfl⟩ }
  | projected x hx e hcompiled =>
      have hmem : x ∈ parts.read :=
        hx.elim (returned_mem_read parts x) (sort_mem_read parts x)
      have hreplaced := ofExpression_replaced hgrouped hregular x e (hregular.dotted x hmem)
        (calls_of_later hchecked x hx) hcompiled
      exact {
        references := hreferences
        plain := hreplaced.plain
        replaced := .inl ⟨x, e, hx, hreplaced, rfl⟩ }

/-- The pipeline from its grouping on. -/
theorem grouped_wellGrouped (hportable : parts.Portable) (hvalid : parts.Valid)
    (hchecked : parts.Checked) (hregular : parts.Regular)
    (hprojection : parts.projection = .ok projection)
    (h : MadeOf maxDepth parts projection filter (some (stage, group)) having sorts projected
      command) :
    ∃ key values, stage = .group key values ∧
      WellGrouped parts key values group (laterStages parts projection having sorts projected) := by
  rcases groupStage_grouped parts hportable projection hprojection stage group
    (groupStage_of_groupingOf parts projection stage group h.grouped) with
    ⟨keys, values, known, hgrouped⟩
  refine ⟨_, values, hgrouped.groups, ?_⟩
  constructor
  case members =>
    refine ⟨_, rfl, ?_⟩
    have hnames : (membersBy Expr.toJson values).map (·.1) = values.map (·.1) := by
      rw [membersBy, List.map_map]
      rfl
    rw [List.map_cons, hnames, hgrouped.accumulated.names, List.range_eq_range']
  case distinct => exact valueNames_nodup values.length
  case identity =>
    cases hgroup : parts.groupBy with
    | none => exact .inl ⟨rfl, rfl⟩
    | some columns =>
        refine .inr ⟨keys, rfl, ?_⟩
        rw [hgrouped.keyed.names, List.range_eq_range']
  case calls =>
    intro call hcall
    -- A field is looked for before anything else, so the call is its field.
    rcases hgrouped.call_accumulated hregular call hcall with ⟨index, haccumulates, hlookup⟩
    refine ⟨index, haccumulates, ?_⟩
    cases call <;> simp only [ofExpression, Scope.fieldOf?, hlookup]
  case groupings =>
    intro key values hlater
    rcases later_sifts hportable hprojection h _ hlater rfl with ⟨f, _, heq⟩ | hdistinct
    · exact absurd heq (by simp only [reduceCtorEq, not_false_eq_true])
    · exact Stage.group.inj hdistinct
  case filters =>
    intro f hlater
    rcases later_sifts hportable hprojection h _ hlater rfl with ⟨found, hsome, heq⟩ | hdistinct
    · have hfiltered := h.filtered
      rw [hsome] at hfiltered
      rw [Stage.matching.inj heq]
      exact filter_computed group parts.having maxDepth found hportable.having hfiltered
    · exact absurd hdistinct (by simp only [reduceCtorEq, not_false_eq_true])
  case expressions =>
    intro later hlater hne j hj
    rcases laterStages_after hportable hprojection h later hlater with ⟨_, hdistinct⟩ | hafter
    · exact absurd hdistinct hne
    · exact after_groupedExpression hgrouped hvalid hchecked hregular j (hafter j hj)

theorem matching_of_mem (filter : Option Filter) (stage : Stage)
    (h : stage ∈ filter.toList.map Stage.matching) : ∃ f, stage = .matching f := by
  rcases List.mem_map.mp h with ⟨f, _, heq⟩
  exact ⟨f, heq.symm⟩

/-- A stage that groups documents otherwise than to find equal rows is the grouping. -/
theorem madeOf_grouping (hportable : parts.Portable)
    (hprojection : parts.projection = .ok projection)
    (h : MadeOf maxDepth parts projection filter grouping having sorts projected command)
    (stages : List Stage) (hcommand : command = .aggregate stages) (key : GroupKey)
    (hkey : key ≠ .wholeDocument) (hstage : .group key values ∈ stages) :
    ∃ group, grouping = some (.group key values, group) := by
  have hstages := Command.aggregate.inj (hcommand.symm.trans h.stages)
  rw [hstages, List.mem_append, List.mem_append] at hstage
  -- What stands before are filters, and what comes later groups whole documents.
  rcases hstage with hfirst | hgroup | hlater
  · rcases matching_of_mem filter _ hfirst with ⟨f, heq⟩
    exact absurd heq (by simp only [reduceCtorEq, not_false_eq_true])
  · cases grouping with
    | none => exact absurd hgroup List.not_mem_nil
    | some found =>
        have heq : .group key values = found.1 := List.mem_singleton.mp hgroup
        exact ⟨found.2, by rw [heq]⟩
  · rcases later_sifts hportable hprojection h _ hlater rfl with ⟨f, _, heq⟩ | hdistinct
    · exact absurd heq (by simp only [reduceCtorEq, not_false_eq_true])
    · exact absurd (Stage.group.inj hdistinct).1 hkey

/-- A pipeline with a grouping only filters documents before. -/
theorem madeOf_wellGrouped (hportable : parts.Portable) (hvalid : parts.Valid)
    (hchecked : parts.Checked) (hregular : parts.Regular)
    (hprojection : parts.projection = .ok projection)
    (h : MadeOf maxDepth parts projection filter grouping having sorts projected command)
    (stages : List Stage) (hcommand : command = .aggregate stages) (key : GroupKey)
    (hkey : key ≠ .wholeDocument) (hstage : .group key values ∈ stages) :
    ∃ before group after, stages = before ++ .group key values :: after ∧
      (∀ stage ∈ before, ∃ f, stage = .matching f) ∧
      WellGrouped parts key values group after := by
  rcases madeOf_grouping hportable hprojection h stages hcommand key hkey hstage with
    ⟨group, hsome⟩
  rw [hsome] at h
  rcases grouped_wellGrouped hportable hvalid hchecked hregular hprojection h with
    ⟨foundKey, foundValues, heq, hwell⟩
  rw [← (Stage.group.inj heq).1, ← (Stage.group.inj heq).2] at hwell
  exact ⟨_, group, _, Command.aggregate.inj (hcommand.symm.trans h.stages),
    matching_of_mem filter, hwell⟩

end Pipelines

end Mongo

end Polyquery
