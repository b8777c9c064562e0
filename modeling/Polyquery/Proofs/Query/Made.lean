import Polyquery.Proofs.Condition.Shape
import Polyquery.Proofs.Document.Readings
import Polyquery.Proofs.Query.Components

/-!
# Queries that Can Be Made

Queries and their parts come into the world through a handful of operations:
documents, constructors, edits, preprocessors, and the accessors that give a
part of what there already is. Some of these check what they make and some do
not, so that everything which can be made keeps the rules is a statement about
all of them at once. `Component.Made` is their closure, and soundness is what
every single one preserves.

An operation that checks nothing has nothing to add to the rules: an alias, a
list of expressions without names, and a plain query taken for an advanced one
are as sound as what they are made of. Two operations are sound for a reason of
their own. A preprocessor that fails leaves the query as it was, and a document
becomes a query by the constructors that are open to everyone else.

## Main definitions

* `Component.Made`: What the operations make, one after the other.

## Theorems

* `ofPath_sound`, `ofCall_sound`, `of_sound`, `negation_sound`, `listOf_sound`
  and their siblings: Constructors.
* `of_lawful`: A comparison that keeps its rule can be made.
* `edit_sound`, `change_sound`, `checked_sound`: Edits.
* `run_sound`, `preprocess_sound`, `lift_sound`: Preprocessors and lifting.
* `toExpression_sound`, `toCondition_sound`, `toQuery_sound`,
  `toAdvanced_sound`: The parts of a document.
* `parseQuery_sound`, `parseAdvanced_sound`, `parseAny_sound`: Texts.
* `sound_of_made`: Everything that can be made is sound.
* `made_lawful`: What can be read off a query that can be made keeps its rule.
-/

namespace Polyquery

open Component

theorem checkPath_eq_ok {path path' : String} :
    Expression.checkPath path = .ok path' ↔ Text.isBlank path = false ∧ path' = path := by
  unfold Expression.checkPath
  cases Text.isBlank path with
  | true => simp only [if_true, reduceCtorEq, Bool.true_eq_false, false_and]
  | false => simp only [Bool.false_eq_true, if_false, Except.ok.injEq, true_and]; exact eq_comm

section Operators

variable (op : Operator)

theorem valueCount_eq_zero_iff : op.valueCount = 0 ↔ op = .isNull ∨ op = .isNotNull := by
  cases op <;> decide

theorem takesList_iff : op.takesList = true ↔ op = .isIn ∨ op = .notIn := by
  cases op <;> decide

theorem takesField_iff : op.takesField = true ↔
    op ∈ [.equals, .notEquals, .greaterThan, .greaterThanEquals, .lesserThan,
      .lesserThanEquals] := by
  cases op <;> decide

end Operators

section Operations

theorem ofPath_sound (path : String) (x : Expression) (h : Expression.ofPath path = .ok x) :
    (expression x).Sound := by
  rcases map_eq_ok.mp h with ⟨path', hpath, rfl⟩
  rcases checkPath_eq_ok.mp hpath with ⟨hblank, rfl⟩
  exact (sound_property _ _).mpr hblank

theorem ofCall_sound (function : Function) (arguments : List Argument) (x : Expression)
    (harguments : ∀ a ∈ arguments, (argument a).Sound)
    (h : Expression.ofCall function arguments = .ok x) : (expression x).Sound := by
  unfold Expression.ofCall at h
  split at h
  · rename_i haccepts
    rw [← Except.ok.inj h]
    exact (sound_call _ _ _).mpr ⟨haccepts, harguments⟩
  · exact absurd h (by simp only [reduceCtorEq, not_false_eq_true])

/-- An alias makes no difference to an expression. -/
theorem withAlias_sound (x : Expression) (label : String) (hx : (expression x).Sound) :
    (expression (x.withAlias label)).Sound := by
  cases x with
  | property path _ => exact (sound_property _ _).mpr ((sound_property _ _).mp hx)
  | call function arguments _ => exact (sound_call _ _ _).mpr ((sound_call _ _ _).mp hx)

theorem ofEither_sound (site : Site) (name : Option String) (value : Option Expression)
    (x : Expression) (hvalue : ∀ e, value = some e → (expression e).Sound)
    (h : Expression.ofEither site name value = .ok x) : (expression x).Sound := by
  unfold Expression.ofEither at h
  split at h
  · exact absurd h (by simp only [reduceCtorEq, not_false_eq_true])
  · exact absurd h (by simp only [reduceCtorEq, not_false_eq_true])
  · exact ofPath_sound _ x h
  · rw [← Except.ok.inj h]
    exact hvalue _ rfl

theorem ofField_sound (path : String) (v : ConditionValue)
    (h : ConditionValue.ofField path = .ok v) : (operand v).Sound := by
  rcases map_eq_ok.mp h with ⟨path', hpath, rfl⟩
  rcases checkPath_eq_ok.mp hpath with ⟨hblank, rfl⟩
  exact (sound_operand _).mpr hblank

theorem of_sound (left : Expression) (op : Operator) (value : Option ConditionValue)
    (leaf : SimpleCondition) (hleft : (expression left).Sound)
    (hvalue : ∀ v, value = some v → (operand v).Sound)
    (h : SimpleCondition.of left op value = .ok leaf) : (comparison leaf).Sound := by
  rcases of_made left op value leaf h with ⟨rfl, hcount, hfield, hlist⟩
  refine (sound_comparison _).mpr ⟨⟨?_, ?_, ?_⟩, hleft, hvalue⟩
  · rw [← valueCount_eq_zero_iff, hcount]
    cases value with
    | none => simp only [Option.isSome_none, Bool.false_eq_true, if_false]
    | some v => simp only [Option.isSome_some, if_true, reduceCtorEq, Nat.one_ne_zero]
  · exact fun values hvalues => (takesList_iff op).mp (hlist values hvalues)
  · exact fun path hpath => (takesField_iff op).mp (hfield path hpath)

/-- A comparison that keeps its rule can be made. -/
theorem of_lawful (leaf : SimpleCondition) (h : (comparison leaf).Lawful) :
    SimpleCondition.of leaf.left leaf.operator leaf.value = .ok leaf := by
  rcases leaf with ⟨left, op, value⟩
  rcases h with ⟨hvalue, hlist, hfield⟩
  dsimp only at hvalue hlist hfield ⊢
  -- There is at most one value, so the count is right if it is there when it has to be.
  have hcount : (if value.isSome then 1 else 0) = op.valueCount := by
    have hnone : value = none ↔ op.valueCount = 0 := hvalue.trans (valueCount_eq_zero_iff op).symm
    have hone : op.valueCount ≤ 1 := by cases op <;> decide
    cases value with
    | none => exact (hnone.mp rfl).symm
    | some v =>
        have hpos : op.valueCount ≠ 0 := fun h =>
          absurd (hnone.mpr h) (by simp only [reduceCtorEq, not_false_eq_true])
        simp only [Option.isSome_some, if_true]
        omega
  unfold SimpleCondition.of
  rw [if_neg (fun h => h hcount)]
  -- Whether the operator takes it is asked of a property and of a list, of no other value.
  split
  · exact if_pos ((takesField_iff op).mpr (hfield _ rfl))
  · exact if_pos ((takesList_iff op).mpr (hlist _ rfl))
  · rfl

theorem negation_sound (child c : Condition) (hchild : (condition child).Sound)
    (h : Condition.negation child = .ok c) : (condition c).Sound := by
  unfold Condition.negation at h
  split at h
  · exact absurd h (by simp only [reduceCtorEq, not_false_eq_true])
  · rename_i hnative
    rw [← Except.ok.inj h]
    refine (sound_not child).mpr ⟨?_, hchild⟩
    rintro piece rfl
    exact hnative rfl

theorem listOf_sound (names : List String) (expressions : List Expression) (list : ExpressionList)
    (hexpressions : ∀ x ∈ expressions, (expression x).Sound)
    (h : ExpressionList.of names expressions = .ok list) : (columns list).Sound := by
  unfold ExpressionList.of at h
  split at h
  · exact absurd h (by simp only [reduceCtorEq, not_false_eq_true])
  · rename_i hblank
    rw [← Except.ok.inj h]
    refine (sound_columns _).mpr ⟨?_, hexpressions⟩
    rw [Bool.not_eq_true, List.any_eq_false] at hblank
    exact fun name hname => Bool.not_eq_true _ ▸ hblank name hname

theorem sortOf_sound (name : Option String) (value : Option Expression) (direction : Direction)
    (key : SimpleSort) (hvalue : ∀ e, value = some e → (expression e).Sound)
    (h : SimpleSort.ofParts name value direction = .ok key) : (sortKey (.simple key)).Sound := by
  rcases map_eq_ok.mp h with ⟨x, hx, rfl⟩
  exact (sound_sort _).mpr (ofEither_sound .sort name value x hvalue hx)

theorem ofParts_sound (name : Option String) (value : Option Expression) (op : Operator)
    (right : Option ConditionValue) (leaf : SimpleCondition)
    (hvalue : ∀ e, value = some e → (expression e).Sound)
    (hright : ∀ v, right = some v → (operand v).Sound)
    (h : SimpleCondition.ofParts name value op right = .ok leaf) : (comparison leaf).Sound := by
  rcases bind_eq_ok.mp h with ⟨left, hleft, hof⟩
  exact of_sound left op right leaf (ofEither_sound .condition name value left hvalue hleft) hright
    hof

end Operations

section Edits

theorem blank_sound : Query.Sound {} where
  filter _ h := absurd h (by simp only [reduceCtorEq, not_false_eq_true])
  sorts _ h := absurd h List.not_mem_nil
  pagination p _ := sound_page p
  select _ h := absurd h (by simp only [reduceCtorEq, not_false_eq_true])
  preprocessors _ h := absurd h List.not_mem_nil

theorem blankAdvanced_sound : AdvancedQuery.Sound {} where
  query := blank_sound
  groupBy _ h := absurd h (by simp only [reduceCtorEq, not_false_eq_true])
  having _ h := absurd h (by simp only [reduceCtorEq, not_false_eq_true])

/-- A condition joined to a filter. -/
theorem joinFilter_sound (join : List Condition → Condition) (filter : Option Condition)
    (c : Condition) (hjoin : ∀ children, (∀ child ∈ children, (condition child).Sound) →
      (condition (join children)).Sound)
    (hfilter : ∀ old, filter = some old → (condition old).Sound) (hc : (condition c).Sound) :
    ∀ new, joinFilter join filter c = some new → (condition new).Sound := by
  intro new h
  unfold joinFilter at h
  split at h
  · rw [← Option.some.inj h]
    apply hjoin
    simp only [List.forall_mem_cons, List.not_mem_nil, false_implies, implies_true, and_true]
    exact ⟨hfilter _ rfl, hc⟩
  · rw [← Option.some.inj h]
    exact hc

/-- A filter turned around. -/
theorem negateFilter_sound (filter filter' : Option Condition)
    (hfilter : ∀ old, filter = some old → (condition old).Sound)
    (h : negateFilter filter = .ok filter') :
    ∀ new, filter' = some new → (condition new).Sound := by
  intro new hnew
  unfold negateFilter at h
  split at h
  · rcases map_eq_ok.mp h with ⟨c, hc, heq⟩
    rw [← heq] at hnew
    rw [← Option.some.inj hnew]
    exact negation_sound _ c (hfilter _ rfl) hc
  · rw [← Except.ok.inj h] at hnew
    exact absurd hnew (by simp only [reduceCtorEq, not_false_eq_true])

/-- An edit of sound parts leaves a plain query sound. -/
theorem edit_sound (q q' : Query) (e : Edit) (hq : q.Sound) (he : ∀ p ∈ e.parts, p.Sound)
    (h : q.edit e = .ok q') : q'.Sound := by
  cases e with
  | setFilter c =>
      rw [← Except.ok.inj h]
      exact { hq with filter := fun _ hc => Option.some.inj hc ▸ he _ List.mem_cons_self }
  | andFilter c =>
      rw [← Except.ok.inj h]
      exact { hq with
        filter := joinFilter_sound .and q.filter c (fun children => (sound_and children).mpr)
          hq.filter (he _ List.mem_cons_self) }
  | orFilter c =>
      rw [← Except.ok.inj h]
      exact { hq with
        filter := joinFilter_sound .or q.filter c (fun children => (sound_or children).mpr)
          hq.filter (he _ List.mem_cons_self) }
  | negateFilter =>
      -- Without a filter there is nothing to negate.
      simp only [Query.edit] at h
      split at h
      · rename_i filter hfilter
        rw [← Except.ok.inj h]
        exact { hq with filter := negateFilter_sound q.filter filter hq.filter hfilter }
      · exact absurd h (by simp only [reduceCtorEq, not_false_eq_true])
  -- A plain query has no grouping that could be edited.
  | setHaving c => exact absurd h (by simp only [Query.edit, reduceCtorEq, not_false_eq_true])
  | setGroupBy columns =>
      exact absurd h (by simp only [Query.edit, reduceCtorEq, not_false_eq_true])
  | addSort key =>
      rw [← Except.ok.inj h]
      refine { hq with sorts := ?_ }
      simp only [List.forall_mem_append, List.forall_mem_singleton]
      exact ⟨hq.sorts, he _ List.mem_cons_self⟩
  | setSorts keys =>
      rw [← Except.ok.inj h]
      exact { hq with sorts := fun key hkey => he _ (List.mem_map_of_mem hkey) }
  | setPagination page =>
      rw [← Except.ok.inj h]
      exact { hq with pagination := fun p _ => sound_page p }
  | setDistinct distinct =>
      rw [← Except.ok.inj h]
      exact { hq with }
  | setSelect columns =>
      rw [← Except.ok.inj h]
      exact { hq with
        select := fun _ hcolumns => Option.some.inj hcolumns ▸ he _ List.mem_cons_self }
  | addCustomizer piece =>
      rw [← Except.ok.inj h]
      exact { hq with }
  | addPreprocessor stamp name edits =>
      rw [← Except.ok.inj h]
      refine { hq with preprocessors := ?_ }
      simp only [List.forall_mem_append, List.forall_mem_singleton]
      exact ⟨hq.preprocessors, he _ List.mem_cons_self⟩

/-- Edits of grouping change the parts that a plain query has not, and the others are those of
    plain queries. -/
theorem change_sound (q q' : AdvancedQuery) (e : Edit) (hq : q.Sound)
    (he : ∀ p ∈ e.parts, p.Sound) (h : q.change e = .ok q') : q'.Sound := by
  unfold AdvancedQuery.change at h
  split at h
  · rw [← Except.ok.inj h]
    exact { hq with having := fun _ hc => Option.some.inj hc ▸ he _ List.mem_cons_self }
  · rw [← Except.ok.inj h]
    exact { hq with groupBy := fun _ hc => Option.some.inj hc ▸ he _ List.mem_cons_self }
  · rcases map_eq_ok.mp h with ⟨shared, hshared, rfl⟩
    exact { hq with query := edit_sound q.toQuery shared e hq.query he hshared }

/-- A finished query keeps the rule of finished queries. -/
theorem checked_sound (q q' : AdvancedQuery) (hq : q.Sound) (h : q.checked = .ok q') :
    (query (.advanced q')).Sound := by
  unfold AdvancedQuery.checked at h
  split at h
  · exact absurd h (by simp only [reduceCtorEq, not_false_eq_true])
  · rename_i hgroups
    rw [← Except.ok.inj h]
    refine (sound_advanced q).mpr ⟨?_, hq⟩
    intro hhaving
    rw [hhaving, Bool.true_and, Bool.not_eq_true', Bool.not_eq_false] at hgroups
    exact hgroups

theorem anyEdit_sound (q q' : AnyQuery) (e : Edit) (hq : (query q).Sound)
    (he : ∀ p ∈ e.parts, p.Sound) (h : q.edit e = .ok q') : (query q').Sound := by
  cases q with
  | plain q =>
      rcases map_eq_ok.mp h with ⟨q'', hedit, rfl⟩
      exact (sound_plain _).mpr (edit_sound q q'' e ((sound_plain q).mp hq) he hedit)
  | advanced q =>
      rcases map_eq_ok.mp h with ⟨q'', hedit, rfl⟩
      rcases bind_eq_ok.mp hedit with ⟨changed, hchange, hchecked⟩
      exact checked_sound changed q''
        (change_sound q changed e ((sound_advanced q).mp hq).2 he hchange)
        (mapError_eq_ok.mp hchecked)

/-- A preprocessor either carries out all of its edits or none. -/
theorem run_sound (q : Query) (p : Preprocessor) (hq : q.Sound) (hp : (preprocessor p).Sound) :
    (q.runPreprocessor p).Sound := by
  unfold Query.runPreprocessor
  split
  · rename_i edited hedited
    refine foldlM_keeps p.edits (fun e he s s' hs h => ?_) q edited hq hedited
    exact edit_sound s s' e hs ((sound_edit e).mp ((sound_preprocessor p).mp hp e he)) h
  · exact hq

theorem runAdvanced_sound (q : AdvancedQuery) (p : Preprocessor)
    (hq : (query (.advanced q)).Sound) (hp : (preprocessor p).Sound) :
    (query (.advanced (q.runPreprocessor p))).Sound := by
  unfold AdvancedQuery.runPreprocessor
  split
  · rename_i edited hedited
    refine foldlM_keeps (P := fun s => (query (.advanced s)).Sound) p.edits
      (fun e he s s' hs h => ?_) q edited hq hedited
    exact anyEdit_sound (.advanced s) (.advanced s') e hs
      ((sound_edit e).mp ((sound_preprocessor p).mp hp e he)) (map_eq_ok.mpr ⟨s', h, rfl⟩)
  · exact hq

/-- The preprocessors of a query are parts of it, so they keep it sound when they run. -/
theorem preprocess_sound (q : AnyQuery) (hq : (query q).Sound) : (query q.preprocess).Sound := by
  cases q with
  | plain q =>
      rw [sound_plain] at hq
      refine (sound_plain _).mpr (List.foldlRecOn (motive := Query.Sound) q.preprocessors _ hq ?_)
      exact fun s hs p hp => run_sound s p hs (hq.preprocessors p hp)
  | advanced q =>
      have hparts := ((sound_advanced q).mp hq).2.query.preprocessors
      refine List.foldlRecOn (motive := fun s => (query (.advanced s)).Sound) q.preprocessors _
        hq ?_
      exact fun s hs p hp => runAdvanced_sound s p hs (hparts p hp)

/-- A lifted query filters no groups. -/
theorem lift_sound (q : AnyQuery) (hq : (query q).Sound) : (query (.advanced q.lift)).Sound := by
  cases q with
  | advanced q => exact hq
  | plain q =>
      rw [sound_plain] at hq
      exact (sound_advanced _).mpr ⟨fun h => absurd h Bool.false_ne_true, hq.lift⟩

end Edits

section Documents

mutual

theorem toExpression_sound : ∀ (form : ExpressionForm) (x : Expression),
    form.toExpression = .ok x → (expression x).Sound
  | ⟨name, function, arguments, label⟩, x, h => by
      -- A form with both a name and a function, or with neither, is refused.
      unfold ExpressionForm.toExpression at h
      split at h
      · exact absurd h (by simp only [reduceCtorEq, not_false_eq_true])
      · exact absurd h (by simp only [reduceCtorEq, not_false_eq_true])
      · split at h
        · rcases map_eq_ok.mp h with ⟨path, hpath, rfl⟩
          rcases checkPath_eq_ok.mp hpath with ⟨hblank, rfl⟩
          exact (sound_property _ _).mpr hblank
        · exact absurd h (by simp only [reduceCtorEq, not_false_eq_true])
      · split at h
        · exact absurd h (by simp only [reduceCtorEq, not_false_eq_true])
        · rcases bind_eq_ok.mp h with ⟨values, hvalues, h⟩
          rcases bind_eq_ok.mp h with ⟨call, hcall, h⟩
          have hsound := ofCall_sound _ values call
            (toArguments_sound arguments values hvalues) hcall
          split at h
          · rw [← Except.ok.inj h]
            exact withAlias_sound call _ hsound
          · rw [← Except.ok.inj h]
            exact hsound

theorem toArguments_sound : ∀ (forms : List ArgumentForm) (values : List Argument),
    ArgumentForm.toArguments forms = .ok values → ∀ a ∈ values, (argument a).Sound
  | [], values, h => by
      simp only [ArgumentForm.toArguments, Except.ok.injEq] at h
      rw [← h]
      exact fun a ha => absurd ha List.not_mem_nil
  | .expression form :: rest, values, h => by
      simp only [ArgumentForm.toArguments] at h
      rcases bind_eq_ok.mp h with ⟨value, hvalue, h⟩
      rcases bind_eq_ok.mp h with ⟨others, hothers, h⟩
      rw [← Except.ok.inj h, List.forall_mem_cons]
      exact ⟨(sound_argument value).mpr (toExpression_sound form value hvalue),
        toArguments_sound rest others hothers⟩
  | .literal written :: rest, values, h => by
      simp only [ArgumentForm.toArguments] at h
      rcases bind_eq_ok.mp h with ⟨literal, _, h⟩
      rcases bind_eq_ok.mp h with ⟨others, hothers, h⟩
      rw [← Except.ok.inj h, List.forall_mem_cons]
      exact ⟨sound_literal literal, toArguments_sound rest others hothers⟩

end

theorem conditionValueOf_sound (written : Json) (v : ConditionValue)
    (h : conditionValueOf written = .ok v) : (operand v).Sound := by
  unfold conditionValueOf at h
  split at h
  · rcases map_eq_ok.mp h with ⟨values, _, rfl⟩
    exact (sound_operand _).mpr trivial
  · exact ofField_sound _ v h
  · exact absurd h (by simp only [reduceCtorEq, not_false_eq_true])
  · rcases map_eq_ok.mp h with ⟨literal, _, rfl⟩
    exact (sound_operand _).mpr trivial

theorem toComparison_sound (form : SimpleForm) (leaf : SimpleCondition)
    (h : form.toCondition = .ok leaf) : (comparison leaf).Sound := by
  rcases bind_eq_ok.mp h with ⟨op, _, h⟩
  rcases bind_eq_ok.mp h with ⟨left, hleft, h⟩
  rcases bind_eq_ok.mp h with ⟨right, hright, h⟩
  refine ofParts_sound form.name left op right leaf ?_ ?_ h
  · intro x hx
    rcases exists_of_optionMapM hleft x hx with ⟨form, _, hform⟩
    exact toExpression_sound form x hform
  · intro v hv
    rcases exists_of_optionMapM hright v hv with ⟨written, _, hwritten⟩
    exact conditionValueOf_sound written v hwritten

mutual

theorem toCondition_sound : ∀ (form : ConditionForm) (c : Condition),
    form.toCondition = .ok c → (condition c).Sound
  | .and children, c, h => by
      simp only [ConditionForm.toCondition] at h
      rcases map_eq_ok.mp h with ⟨cs, hcs, rfl⟩
      exact (sound_and cs).mpr (toConditions_sound children cs hcs)
  | .or children, c, h => by
      simp only [ConditionForm.toCondition] at h
      rcases map_eq_ok.mp h with ⟨cs, hcs, rfl⟩
      exact (sound_or cs).mpr (toConditions_sound children cs hcs)
  | .not child, c, h => by
      simp only [ConditionForm.toCondition] at h
      rcases bind_eq_ok.mp h with ⟨inner, hinner, h⟩
      exact negation_sound inner c (toCondition_sound child inner hinner) h
  | .simple form, c, h => by
      simp only [ConditionForm.toCondition] at h
      rcases map_eq_ok.mp h with ⟨leaf, hleaf, rfl⟩
      exact (sound_simple leaf).mpr (toComparison_sound form leaf hleaf)

theorem toConditions_sound : ∀ (forms : List ConditionForm) (cs : List Condition),
    ConditionForm.toConditions forms = .ok cs → ∀ c ∈ cs, (condition c).Sound
  | [], cs, h => by
      simp only [ConditionForm.toConditions, Except.ok.injEq] at h
      rw [← h]
      exact fun c hc => absurd hc List.not_mem_nil
  | form :: rest, cs, h => by
      simp only [ConditionForm.toConditions] at h
      rcases bind_eq_ok.mp h with ⟨c, hc, h⟩
      rcases bind_eq_ok.mp h with ⟨others, hothers, h⟩
      rw [← Except.ok.inj h, List.forall_mem_cons]
      exact ⟨toCondition_sound form c hc, toConditions_sound rest others hothers⟩

end

theorem toSortKey_sound (form : SortForm) (key : SortKey) (h : form.toSortKey = .ok key) :
    (sortKey key).Sound := by
  rcases bind_eq_ok.mp h with ⟨value, hvalue, h⟩
  rcases map_eq_ok.mp h with ⟨simple, hsimple, rfl⟩
  refine sortOf_sound form.name value form.direction simple ?_ hsimple
  intro x hx
  rcases exists_of_optionMapM hvalue x hx with ⟨form, _, hform⟩
  exact toExpression_sound form x hform

theorem toSelection_sound (form : ListForm) (s : Selection) (h : form.toSelection = .ok s) :
    (selection s).Sound := by
  rcases bind_eq_ok.mp h with ⟨expressions, hexpressions, h⟩
  rcases map_eq_ok.mp h with ⟨list, hlist, rfl⟩
  refine (sound_items list).mpr (listOf_sound form.names expressions list ?_ hlist)
  intro x hx
  rcases exists_of_mapM hexpressions x hx with ⟨form, _, hform⟩
  exact toExpression_sound form x hform

theorem toQuery_sound (form : QueryForm) (q : Query) (h : form.toQuery = .ok q) : q.Sound := by
  rcases bind_eq_ok.mp h with ⟨sorts, hsorts, h⟩
  rcases bind_eq_ok.mp h with ⟨filter, hfilter, h⟩
  rcases bind_eq_ok.mp h with ⟨pagination, _, h⟩
  rcases bind_eq_ok.mp h with ⟨select, hselect, h⟩
  rw [← Except.ok.inj h]
  constructor
  case filter =>
    intro c hc
    rcases exists_of_optionMapM hfilter c hc with ⟨form, _, hform⟩
    exact toCondition_sound form c hform
  case sorts =>
    intro key hkey
    rcases exists_of_mapM hsorts key hkey with ⟨form, _, hform⟩
    exact toSortKey_sound form key hform
  case pagination => exact fun p _ => sound_page p
  case select =>
    intro columns hcolumns
    rcases exists_of_optionMapM hselect columns hcolumns with ⟨form, _, hform⟩
    exact toSelection_sound form columns hform
  -- A document has no preprocessors.
  case preprocessors => exact fun p hp => absurd hp List.not_mem_nil

theorem toAdvanced_sound (form : QueryForm) (q : AdvancedQuery) (h : form.toAdvanced = .ok q) :
    (query (.advanced q)).Sound := by
  rw [toAdvanced_eq] at h
  rcases bind_eq_ok.mp h with ⟨shared, hshared, h⟩
  rcases bind_eq_ok.mp h with ⟨groupBy, hgroupBy, h⟩
  rcases bind_eq_ok.mp h with ⟨having, hhaving, h⟩
  refine checked_sound _ q ⟨toQuery_sound form shared hshared, ?_, ?_⟩ h
  · intro columns hcolumns
    rcases exists_of_optionMapM hgroupBy columns hcolumns with ⟨form, _, hform⟩
    exact toSelection_sound form columns hform
  · intro c hc
    rcases exists_of_optionMapM hhaving c hc with ⟨form, _, hform⟩
    exact toCondition_sound form c hform

theorem parseQuery_sound (text : JsonText) (q : Query) (h : parseQuery text = .ok q) :
    (query (.plain q)).Sound := by
  rcases parseQuery_eq_ok.mp h with ⟨form, _, _, hquery⟩
  exact (sound_plain q).mpr (toQuery_sound form q hquery)

theorem parseAdvanced_sound (text : JsonText) (q : AdvancedQuery)
    (h : parseAdvanced text = .ok q) : (query (.advanced q)).Sound := by
  rcases bind_eq_ok.mp h with ⟨form, _, hquery⟩
  exact toAdvanced_sound form q hquery

theorem parseAny_sound (text : JsonText) (q : AnyQuery) (h : parseAny text = .ok q) :
    (query q).Sound := by
  cases q with
  | plain q => exact parseQuery_sound text q (parseAny_plain text q h)
  | advanced q =>
      refine parseAdvanced_sound text q ?_
      rw [← parseAny_lift text, h]
      rfl

end Documents

/-- What can be made by the operations that are open to everyone, one after the other: from
    constructors, from documents, by edits and preprocessors, and by reading off a part. -/
inductive Component.Made : Component → Prop where
  /-- A property by its path. -/
  | path (path x) (h : Expression.ofPath path = .ok x) : Made (.expression x)
  | call (function arguments x) (harguments : ∀ a ∈ arguments, Made (.argument a))
    (h : Expression.ofCall function arguments = .ok x) : Made (.expression x)
  | labelled (x label) (hx : Made (.expression x)) : Made (.expression (x.withAlias label))
  | argument (x) (hx : Made (.expression x)) : Made (.argument (.expression x))
  | literal (literal) : Made (.argument (.literal literal))
  | scalar (literal) : Made (.operand (.scalar literal))
  | values (literals) : Made (.operand (.list literals))
  /-- Another property as a value. -/
  | field (path v) (h : ConditionValue.ofField path = .ok v) : Made (.operand v)
  | comparison (left op value leaf) (hleft : Made (.expression left))
    (hvalue : ∀ v, value = some v → Made (.operand v))
    (h : SimpleCondition.of left op value = .ok leaf) : Made (.comparison leaf)
  /-- A comparison of a property name or of an expression. -/
  | comparisonParts (name left op value leaf)
    (hleft : ∀ x, left = some x → Made (.expression x))
    (hvalue : ∀ v, value = some v → Made (.operand v))
    (h : SimpleCondition.ofParts name left op value = .ok leaf) : Made (.comparison leaf)
  | simple (leaf) (hleaf : Made (.comparison leaf)) : Made (.condition (.simple leaf))
  | and (children) (h : ∀ c ∈ children, Made (.condition c)) : Made (.condition (.and children))
  | or (children) (h : ∀ c ∈ children, Made (.condition c)) : Made (.condition (.or children))
  | negation (child c) (hchild : Made (.condition child))
    (h : Condition.negation child = .ok c) : Made (.condition c)
  | native (piece) : Made (.condition (.native piece))
  | sort (x direction) (hx : Made (.expression x)) : Made (.sortKey (.simple ⟨x, direction⟩))
  /-- A sort key for a property name or for an expression. -/
  | sortParts (name value direction key) (hvalue : ∀ x, value = some x → Made (.expression x))
    (h : SimpleSort.ofParts name value direction = .ok key) : Made (.sortKey (.simple key))
  | nativeSort (piece) : Made (.sortKey (.native piece))
  | columns (names expressions list) (hexpressions : ∀ x ∈ expressions, Made (.expression x))
    (h : ExpressionList.of names expressions = .ok list) : Made (.columns list)
  /-- A list of expressions alone is put together without a check. -/
  | expressions (expressions) (h : ∀ x ∈ expressions, Made (.expression x)) :
    Made (.columns ⟨[], expressions⟩)
  | items (list) (hlist : Made (.columns list)) : Made (.selection (.items list))
  | nativeSelection (piece) : Made (.selection (.native piece))
  | page (number size p) (h : Pagination.of number size = .ok p) : Made (.page p)
  /-- The use of a setter, before it is known of which query. -/
  | edit (e) (h : ∀ p ∈ e.parts, Made p) : Made (.edit e)
  | preprocessor (p) (h : ∀ e ∈ p.edits, Made (.edit e)) : Made (.preprocessor p)
  | blank : Made (.query (.plain {}))
  | blankBuilder : Made (.builder {})
  /-- A setter of a query that is built at once; a plain one is always built at once. -/
  | edited (q e q') (hq : Made (.query q)) (he : Made (.edit e)) (h : q.edit e = .ok q') :
    Made (.query q')
  | builder (q) (hq : Made (.query (.advanced q))) : Made (.builder q)
  /-- A setter of an advanced query in the making. -/
  | changed (q e q') (hq : Made (.builder q)) (he : Made (.edit e)) (h : q.change e = .ok q') :
    Made (.builder q')
  | built (q q') (hq : Made (.builder q)) (h : q.checked = .ok q') : Made (.query (.advanced q'))
  | lifted (q) (hq : Made (.query q)) : Made (.query (.advanced q.lift))
  | run (q p) (hq : Made (.query (.plain q))) (hp : Made (.preprocessor p)) :
    Made (.query (.plain (q.runPreprocessor p)))
  | runAdvanced (q p) (hq : Made (.query (.advanced q))) (hp : Made (.preprocessor p)) :
    Made (.query (.advanced (q.runPreprocessor p)))
  | preprocessed (q) (hq : Made (.query q)) : Made (.query q.preprocess)
  | parsedPlain (text q) (h : parseQuery text = .ok q) : Made (.query (.plain q))
  | parsedAdvanced (text q) (h : parseAdvanced text = .ok q) : Made (.query (.advanced q))
  | parsed (text q) (h : parseAny text = .ok q) : Made (.query q)
  /-- Whatever an accessor returns can be used again. -/
  | part (v p) (hv : Made v) (hp : p ∈ v.parts) : Made p

/-- Everything that can be made is sound. -/
theorem sound_of_made (v : Component) (h : v.Made) : v.Sound := by
  -- The induction is on the operations in the order of their use: each keeps what its parts keep.
  induction h with
  | path path x h => exact ofPath_sound path x h
  | call function arguments x _ h ih => exact ofCall_sound function arguments x ih h
  | labelled x label _ ih => exact withAlias_sound x label ih
  | argument x _ ih => exact (sound_argument x).mpr ih
  | literal literal => exact sound_literal literal
  | scalar literal => exact (sound_operand _).mpr trivial
  | values literals => exact (sound_operand _).mpr trivial
  | field path v h => exact ofField_sound path v h
  | comparison left op value leaf _ _ h ihleft ihvalue =>
      exact of_sound left op value leaf ihleft ihvalue h
  | comparisonParts name left op value leaf _ _ h ihleft ihvalue =>
      exact ofParts_sound name left op value leaf ihleft ihvalue h
  | simple leaf _ ih => exact (sound_simple leaf).mpr ih
  | and children _ ih => exact (sound_and children).mpr ih
  | or children _ ih => exact (sound_or children).mpr ih
  | negation child c _ h ih => exact negation_sound child c ih h
  | native piece => exact sound_native piece
  | sort x direction _ ih => exact (sound_sort _).mpr ih
  | sortParts name value direction key _ h ih => exact sortOf_sound name value direction key ih h
  | nativeSort piece => exact sound_nativeSort piece
  | columns names expressions list _ h ih => exact listOf_sound names expressions list ih h
  | expressions expressions _ ih =>
      exact (sound_columns _).mpr ⟨fun name hname => absurd hname List.not_mem_nil, ih⟩
  | items list _ ih => exact (sound_items list).mpr ih
  | nativeSelection piece => exact sound_nativeSelection piece
  | page number size p h => exact sound_page p
  | edit e _ ih => exact (sound_edit e).mpr ih
  | preprocessor p _ ih => exact (sound_preprocessor p).mpr ih
  | blank => exact (sound_plain _).mpr blank_sound
  | blankBuilder => exact (sound_builder _).mpr blankAdvanced_sound
  | edited q e q' _ _ h ihq ihe => exact anyEdit_sound q q' e ihq ((sound_edit e).mp ihe) h
  | builder q _ ih => exact (sound_builder q).mpr ((sound_advanced q).mp ih).2
  | changed q e q' _ _ h ihq ihe =>
      exact (sound_builder q').mpr
        (change_sound q q' e ((sound_builder q).mp ihq) ((sound_edit e).mp ihe) h)
  | built q q' _ h ih => exact checked_sound q q' ((sound_builder q).mp ih) h
  | lifted q _ ih => exact lift_sound q ih
  | run q p _ _ ihq ihp => exact (sound_plain _).mpr (run_sound q p ((sound_plain q).mp ihq) ihp)
  | runAdvanced q p _ _ ihq ihp => exact runAdvanced_sound q p ihq ihp
  | preprocessed q _ ih => exact preprocess_sound q ih
  | parsedPlain text q h => exact parseQuery_sound text q h
  | parsedAdvanced text q h => exact parseAdvanced_sound text q h
  | parsed text q h => exact parseAny_sound text q h
  -- To be sound is to keep the rules of whatever can be read off, so a part is sound as well.
  | part v p _ hp ih => exact (sound_iff.mp ih).2 p hp

/-- Every query of either kind that can be made keeps all rules at all levels: whatever can be
    read off it, in any number of steps, keeps its own. -/
theorem made_lawful (q : AnyQuery) (h : (query q).Made) (w : Component)
    (hw : (query q).Within w) : w.Lawful :=
  sound_of_made (query q) h w hw

/-- A document whose filter compares a property with another one. -/
def sampleMadeText : JsonText :=
  .ofJson (.object [("filter", .object [("not", .object
    [("propertyName", .string "age"), ("operator", .string "GREATER_THAN"),
      ("value", .object [("field", .string "limit")])])])])

/-- The comparison in that document. -/
def sampleMadeLeaf : SimpleCondition :=
  ⟨.property "age" none, .greaterThan, some (.field "limit")⟩

/-- The query of that document, with a sort key added, as an advanced one. -/
def sampleMade : AdvancedQuery where
  filter := some (.not (.simple sampleMadeLeaf))
  sorts := [.simple ⟨.property "age" none, .descending⟩]

/-- The query is made by a document, an edit and a lift, and the comparison under its `not`
    keeps the rule of comparisons. -/
theorem made_lawful_sample :
    (query (.advanced sampleMade)).Made ∧ (comparison sampleMadeLeaf).Lawful := by
  have hmade : (query (.advanced sampleMade)).Made := by
    have hkey : (sortKey (.simple ⟨.property "age" none, .descending⟩)).Made :=
      .sort _ _ (.path "age" _ rfl)
    have hedit : (edit (.addSort (.simple ⟨.property "age" none, .descending⟩))).Made :=
      .edit _ (List.forall_mem_singleton.mpr hkey)
    exact .lifted _ (.edited _ _ (.plain _) (.parsedPlain sampleMadeText _ rfl) hedit rfl)
  have hfilter : (query (.advanced sampleMade)).Within
      (condition (.not (.simple sampleMadeLeaf))) := .part _ _ .self List.mem_cons_self
  have hchild : (query (.advanced sampleMade)).Within (condition (.simple sampleMadeLeaf)) :=
    .part _ _ hfilter List.mem_cons_self
  exact ⟨hmade, made_lawful _ hmade _ (.part _ _ hchild List.mem_cons_self)⟩

end Polyquery
