import Polyquery.Proofs.Document.Writing
import Polyquery.Proofs.Query.Made

/-!
# Queries Written and Read Back

The form of a query that can be made is turned into that query. A document has
its query made by the constructors, and these refuse what breaks a rule, so it
matters that the query to be written keeps all of them: no path is blank, calls
have as many arguments as their functions take, comparisons have a value if and
only if their operators take one, groups are filtered only where there are
some. Everything that can be made is sound, and this is where it is needed.

Together with the reading of documents it follows that no query is out of reach
of a document, except for what a document has no place for.

## Theorems

* `ofEither_written`, `compound_written`: A name or an expression.
* `literalOf_toJson`, `conditionValueOf_toJson`: Constants and values.
* `toExpression_form`, `toCondition_form`, `toQuery_form`, `toAdvanced_form`:
  Forms turned into queries.
* `parseQuery_toJson`, `parseAdvanced_toJson`: Documents turned into queries.
* `written_reads_back`: Every query that can be written is read back.
-/

namespace Polyquery

open Component

section Expressions

theorem checkPath_of_not_blank {path : String} (h : Text.isBlank path = false) :
    Expression.checkPath path = .ok path :=
  checkPath_eq_ok.mpr ⟨h, rfl⟩

/-- A name or an expression, whichever was written, stands for the expression. -/
theorem ofEither_written (site : Site) (x : Expression) (h : (expression x).Sound) :
    Expression.ofEither site x.bareName? x.compound? = .ok x := by
  cases x with
  | call function arguments label => rfl
  | property path label =>
      cases label with
      | some label => rfl
      | none =>
          have hblank := checkPath_of_not_blank ((sound_property path none).mp h)
          simp only [Expression.ofEither, Expression.bareName?, Expression.compound?,
            Expression.ofPath, hblank]
          rfl

theorem literalOf_toJson (l : Literal) (h : l.Writable) : literalOf l.toJson = .ok l := by
  cases l with
  | string s => rfl
  | boolean b => rfl
  | integer n =>
      have hint : (Number.int n).toInt64? = some n := if_pos h.2
      simp only [literalOf, Literal.toJson, Json.ofInt, Literal.ofJson?, hint]
  | float x => exact h.elim

mutual

theorem toExpression_form : ∀ x : Expression, (expression x).Sound →
    (expression x).Everywhere Writable → x.form.toExpression = .ok x
  | .property path label, hsound, _ => by
      have hblank := checkPath_of_not_blank ((sound_property path label).mp hsound)
      simp only [Expression.form, ExpressionForm.toExpression, hblank]
      rfl
  | .call function arguments label, hsound, hwritable => by
      rcases (sound_call function arguments label).mp hsound with ⟨harity, harguments⟩
      have hforms := toArguments_forms arguments harguments fun a ha =>
        hwritable.part (List.mem_map_of_mem ha)
      have hcall : Expression.ofCall function arguments = .ok (.call function arguments none) :=
        if_pos harity
      simp only [Expression.form, ExpressionForm.toExpression, Function.ofName?_name, hforms,
        ok_bind, hcall]
      cases label <;> rfl

theorem toArguments_forms : ∀ arguments : List Argument,
    (∀ a ∈ arguments, (argument a).Sound) →
    (∀ a ∈ arguments, (argument a).Everywhere Writable) →
    ArgumentForm.toArguments (Argument.forms arguments) = .ok arguments
  | [], _, _ => by simp only [Argument.forms, ArgumentForm.toArguments]
  | .expression x :: rest, hsound, hwritable => by
      rw [List.forall_mem_cons] at hsound hwritable
      have hx := toExpression_form x ((sound_argument x).mp hsound.1)
        (hwritable.1.part List.mem_cons_self)
      simp only [Argument.forms, Argument.form, ArgumentForm.toArguments, hx, ok_bind,
        toArguments_forms rest hsound.2 hwritable.2]
      rfl
  | .literal l :: rest, hsound, hwritable => by
      rw [List.forall_mem_cons] at hsound hwritable
      simp only [Argument.forms, Argument.form, ArgumentForm.toArguments,
        literalOf_toJson l hwritable.1.self, ok_bind,
        toArguments_forms rest hsound.2 hwritable.2]
      rfl

end

/-- The same where there may be no expression, because a name was enough. -/
theorem compound_written (x : Expression) (hsound : (expression x).Sound)
    (hwritable : (expression x).Everywhere Writable) :
    (x.compound?.map Expression.form).mapM ExpressionForm.toExpression = .ok x.compound? := by
  have hx := toExpression_form x hsound hwritable
  -- Only a property without an alias is written by its name alone.
  cases x with
  | call function arguments label => exact map_eq_ok.mpr ⟨_, hx, rfl⟩
  | property path label =>
      cases label with
      | none => rfl
      | some label => exact map_eq_ok.mpr ⟨_, hx, rfl⟩

end Expressions

section Conditions

theorem conditionValueOf_toJson (v : ConditionValue) (hsound : (operand v).Sound)
    (hwritable : (operand v).Writable) : conditionValueOf v.toJson = .ok v := by
  cases v with
  | scalar l =>
      have hl := literalOf_toJson l hwritable
      cases l with
      | float x => exact hwritable.elim
      | _ => exact map_eq_ok.mpr ⟨_, hl, rfl⟩
  | list values =>
      refine map_eq_ok.mpr ⟨values, ?_, rfl⟩
      exact mapM_map_eq_ok values fun l hl => literalOf_toJson l (hwritable l hl)
  | field path =>
      have hblank := checkPath_of_not_blank ((sound_operand _).mp hsound)
      exact map_eq_ok.mpr ⟨path, hblank, rfl⟩

theorem comparison_written (leaf : SimpleCondition) (hsound : (comparison leaf).Sound)
    (hwritable : (comparison leaf).Everywhere Writable) : leaf.form.toCondition = .ok leaf := by
  rcases (sound_comparison leaf).mp hsound with ⟨hlawful, hleft, hvalue⟩
  have hop : operatorOf (some leaf.operator.name) = .ok leaf.operator := by
    simp only [operatorOf, Operator.ofName?_name]
  have hx := compound_written leaf.left hleft (hwritable.part List.mem_cons_self)
  have hv : (leaf.value.map ConditionValue.toJson).mapM conditionValueOf = .ok leaf.value := by
    refine optionMapM_map_eq_ok leaf.value fun v hv => ?_
    refine conditionValueOf_toJson v (hvalue v hv) ?_
    exact (hwritable.part (List.mem_cons_of_mem _
      (List.mem_map_of_mem (Option.mem_toList.mpr hv)))).self
  simp only [SimpleCondition.form, SimpleForm.toCondition, hop, hx, hv, ok_bind,
    SimpleCondition.ofParts, ofEither_written .condition leaf.left hleft, of_lawful leaf hlawful]

mutual

theorem toCondition_form : ∀ c : Condition, (condition c).Sound →
    (condition c).Everywhere Writable → c.form.toCondition = .ok c
  | .simple leaf, hsound, hwritable => by
      have hleaf := comparison_written leaf ((sound_simple leaf).mp hsound)
        (hwritable.part List.mem_cons_self)
      simp only [Condition.form, ConditionForm.toCondition, hleaf]
      rfl
  | .and children, hsound, hwritable => by
      have hchildren := toConditions_forms children ((sound_and children).mp hsound) fun c hc =>
        hwritable.part (List.mem_map_of_mem hc)
      simp only [Condition.form, ConditionForm.toCondition, hchildren]
      rfl
  | .or children, hsound, hwritable => by
      have hchildren := toConditions_forms children ((sound_or children).mp hsound) fun c hc =>
        hwritable.part (List.mem_map_of_mem hc)
      simp only [Condition.form, ConditionForm.toCondition, hchildren]
      rfl
  | .not child, hsound, hwritable => by
      rcases (sound_not child).mp hsound with ⟨hnative, hchild⟩
      have hinner := toCondition_form child hchild (hwritable.part List.mem_cons_self)
      simp only [Condition.form, ConditionForm.toCondition, hinner, ok_bind, Condition.negation]
      -- A native piece cannot be negated, and is not written in the first place.
      cases child with
      | native piece => exact absurd rfl (hnative piece)
      | _ => rfl
  | .native _, _, hwritable => hwritable.self.elim

theorem toConditions_forms : ∀ cs : List Condition, (∀ c ∈ cs, (condition c).Sound) →
    (∀ c ∈ cs, (condition c).Everywhere Writable) →
    ConditionForm.toConditions (Condition.forms cs) = .ok cs
  | [], _, _ => by simp only [Condition.forms, ConditionForm.toConditions]
  | c :: rest, hsound, hwritable => by
      rw [List.forall_mem_cons] at hsound hwritable
      simp only [Condition.forms, ConditionForm.toConditions,
        toCondition_form c hsound.1 hwritable.1, ok_bind,
        toConditions_forms rest hsound.2 hwritable.2]
      rfl

end

end Conditions

section Queries

theorem sort_written (key : SortKey) (hsound : (sortKey key).Sound)
    (hwritable : (sortKey key).Everywhere Writable) : key.form.toSortKey = .ok key := by
  cases key with
  | native piece => exact hwritable.self.elim
  | simple key =>
      have hx := (sound_sort key).mp hsound
      have hcompound := compound_written key.expression hx (hwritable.part List.mem_cons_self)
      simp only [SortKey.form, SortForm.toSortKey, hcompound, ok_bind, SimpleSort.ofParts,
        ofEither_written .sort key.expression hx]
      rfl

theorem page_written (p : Pagination) : Pagination.of p.page p.size = .ok p :=
  dif_pos ⟨p.one_le_page, p.one_le_size, p.size_le, p.offset_le⟩

theorem selection_written (columns : Selection) (hsound : (selection columns).Sound)
    (hwritable : (selection columns).Everywhere Writable) :
    columns.form.toSelection = .ok columns := by
  cases columns with
  | native piece => exact hwritable.self.elim
  | items list =>
      have hlist : (Component.columns list).Everywhere Writable :=
        hwritable.part List.mem_cons_self
      rcases (sound_columns list).mp ((sound_items list).mp hsound) with ⟨hnames, hexpressions⟩
      have hx : (list.expressions.map Expression.form).mapM ExpressionForm.toExpression =
          .ok list.expressions := by
        refine mapM_map_eq_ok list.expressions fun x hx => ?_
        refine toExpression_form x (hexpressions x hx) (hlist.part ?_)
        exact List.mem_map_of_mem (List.mem_append_right _ hx)
      have hblank : list.names.any Text.isBlank = false :=
        List.any_eq_false.mpr fun name h => Bool.eq_false_iff.mp (hnames name h)
      simp only [Selection.form, ListForm.toSelection, hx, ok_bind, ExpressionList.of, hblank]
      rfl

variable (q : AdvancedQuery)

/-- The parts that both kinds of query have. -/
theorem toQuery_form (hsound : q.Sound) (hwritable : q.Each (Everywhere Writable)) :
    q.form.toQuery = .ok { q.toQuery with preprocessors := [], customizers := [] } := by
  have hsorts : q.form.sorts.mapM SortForm.toSortKey = .ok q.sorts :=
    mapM_map_eq_ok q.sorts fun key h =>
      sort_written key (hsound.query.sorts key h) (hwritable.query.sorts key h)
  have hfilter : q.form.filter.mapM ConditionForm.toCondition = .ok q.filter :=
    optionMapM_map_eq_ok q.filter fun c h =>
      toCondition_form c (hsound.query.filter c h) (hwritable.query.filter c h)
  have hpage : q.form.pagination.mapM (fun page => Pagination.of page.page page.size) =
      .ok q.pagination := optionMapM_map_eq_ok q.pagination fun p _ => page_written p
  have hselect : q.form.select.mapM ListForm.toSelection = .ok q.select :=
    optionMapM_map_eq_ok q.select fun columns h =>
      selection_written columns (hsound.query.select columns h) (hwritable.query.select columns h)
  simp only [QueryForm.toQuery, hsorts, hfilter, hpage, hselect, ok_bind]
  rfl

/-- A query that can be written has no preprocessors, because these have no place in a document. -/
theorem no_preprocessors {q : Query} (h : q.Each (Everywhere Writable)) : q.preprocessors = [] :=
  List.eq_nil_iff_forall_not_mem.mpr fun p hp => (h.preprocessors p hp).self

theorem toAdvanced_form (hsound : (query (.advanced q)).Sound)
    (hwritable : (query (.advanced q)).Everywhere Writable) : q.form.toAdvanced = .ok q := by
  rcases (sound_advanced q).mp hsound with ⟨hgroups, hparts⟩
  have heach : q.Each (Everywhere Writable) := q.forall_parts.mp fun p hp => hwritable.part hp
  have hcustomizers : q.customizers = [] := hwritable.self
  have hgroupBy : q.form.groupBy.mapM ListForm.toSelection = .ok q.groupBy :=
    optionMapM_map_eq_ok q.groupBy fun columns h =>
      selection_written columns (hparts.groupBy columns h) (heach.groupBy columns h)
  have hhaving : q.form.having.mapM ConditionForm.toCondition = .ok q.having :=
    optionMapM_map_eq_ok q.having fun c h =>
      toCondition_form c (hparts.having c h) (heach.having c h)
  rw [toAdvanced_eq, toQuery_form q hparts heach, ok_bind, hgroupBy, ok_bind, hhaving, ok_bind]
  -- What a document cannot say is empty in the query as well.
  rw [← no_preprocessors heach.query, ← hcustomizers]
  refine if_neg ?_
  rw [Bool.and_eq_true, Bool.not_eq_true']
  rintro ⟨hhas, hnone⟩
  exact absurd (hgroups hhas) (Bool.eq_false_iff.mp hnone)

/-- The text of a query that is written out has the form of the query. -/
theorem formOf_toJson (hwritable : (query (.advanced q)).Everywhere Writable)
    (hdepth : q.toJson.depth < bracketLimit) : formOf (.ofJson q.toJson) = .ok q.form := by
  have hread := reads_query q hwritable bracketLimit hdepth
  refine mapError_eq_ok.mpr ?_
  simp only [QueryForm.decode, decodeText, JsonText.ofJson, hread, ok_bind]
  rfl

end Queries

/-- A plain query that can be written can be written as an advanced one. -/
theorem lift_writable (q : Query) (h : (query (.plain q)).Everywhere Writable) :
    (query (.advanced (.ofQuery q))).Everywhere Writable := by
  have heach : q.Each (Everywhere Writable) := q.forall_parts.mp fun p hp => h.part hp
  exact everywhere_iff.mpr ⟨h.self, (AdvancedQuery.ofQuery q).forall_parts.mpr heach.lift⟩

theorem parseQuery_toJson (q : Query) (hsound : (query (.plain q)).Sound)
    (hwritable : (query (.plain q)).Everywhere Writable) (hdepth : q.toJson.depth < bracketLimit) :
    parseQuery (.ofJson q.toJson) = .ok q := by
  have heach : q.Each (Everywhere Writable) := q.forall_parts.mp fun p hp => hwritable.part hp
  have hcustomizers : q.customizers = [] := hwritable.self
  have hform := formOf_toJson (.ofQuery q) (lift_writable q hwritable) hdepth
  have hquery := toQuery_form (.ofQuery q) ((sound_plain q).mp hsound).lift heach.lift
  -- The form is that of the lifted query, so it says nothing about groups.
  refine parseQuery_eq_ok.mpr ⟨_, hform, rfl, hquery.trans ?_⟩
  rw [← no_preprocessors heach, ← hcustomizers]
  rfl

theorem parseAdvanced_toJson (q : AdvancedQuery) (hsound : (query (.advanced q)).Sound)
    (hwritable : (query (.advanced q)).Everywhere Writable)
    (hdepth : q.toJson.depth < bracketLimit) : parseAdvanced (.ofJson q.toJson) = .ok q := by
  unfold parseAdvanced
  rw [formOf_toJson q hwritable hdepth, ok_bind]
  exact toAdvanced_form q hsound hwritable

/-- Every query of either kind that can be made, and that has no native pieces, preprocessors,
    customizers and floating-point constants at any level, is what its document is read as, as
    long as the document is not too deep for a reader. -/
theorem written_reads_back :
    (∀ q : Query, (query (.plain q)).Made → (query (.plain q)).Everywhere Writable →
      q.toJson.depth < bracketLimit → parseQuery (.ofJson q.toJson) = .ok q) ∧
    ∀ q : AdvancedQuery, (query (.advanced q)).Made →
      (query (.advanced q)).Everywhere Writable → q.toJson.depth < bracketLimit →
      parseAdvanced (.ofJson q.toJson) = .ok q :=
  ⟨fun q hmade => parseQuery_toJson q (sound_of_made _ hmade),
    fun q hmade => parseAdvanced_toJson q (sound_of_made _ hmade)⟩

/-- The comparison of a call with an empty list. -/
def sampleWrittenLeaf : SimpleCondition where
  left := .call .coalesce [.expression (.property "age" none), .literal (.integer 1)] none
  operator := .isIn
  value := some (.list [])

/-- A plain query with that comparison as its filter. -/
def sampleWrittenPlain : Query where
  filter := some (.simple sampleWrittenLeaf)

/-- An advanced query with a group under an alias and the same filter. -/
def sampleWrittenAdvanced : AdvancedQuery where
  filter := some (.simple sampleWrittenLeaf)
  groupBy := some (.items ⟨["name"], [.property "age" (some "years")]⟩)

/-- A query of either kind is read back from its document. -/
theorem written_reads_back_sample :
    parseQuery (.ofJson sampleWrittenPlain.toJson) = .ok sampleWrittenPlain ∧
    parseAdvanced (.ofJson sampleWrittenAdvanced.toJson) = .ok sampleWrittenAdvanced := by
  have hage : (expression (.property "age" none)).Made := .path "age" _ rfl
  have hcall : (expression sampleWrittenLeaf.left).Made := by
    refine .call .coalesce [.expression (.property "age" none), .literal (.integer 1)] _ ?_ rfl
    rw [List.forall_mem_cons, List.forall_mem_singleton]
    exact ⟨.argument _ hage, .literal _⟩
  have hleaf : (condition (.simple sampleWrittenLeaf)).Made := by
    refine .simple _ (.comparison _ .isIn (some (.list [])) _ hcall (fun v hv => ?_) rfl)
    rw [← Option.some.inj hv]
    exact .values []
  have hplain : (query (.plain sampleWrittenPlain)).Made :=
    .edited _ (.setFilter (.simple sampleWrittenLeaf)) _ .blank
      (.edit _ (List.forall_mem_singleton.mpr hleaf)) rfl
  have hcolumns : (columns ⟨["name"], [.property "age" (some "years")]⟩).Made :=
    .columns ["name"] _ _ (List.forall_mem_singleton.mpr (.labelled _ "years" hage)) rfl
  have hadvanced : (query (.advanced sampleWrittenAdvanced)).Made :=
    .edited _ (.setGroupBy (.items ⟨["name"], [.property "age" (some "years")]⟩)) _
      (.lifted _ hplain) (.edit _ (List.forall_mem_singleton.mpr (.items _ hcolumns))) rfl
  have hproperty : ∀ path label, (expression (.property path label)).Everywhere Writable :=
    fun path label => (everywhere_none rfl).mpr trivial
  have harguments : (expression sampleWrittenLeaf.left).Everywhere Writable := by
    refine everywhere_iff.mpr ⟨trivial, List.forall_mem_cons.mpr ⟨?_, ?_⟩⟩
    · exact (everywhere_one trivial rfl).mpr (hproperty "age" none)
    · exact List.forall_mem_singleton.mpr ((everywhere_none rfl).mpr ⟨by decide, by decide⟩)
  have hcomparison : (comparison sampleWrittenLeaf).Everywhere Writable := by
    refine everywhere_iff.mpr ⟨trivial, List.forall_mem_cons.mpr ⟨harguments, ?_⟩⟩
    exact List.forall_mem_singleton.mpr
      ((everywhere_none rfl).mpr fun l hl => absurd hl List.not_mem_nil)
  have hfilter : (condition (.simple sampleWrittenLeaf)).Everywhere Writable :=
    (everywhere_one trivial rfl).mpr hcomparison
  have hgroups : (columns ⟨["name"], [.property "age" (some "years")]⟩).Everywhere Writable :=
    everywhere_iff.mpr ⟨trivial, List.forall_mem_cons.mpr
      ⟨hproperty _ _, List.forall_mem_singleton.mpr (hproperty _ _)⟩⟩
  refine ⟨written_reads_back.1 _ hplain ?_ (by decide),
    written_reads_back.2 _ hadvanced ?_ (by decide)⟩
  · exact everywhere_iff.mpr ⟨rfl, List.forall_mem_singleton.mpr hfilter⟩
  · exact everywhere_iff.mpr ⟨rfl, List.forall_mem_cons.mpr
      ⟨hfilter, List.forall_mem_singleton.mpr ((everywhere_one trivial rfl).mpr hgroups)⟩⟩

end Polyquery
