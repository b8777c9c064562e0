import Polyquery.Document.Parse
import Polyquery.Proofs.Json.Record

/-!
# The Three Readings of a Text

A text can be read as a plain query, as an advanced query, and as whichever of
the two it looks like. The form of the text is the same in all three, so what
is left to compare is what is made of the form. The two kinds of query are made
part by part, each on its own; they agree as long as the form says nothing
about groups, and then the advanced query is the plain one lifted.

The third reading is therefore the second one with less lifting, and the first
one differs from the second only by refusing to hear about groups. That a form
says something about groups is a matter of the text: a value other than null
stands there as the group-by or as the filter of groups.

## Main definitions

* `QueryForm.GroupingPart`: The places of the group-by and of the filter of
  groups in a document.

## Theorems

* `toAdvanced_eq`, `toAdvanced_plain`: The advanced query of a form, and of one
  without groups.
* `parseQuery_eq_ok`: When a text is read as a plain query.
* `parseQuery_lift`, `parseAny_plain`, `parseAny_lift`: The readings compared in
  pairs.
* `read_grouping`: What a field of a document says about groups.
* `grouping_written`: A form that says something about groups was written so.
* `readings_agree`: The three readings of a text.
-/

namespace Polyquery

/-- The advanced query of a form is its plain query with the groups added, although the two are
    made apart: they run through the same steps in the same order. -/
theorem toAdvanced_eq (form : QueryForm) :
    form.toAdvanced = (do
      let shared ← form.toQuery
      let groupBy ← form.groupBy.mapM ListForm.toSelection
      let having ← form.having.mapM ConditionForm.toCondition
      AdvancedQuery.checked { shared with groupBy := groupBy, having := having }) := by
  simp only [QueryForm.toAdvanced, QueryForm.toQuery, bind_assoc, pure_bind]

theorem toQuery_preprocessors (form : QueryForm) (q : Query) (h : form.toQuery = .ok q) :
    q.preprocessors = [] := by
  rcases bind_eq_ok.mp h with ⟨_, _, h⟩
  rcases bind_eq_ok.mp h with ⟨_, _, h⟩
  rcases bind_eq_ok.mp h with ⟨_, _, h⟩
  rcases bind_eq_ok.mp h with ⟨_, _, h⟩
  rw [← Except.ok.inj h]

/-- Without groups the advanced query of a form is its plain query lifted, and what stops the
    one stops the other. -/
theorem toAdvanced_plain (form : QueryForm) (h : form.hasGrouping = false) :
    form.toAdvanced = form.toQuery.map .ofQuery := by
  have hparts : form.groupBy = none ∧ form.having = none := by
    simpa only [QueryForm.hasGrouping, Bool.or_eq_false_iff, Option.isSome_eq_false_iff,
      Option.isNone_iff_eq_none] using h
  rw [toAdvanced_eq, hparts.1, hparts.2]
  cases hquery : form.toQuery with
  | error e => rfl
  | ok q =>
      -- Lifting leaves preprocessors behind, but there are none.
      cases q with
      | mk filter sorts pagination distinct select preprocessors customizers =>
          have hnone : preprocessors = [] := toQuery_preprocessors form _ hquery
          rw [hnone]
          rfl

/-- A plain query that a text is read as belongs to a form without groups. -/
theorem parseQuery_eq_ok {text : JsonText} {q : Query} :
    parseQuery text = .ok q ↔
      ∃ form, formOf text = .ok form ∧ form.hasGrouping = false ∧ form.toQuery = .ok q := by
  unfold parseQuery
  rw [bind_eq_ok]
  refine exists_congr fun form => and_congr_right fun _ => ?_
  cases form.hasGrouping with
  | true => simp only [if_true, throw, throwThe, MonadExceptOf.throw, error_bind, reduceCtorEq,
      Bool.true_eq_false, false_and]
  | false => simp only [Bool.false_eq_true, if_false, true_and]

/-- A text that is read as a plain query is read as the same query lifted. -/
theorem parseQuery_lift (text : JsonText) (q : Query) (h : parseQuery text = .ok q) :
    parseAdvanced text = .ok (.ofQuery q) := by
  rcases parseQuery_eq_ok.mp h with ⟨form, hform, hgrouping, hquery⟩
  unfold parseAdvanced
  rw [hform, ok_bind, toAdvanced_plain form hgrouping, hquery]
  rfl

/-- A text that looks like a plain query is read as that query. -/
theorem parseAny_plain (text : JsonText) (q : Query) (h : parseAny text = .ok (.plain q)) :
    parseQuery text = .ok q := by
  rcases bind_eq_ok.mp h with ⟨form, hform, h⟩
  split at h
  · rcases map_eq_ok.mp h with ⟨a, _, heq⟩
    exact absurd heq (by simp only [reduceCtorEq, not_false_eq_true])
  · rename_i hlooks
    rcases map_eq_ok.mp h with ⟨found, hfound, heq⟩
    rw [AnyQuery.plain.injEq] at heq
    rw [Bool.not_eq_true, Bool.or_eq_false_iff] at hlooks
    exact parseQuery_eq_ok.mpr ⟨form, hform, hlooks.2, heq ▸ hfound⟩

/-- What a text looks like, lifted, is what it is read as when it is taken for an advanced
    query, errors included. -/
theorem parseAny_lift (text : JsonText) :
    (parseAny text).map AnyQuery.lift = parseAdvanced text := by
  unfold parseAny parseAdvanced
  cases formOf text with
  | error e => rfl
  | ok form =>
      simp only [ok_bind]
      split
      · cases form.toAdvanced <;> rfl
      · rename_i hlooks
        rw [Bool.not_eq_true, Bool.or_eq_false_iff] at hlooks
        rw [toAdvanced_plain form hlooks.2]
        cases form.toQuery <;> rfl

/-- The values of the group-by and of the filter of groups in a document, by their keys or, in
    an array, by their places. -/
inductive QueryForm.GroupingPart : Outline → Outline → Prop where
  | member (members stop name part) (hname : name = "groupBy" ∨ name = "having")
    (hmem : (.ok name, part) ∈ members) : GroupingPart (.object members stop) part
  | item (items stop part) (i : Nat) (hi : i = 5 ∨ i = 6) (hpart : items[i]? = some part) :
    GroupingPart (.array items stop) part

/-- The value of a field with one of the two names stands at one of the two places. -/
theorem groupingPart_of_stands (outline part : Outline) (field : Field QueryForm)
    (h : outline.StandsFor QueryForm.shape.fields field part)
    (hname : field.name = "groupBy" ∨ field.name = "having") :
    QueryForm.GroupingPart outline part := by
  cases h with
  | member members stop field part hfield hmem =>
      exact .member members stop field.name part hname hmem
  | item items stop field part i hfield hpart =>
      refine .item items stop part i ?_ hpart
      match i, hfield with
      | 0, hfield | 1, hfield | 2, hfield | 3, hfield | 4, hfield =>
        rw [← Option.some.inj hfield] at hname
        exact absurd hname (by decide)
      | 5, _ => exact .inl rfl
      | 6, _ => exact .inr rfl

/-- What a value that is read as an optional one yields, unless it is null. -/
theorem decodeOption_ne_none {α : Type} {decode : Decoder α} {budget : Nat} {part : Outline}
    {found : Option α} (h : decodeOption decode budget part = .ok found)
    (hsome : found.isSome = true) : part ≠ .null := by
  intro hnull
  rw [hnull] at h
  rw [← Except.ok.inj h] at hsome
  exact absurd hsome (by simp only [Option.isSome_none, Bool.false_eq_true, not_false_eq_true])

/-- A field of a document either leaves alone what the form says about groups, or it is the
    group-by or the filter of groups and its value is not null. -/
theorem read_grouping (budget : Nat) (field : Field QueryForm)
    (hfield : field ∈ QueryForm.shape.fields) (part : Outline) (before after : QueryForm)
    (h : field.read budget part before = .ok after) (hafter : after.hasGrouping = true) :
    before.hasGrouping = true ∨
      ((field.name = "groupBy" ∨ field.name = "having") ∧ part ≠ .null) := by
  simp only [QueryForm.shape, List.mem_cons, List.not_mem_nil, or_false] at hfield
  rcases hfield with rfl | rfl | rfl | rfl | rfl | rfl | rfl
  all_goals
    rcases map_eq_ok.mp h with ⟨found, hfound, heq⟩
    rw [← heq] at hafter
  case inr.inr.inr.inr.inr.inl =>
    rcases Bool.or_eq_true_iff.mp hafter with hsome | hsome
    · exact .inr ⟨.inl rfl, decodeOption_ne_none hfound hsome⟩
    · exact .inl (Bool.or_eq_true_iff.mpr (.inr hsome))
  case inr.inr.inr.inr.inr.inr =>
    rcases Bool.or_eq_true_iff.mp hafter with hsome | hsome
    · exact .inl (Bool.or_eq_true_iff.mpr (.inl hsome))
    · exact .inr ⟨.inr rfl, decodeOption_ne_none hfound hsome⟩
  all_goals exact .inl hafter

/-- A form that says something about groups comes from a text in which a value that is not null
    stands as the group-by or as the filter of groups. -/
theorem grouping_written (text : JsonText) (form : QueryForm)
    (h : QueryForm.decode text = .ok form) (hgrouping : form.hasGrouping = true) :
    ∃ part, QueryForm.GroupingPart text.outline part ∧ part ≠ .null := by
  rcases bind_eq_ok.mp h with ⟨read, hread, hrest⟩
  have hsame : read = form := by
    split at hrest
    · exact absurd hrest (by simp only [throw, throwThe, MonadExceptOf.throw, error_bind,
        reduceCtorEq, not_false_eq_true])
    · exact Except.ok.inj hrest
  rw [hsame] at hread
  refine decodeRecord_keeps (P := fun form => form.hasGrouping = true →
    ∃ part, QueryForm.GroupingPart text.outline part ∧ part ≠ .null) QueryForm.shape
    bracketLimit text.outline form ?_ ?_ hread hgrouping
  · exact fun hstart => absurd hstart (by decide)
  · intro field part hstands before after hbefore hfield hafter
    rcases read_grouping _ field hstands.mem part before after hfield hafter with
      hkept | ⟨hname, hpart⟩
    · exact hbefore hkept
    · exact ⟨part, groupingPart_of_stands text.outline part field hstands hname, hpart⟩

/-- The three readings of any text. What it looks like is what it is read as when it is taken
    for a query of that kind, a plain one lifted where an advanced one is asked for, and it fails
    with the error of the advanced reading and only then. A plain query is always an advanced one
    as well, and where only one of the two can be read, the text is a document in which a value
    other than null stands as the group-by or as the filter of groups. -/
theorem readings_agree (text : JsonText) :
    (∀ q, parseAny text = .ok (.plain q) →
      parseQuery text = .ok q ∧ parseAdvanced text = .ok (.ofQuery q)) ∧
    (∀ q, parseAny text = .ok (.advanced q) → parseAdvanced text = .ok q) ∧
    (∀ e, parseAny text = .error e ↔ parseAdvanced text = .error e) ∧
    (∀ q, parseQuery text = .ok q → parseAdvanced text = .ok (.ofQuery q)) ∧
    (¬ ((∃ q, parseQuery text = .ok q) ↔ ∃ q, parseAdvanced text = .ok q) →
      (∃ form, QueryForm.decode text = .ok form) ∧
        ∃ part, QueryForm.GroupingPart text.outline part ∧ part ≠ .null) := by
  refine ⟨?_, ?_, ?_, parseQuery_lift text, ?_⟩
  · intro q h
    have hquery := parseAny_plain text q h
    exact ⟨hquery, parseQuery_lift text q hquery⟩
  · intro q h
    rw [← parseAny_lift text, h]
    rfl
  · intro e
    rw [← errorOf?_eq_some, ← errorOf?_eq_some, ← parseAny_lift text, errorOf?_map]
  · intro hdiffer
    cases ha : parseAdvanced text with
    | error e =>
        -- The plain reading implies the other one, so neither can be made.
        have hneither : ∀ a, parseAdvanced text ≠ .ok a := by
          intro a h
          rw [ha] at h
          exact absurd h (by simp only [reduceCtorEq, not_false_eq_true])
        refine absurd ⟨fun h => ?_, fun h => ?_⟩ hdiffer
        · rcases h with ⟨q, h⟩
          exact absurd (parseQuery_lift text q h) (hneither _)
        · rcases h with ⟨a, h⟩
          exact absurd h (hneither a)
    | ok a =>
        rcases bind_eq_ok.mp ha with ⟨form, hform, hmade⟩
        have hdecode : QueryForm.decode text = .ok form := mapError_eq_ok.mp hform
        refine ⟨⟨form, hdecode⟩, grouping_written text form hdecode ?_⟩
        cases hgrouping : form.hasGrouping with
        | true => rfl
        | false =>
            rw [toAdvanced_plain form hgrouping] at hmade
            rcases map_eq_ok.mp hmade with ⟨q, hq, _⟩
            exact absurd ⟨fun _ => ⟨a, ha⟩,
              fun _ => ⟨q, parseQuery_eq_ok.mpr ⟨form, hform, hgrouping, hq⟩⟩⟩ hdiffer

/-- A document with a filter alone. -/
def sampleFilteredText : JsonText :=
  .ofJson (.object [("filter", .object [("propertyName", .string "a"), ("value", .ofInt 1)])])

/-- A document with a group-by alone. -/
def sampleGroupedText : JsonText :=
  .ofJson (.object [("groupBy", .object [("propertyNames", .array [.string "a"])])])

/-- The document with a filter is a plain query in all three readings, and the one with a
    group-by has no plain reading. -/
theorem readings_agree_sample :
    (∃ q, parseAny sampleFilteredText = .ok (.plain q) ∧ parseQuery sampleFilteredText = .ok q ∧
      parseAdvanced sampleFilteredText = .ok (.ofQuery q)) ∧
    (∃ q, parseAny sampleGroupedText = .ok (.advanced q) ∧
      parseAdvanced sampleGroupedText = .ok q) ∧
    ∃ part, QueryForm.GroupingPart sampleGroupedText.outline part ∧ part ≠ .null := by
  have hplain : ∃ q, parseAny sampleFilteredText = .ok (.plain q) := ⟨_, rfl⟩
  have hadvanced : ∃ q, parseAny sampleGroupedText = .ok (.advanced q) := ⟨_, rfl⟩
  rcases hplain with ⟨q, hq⟩
  rcases hadvanced with ⟨a, ha⟩
  rcases readings_agree sampleFilteredText with ⟨hfiltered, _, _, _, _⟩
  rcases readings_agree sampleGroupedText with ⟨_, hgrouped, _, _, hwritten⟩
  have hdiffer : ¬ ((∃ q, parseQuery sampleGroupedText = .ok q) ↔
      ∃ q, parseAdvanced sampleGroupedText = .ok q) := by
    intro h
    have hrefused : parseQuery sampleGroupedText = .error (.document .groupingInPlainQuery) := rfl
    rcases h.mpr ⟨a, hgrouped a ha⟩ with ⟨p, hp⟩
    rw [hrefused] at hp
    exact absurd hp (by simp only [reduceCtorEq, not_false_eq_true])
  exact ⟨⟨q, hq, hfiltered q hq⟩, ⟨a, ha, hgrouped a ha⟩, (hwritten hdiffer).2⟩

end Polyquery
