import Polyquery.Document.Parse
import Polyquery.Proofs.Json.Record

/-!
# The Keys of a Condition

Which keys an object has that is read as a condition. A comparison is read
member by member, and a key that it does not know makes it no comparison. The
other three forms look for one key, `and`, `or` or `not`, and are content with
an object as soon as they find it. So an object with one of these keys and with
others besides is read, too, and what stands under the other keys is lost. In
every other object of a document an unknown key is a mistake.

The objects that are read as conditions are those at the place of the filter
and of the filter of groups, and from there on the ones that the form of each
of them leads to. `ConditionForm.Within` follows the forms; what an object has
lost is not followed.

## Main definitions

* `ConditionForm.Within`: The values that are read as conditions in a value.
* `QueryForm.ConditionPart`: The places of conditions in a document.
* `JsonText.Accepted`: A text that is a query.
* `Unmixed`: The keys of one form alone.
* `ReadsAlone`: A member that is read as if it were the only one.

## Theorems

* `listUnder?_once`, `childUnder?_once`: A key that is found.
* `ofMembers?_keys`: The keys of a comparison.
* `within_reads`: What is read as a condition has the form of one.
* `object_keys`: The keys of one object.
* `conditionKeys_of_accepted`: The keys of all conditions in a text.
-/

namespace Polyquery

/-- The keys of a comparison. -/
def SimpleForm.keys : List String :=
  ["propertyName", "propertyExpression", "operator", "value"]

/-- The keys of the other forms of a condition. -/
def ConditionForm.connectives : List String :=
  ["and", "or", "not"]

/-- The keys of an object are those of one form of a condition: the key of a connective and
    nothing else, or keys of a comparison. -/
inductive Unmixed : List (String × Json) → Prop where
  | connective (key : String) (value : Json) (h : key ∈ ConditionForm.connectives) :
    Unmixed [(key, value)]
  | comparison (members : List (String × Json)) (h : ∀ member ∈ members,
      member.1 ∈ SimpleForm.keys) : Unmixed members

/-- A key stands among members exactly once; the other members are given. -/
def Once (key : String) (value : Json) (members others : List (String × Json)) : Prop :=
  ∃ before after, members = before ++ (key, value) :: after ∧ others = before ++ after ∧
    ∀ member ∈ others, member.1 ≠ key

/-- An object is read as if the member under a connective were its only one. -/
def ReadsAlone (members others : List (String × Json)) : Prop :=
  ∃ key value, key ∈ ConditionForm.connectives ∧ Once key value members others ∧
    ConditionForm.ofJson? (.object members) = ConditionForm.ofJson? (.object [(key, value)])

/-- The values that are read as conditions when a value is read as one. -/
inductive ConditionForm.Within (value : Json) : Json → Prop where
  | self : Within value value
  | all (members items item children) (h : Within value (.object members))
    (hform : ofJson? (.object members) = some (.and children))
    (hmem : ("and", .array items) ∈ members) (hitem : item ∈ items) : Within value item
  | any (members items item children) (h : Within value (.object members))
    (hform : ofJson? (.object members) = some (.or children))
    (hmem : ("or", .array items) ∈ members) (hitem : item ∈ items) : Within value item
  | turned (members inner child) (h : Within value (.object members))
    (hform : ofJson? (.object members) = some (.not child))
    (hmem : ("not", inner) ∈ members) : Within value inner

section Once

variable {key : String} {value : Json} {members others : List (String × Json)}

theorem once_cons (member : String × Json) (h : Once key value members others)
    (hne : member.1 ≠ key) : Once key value (member :: members) (member :: others) := by
  rcases h with ⟨before, after, hmembers, hothers, hkeys⟩
  refine ⟨member :: before, after, ?_, ?_, ?_⟩
  · rw [hmembers, List.cons_append]
  · rw [hothers, List.cons_append]
  · rw [List.forall_mem_cons]
    exact ⟨hne, hkeys⟩

/-- There is one value under a key that stands there once. -/
theorem once_value (h : Once key value members others) (other : Json)
    (hmem : (key, other) ∈ members) : other = value := by
  rcases h with ⟨before, after, hmembers, hothers, hkeys⟩
  rw [hmembers, List.mem_append, List.mem_cons] at hmem
  rw [hothers] at hkeys
  rcases hmem with hbefore | heq | hafter
  · exact absurd rfl (hkeys (key, other) (List.mem_append_left _ hbefore))
  · exact (Prod.mk.inj heq).2
  · exact absurd rfl (hkeys (key, other) (List.mem_append_right _ hafter))

/-- A key that stands there once stands there alone, or something stands beside it. -/
theorem once_alone (h : Once key value members []) : members = [(key, value)] := by
  rcases h with ⟨before, after, hmembers, hothers, _⟩
  rcases List.append_eq_nil_iff.mp hothers.symm with ⟨hbefore, hafter⟩
  rw [hmembers, hbefore, hafter, List.nil_append]

theorem once_of_hasKey (rest : List (String × Json)) (h : hasKey key rest = false) :
    Once key value ((key, value) :: rest) rest := by
  refine ⟨[], rest, rfl, rfl, ?_⟩
  intro member hmem heq
  have htrue : hasKey key rest = true := by
    unfold hasKey
    exact List.any_eq_true.mpr ⟨member, hmem, beq_iff_eq.mpr heq⟩
  rw [h] at htrue
  exact Bool.false_ne_true htrue

end Once

/-- The conditions under a key are those in the only array under it. -/
theorem listUnder?_once (key : String) (members : List (String × Json))
    (children : List ConditionForm)
    (h : ConditionForm.listUnder? key members = some children) :
    ∃ value others, Once key value members others ∧
      ConditionForm.ofArray? value = some children := by
  induction members with
  | nil => exact absurd h (by
      simp only [ConditionForm.listUnder?, reduceCtorEq, not_false_eq_true])
  | cons member rest ih =>
      rcases member with ⟨k, value⟩
      simp only [ConditionForm.listUnder?] at h
      by_cases hk : k = key
      · rw [if_pos hk] at h
        -- A key that comes again is refused.
        cases hrepeated : hasKey key rest with
        | true => exact absurd h (by simp only [hrepeated, if_true, reduceCtorEq,
            not_false_eq_true])
        | false =>
            rw [hrepeated, if_neg Bool.false_ne_true] at h
            rw [hk]
            exact ⟨value, rest, once_of_hasKey rest hrepeated, h⟩
      · rw [if_neg hk] at h
        rcases ih h with ⟨found, others, honce, hread⟩
        exact ⟨found, (k, value) :: others, once_cons (k, value) honce hk, hread⟩

/-- The condition under a key is the only value under it. -/
theorem childUnder?_once (key : String) (members : List (String × Json)) (child : ConditionForm)
    (h : ConditionForm.childUnder? key members = some child) :
    ∃ value others, Once key value members others ∧ ConditionForm.ofJson? value = some child := by
  induction members with
  | nil => exact absurd h (by
      simp only [ConditionForm.childUnder?, reduceCtorEq, not_false_eq_true])
  | cons member rest ih =>
      rcases member with ⟨k, value⟩
      simp only [ConditionForm.childUnder?] at h
      by_cases hk : k = key
      · rw [if_pos hk] at h
        cases hrepeated : hasKey key rest with
        | true => exact absurd h (by simp only [hrepeated, if_true, reduceCtorEq,
            not_false_eq_true])
        | false =>
            rw [hrepeated, if_neg Bool.false_ne_true] at h
            rw [hk]
            exact ⟨value, rest, once_of_hasKey rest hrepeated, h⟩
      · rw [if_neg hk] at h
        rcases ih h with ⟨found, others, honce, hread⟩
        exact ⟨found, (k, value) :: others, once_cons (k, value) honce hk, hread⟩

/-- A comparison has no keys but its own. -/
theorem ofMembers?_keys (members : List (String × Json)) :
    ∀ (seen : List String) (form result : SimpleForm),
      SimpleForm.ofMembers? seen form members = some result →
      ∀ member ∈ members, member.1 ∈ SimpleForm.keys := by
  induction members with
  | nil => exact fun _ _ _ _ member hmem => absurd hmem List.not_mem_nil
  | cons first rest ih =>
      intro seen form result h
      rcases first with ⟨key, value⟩
      rw [List.forall_mem_cons]
      unfold SimpleForm.ofMembers? at h
      -- A member is read under one of the four keys, and the rest is read after it.
      split at h
      · exact absurd h (by simp only [reduceCtorEq, not_false_eq_true])
      · split at h
        · rename_i hkey
          split at h
          · exact ⟨show key ∈ SimpleForm.keys by rw [hkey]; decide, ih _ _ _ h⟩
          · exact absurd h (by simp only [reduceCtorEq, not_false_eq_true])
        · split at h
          · rename_i hkey
            split at h
            · exact ⟨show key ∈ SimpleForm.keys by rw [hkey]; decide, ih _ _ _ h⟩
            · exact absurd h (by simp only [reduceCtorEq, not_false_eq_true])
          · split at h
            · rename_i hkey
              split at h
              · exact ⟨show key ∈ SimpleForm.keys by rw [hkey]; decide, ih _ _ _ h⟩
              · exact absurd h (by simp only [reduceCtorEq, not_false_eq_true])
            · split at h
              · rename_i hkey
                exact ⟨show key ∈ SimpleForm.keys by rw [hkey]; decide, ih _ _ _ h⟩
              · exact absurd h (by simp only [reduceCtorEq, not_false_eq_true])

/-- The four forms of an object that is read as a condition. -/
theorem ofJson?_object (members : List (String × Json)) (form : ConditionForm)
    (h : ConditionForm.ofJson? (.object members) = some form) :
    (∃ children, form = .and children ∧
      ConditionForm.listUnder? "and" members = some children) ∨
    (∃ children, form = .or children ∧
      ConditionForm.listUnder? "or" members = some children) ∨
    (∃ child, form = .not child ∧ ConditionForm.childUnder? "not" members = some child) ∨
    ∃ simple, form = .simple simple ∧
      SimpleForm.ofMembers? [] .blank members = some simple := by
  simp only [ConditionForm.ofJson?] at h
  -- The forms are tried one after the other, and the first that can be read is taken.
  cases hand : ConditionForm.listUnder? "and" members with
  | some children =>
      rw [hand] at h
      exact .inl ⟨children, (Option.some.inj h).symm, rfl⟩
  | none =>
      rw [hand] at h
      cases hor : ConditionForm.listUnder? "or" members with
      | some children =>
          rw [hor] at h
          exact .inr (.inl ⟨children, (Option.some.inj h).symm, rfl⟩)
      | none =>
          rw [hor] at h
          cases hnot : ConditionForm.childUnder? "not" members with
          | some child =>
              rw [hnot] at h
              exact .inr (.inr (.inl ⟨child, (Option.some.inj h).symm, rfl⟩))
          | none =>
              rw [hnot] at h
              rcases Option.map_eq_some_iff.mp h with ⟨simple, hsimple, hform⟩
              exact .inr (.inr (.inr ⟨simple, hform.symm, hsimple⟩))

/-- Conditions in an array have the forms of its items. -/
theorem ofItems?_reads (items : List Json) :
    ∀ children, ConditionForm.ofItems? items = some children →
      ∀ item ∈ items, ∃ form, ConditionForm.ofJson? item = some form := by
  induction items with
  | nil => exact fun _ _ item hmem => absurd hmem List.not_mem_nil
  | cons item rest ih =>
      intro children h
      unfold ConditionForm.ofItems? at h
      split at h
      · rename_i form hform
        rcases Option.map_eq_some_iff.mp h with ⟨others, hothers, _⟩
        rw [List.forall_mem_cons]
        exact ⟨⟨form, hform⟩, ih others hothers⟩
      · exact absurd h (by simp only [reduceCtorEq, not_false_eq_true])

/-- Each form of a condition in a condition that is read is read itself. -/
theorem within_reads (value part : Json) (h : ConditionForm.Within value part)
    (hvalue : ∃ form, ConditionForm.ofJson? value = some form) :
    ∃ form, ConditionForm.ofJson? part = some form := by
  -- The conditions under `and` and under `or` are read as one array.
  have hlisted : ∀ (key : String) (members : List (String × Json)) (items : List Json) children,
      ConditionForm.listUnder? key members = some children → (key, .array items) ∈ members →
      ∀ item ∈ items, ∃ form, ConditionForm.ofJson? item = some form := by
    intro key members items children hlist hmem item hitem
    rcases listUnder?_once key members children hlist with ⟨found, others, honce, hread⟩
    rw [← once_value honce (.array items) hmem] at hread
    exact ofItems?_reads items children hread item hitem
  cases h with
  | self => exact hvalue
  | all members items item children h hform hmem hitem =>
      rcases ofJson?_object members _ hform with ⟨found, _, hlist⟩ | ⟨_, hother, _⟩ |
        ⟨_, hother, _⟩ | ⟨_, hother, _⟩
      · exact hlisted "and" members items found hlist hmem part hitem
      all_goals exact absurd hother (by simp only [reduceCtorEq, not_false_eq_true])
  | any members items item children h hform hmem hitem =>
      rcases ofJson?_object members _ hform with ⟨_, hother, _⟩ | ⟨found, _, hlist⟩ |
        ⟨_, hother, _⟩ | ⟨_, hother, _⟩
      · exact absurd hother (by simp only [reduceCtorEq, not_false_eq_true])
      · exact hlisted "or" members items found hlist hmem part hitem
      all_goals exact absurd hother (by simp only [reduceCtorEq, not_false_eq_true])
  | turned members inner child h hform hmem =>
      rcases ofJson?_object members _ hform with ⟨_, hother, _⟩ | ⟨_, hother, _⟩ |
        ⟨found, _, hchild⟩ | ⟨_, hother, _⟩
      · exact absurd hother (by simp only [reduceCtorEq, not_false_eq_true])
      · exact absurd hother (by simp only [reduceCtorEq, not_false_eq_true])
      · rcases childUnder?_once "not" members found hchild with ⟨value, others, honce, hread⟩
        rw [once_value honce part hmem]
        exact ⟨found, hread⟩
      · exact absurd hother (by simp only [reduceCtorEq, not_false_eq_true])

/-- An object that is read as a condition has the keys of one form, or it is read as if a
    connective in it were its only key. -/
theorem object_keys (members : List (String × Json))
    (h : ∃ form, ConditionForm.ofJson? (.object members) = some form) :
    Unmixed members ∨ ∃ others, others ≠ [] ∧ ReadsAlone members others := by
  rcases h with ⟨form, hform⟩
  -- A connective that decides alone is either the only key or stands beside dropped ones.
  have hfound : ∀ key value others, key ∈ ConditionForm.connectives →
      Once key value members others →
      ConditionForm.ofJson? (.object [(key, value)]) = some form →
      Unmixed members ∨ ∃ others, others ≠ [] ∧ ReadsAlone members others := by
    intro key value others hkey honce halone
    cases others with
    | nil =>
        rw [once_alone honce]
        exact .inl (.connective key value hkey)
    | cons other rest =>
        refine .inr ⟨other :: rest, List.cons_ne_nil other rest, key, value, hkey, honce, ?_⟩
        rw [hform, halone]
  -- The forms are tried in turn: `and`, `or`, `not` and at last a comparison.
  rcases ofJson?_object members form hform with ⟨children, heq, hlist⟩ | ⟨children, heq, hlist⟩ |
    ⟨child, heq, hchild⟩ | ⟨simple, _, hsimple⟩
  · rcases listUnder?_once "and" members children hlist with ⟨value, others, honce, hread⟩
    refine hfound "and" value others (by decide) honce ?_
    rw [heq]
    simp only [ConditionForm.ofJson?, ConditionForm.listUnder?, hasKey, List.any_nil,
      Bool.false_eq_true, if_true, if_false, hread]
  · rcases listUnder?_once "or" members children hlist with ⟨value, others, honce, hread⟩
    refine hfound "or" value others (by decide) honce ?_
    rw [heq]
    simp only [ConditionForm.ofJson?, ConditionForm.listUnder?, hasKey, List.any_nil,
      Bool.false_eq_true, if_true, if_false, hread, String.reduceEq]
  · rcases childUnder?_once "not" members child hchild with ⟨value, others, honce, hread⟩
    refine hfound "not" value others (by decide) honce ?_
    rw [heq]
    simp only [ConditionForm.ofJson?, ConditionForm.listUnder?, ConditionForm.childUnder?, hasKey,
      List.any_nil, Bool.false_eq_true, if_true, if_false, hread, String.reduceEq]
  · exact .inl (.comparison members (ofMembers?_keys members [] .blank simple hsimple))

/-- The values at the places of conditions in a document: the filter and the filter of groups,
    by their keys or, in an array, by their places. -/
inductive QueryForm.ConditionPart : Outline → Outline → Prop where
  | member (members stop name part) (hname : name = "filter" ∨ name = "having")
    (hmem : (.ok name, part) ∈ members) : ConditionPart (.object members stop) part
  | item (items stop part) (i : Nat) (hi : i = 0 ∨ i = 6) (hpart : items[i]? = some part) :
    ConditionPart (.array items stop) part

/-- A text that is a query in one of the three readings. -/
def JsonText.Accepted (text : JsonText) : Prop :=
  (∃ q, parseQuery text = .ok q) ∨ (∃ q, parseAdvanced text = .ok q) ∨
    ∃ q, parseAny text = .ok q

/-- A text that is a query has been read as a document. -/
theorem decode_of_accepted (text : JsonText) (h : text.Accepted) :
    ∃ form, decodeRecord QueryForm.shape bracketLimit text.outline = .ok form := by
  have hform : ∃ form, formOf text = .ok form := by
    rcases h with ⟨q, hq⟩ | ⟨q, hq⟩ | ⟨q, hq⟩
    all_goals
      rcases bind_eq_ok.mp hq with ⟨form, hform, _⟩
      exact ⟨form, hform⟩
  rcases hform with ⟨form, hform⟩
  rcases bind_eq_ok.mp (mapError_eq_ok.mp hform) with ⟨value, hvalue, _⟩
  exact ⟨value, hvalue⟩

/-- What is read as an optional condition is null or has the form of a condition. -/
theorem optional_reads (budget : Nat) (part : Outline) (form : Option ConditionForm)
    (h : decodeOption ConditionForm.decode budget part = .ok form) :
    part = .null ∨ ∃ value, part.strict budget = .ok value ∧
      ∃ form, ConditionForm.ofJson? value = some form := by
  unfold decodeOption at h
  split at h
  · exact .inl rfl
  · rcases map_eq_ok.mp h with ⟨found, hfound, _⟩
    rcases bind_eq_ok.mp hfound with ⟨value, hvalue, hread⟩
    refine .inr ⟨value, readable_eq_ok.mp hvalue, ?_⟩
    split at hread
    · rename_i form hform
      exact ⟨form, hform⟩
    · exact absurd hread (by simp only [throw, throwThe, MonadExceptOf.throw, reduceCtorEq,
        not_false_eq_true])

/-- The conditions of a document that has been read. -/
theorem conditionPart_reads (outline part : Outline) (form : QueryForm)
    (h : decodeRecord QueryForm.shape bracketLimit outline = .ok form)
    (hpart : QueryForm.ConditionPart outline part) :
    part = .null ∨ ∃ value, part.strict (bracketLimit - 1) = .ok value ∧
      ∃ form, ConditionForm.ofJson? value = some form := by
  -- The filter and the filter of groups are read by one reader, under two names.
  have hfield : ∀ (name : String) (put : Option ConditionForm → QueryForm → QueryForm),
      outline.StandsFor QueryForm.shape.fields
        (.of name .nullable (decodeOption ConditionForm.decode) put) part →
      part = .null ∨ ∃ value, part.strict (bracketLimit - 1) = .ok value ∧
        ∃ form, ConditionForm.ofJson? value = some form := by
    intro name put hstands
    rcases decodeRecord_reads QueryForm.shape bracketLimit outline form h _ part hstands with
      ⟨before, after, hread⟩
    rcases map_eq_ok.mp hread with ⟨found, hfound, _⟩
    exact optional_reads (bracketLimit - 1) part found hfound
  -- A record may be an object with keys or an array in the order of its fields.
  cases hpart with
  | member members stop name part hname hmem =>
      rcases hname with hname | hname
      · rw [hname] at hmem
        exact hfield "filter" (fun v form => { form with filter := v })
          (.member members stop _ part rfl hmem)
      · rw [hname] at hmem
        exact hfield "having" (fun v form => { form with having := v })
          (.member members stop _ part rfl hmem)
  | item items stop part i hi hpart =>
      rcases hi with hi | hi
      · rw [hi] at hpart
        exact hfield "filter" (fun v form => { form with filter := v })
          (.item items stop _ part 0 rfl hpart)
      · rw [hi] at hpart
        exact hfield "having" (fun v form => { form with having := v })
          (.item items stop _ part 6 rfl hpart)

/-- In a text that is a query, every object that is read as a condition, however deep, has the
    keys of one form, or it is read as if a connective in it were its only key and what else
    stands in it is lost. -/
theorem conditionKeys_of_accepted (text : JsonText) (h : text.Accepted) (part : Outline)
    (hpart : QueryForm.ConditionPart text.outline part) :
    part = .null ∨ ∃ value, part.strict (bracketLimit - 1) = .ok value ∧
      ∀ members, ConditionForm.Within value (.object members) →
        Unmixed members ∨ ∃ others, others ≠ [] ∧ ReadsAlone members others := by
  rcases decode_of_accepted text h with ⟨form, hform⟩
  rcases conditionPart_reads text.outline part form hform hpart with hnull | ⟨value, hstrict, hread⟩
  · exact .inl hnull
  · refine .inr ⟨value, hstrict, ?_⟩
    intro members hwithin
    exact object_keys members (within_reads value (.object members) hwithin hread)

/-- The members of a condition with two connectives. -/
def sampleMixed : List (String × Json) :=
  [("and", .array [.object [("propertyName", .string "a"), ("value", .ofInt 1)]]),
    ("or", .array [.object [("propertyName", .string "b"), ("value", .ofInt 2)]])]

/-- The condition with two connectives is accepted as a filter, and one of them is lost. -/
theorem conditionKeys_of_accepted_sample :
    (JsonText.ofJson (.object [("filter", .object sampleMixed)])).Accepted ∧
      ¬ Unmixed sampleMixed ∧ ∃ others, others ≠ [] ∧ ReadsAlone sampleMixed others := by
  have haccepted : (JsonText.ofJson (.object [("filter", .object sampleMixed)])).Accepted :=
    .inl ⟨_, rfl⟩
  have hmixed : ¬ Unmixed sampleMixed := by
    intro h
    cases h with
    | comparison _ h => exact absurd (h _ List.mem_cons_self) (by decide)
  refine ⟨haccepted, hmixed, ?_⟩
  rcases conditionKeys_of_accepted _ haccepted (.ofJson (.object sampleMixed))
    (.member _ _ "filter" _ (.inl rfl) List.mem_cons_self) with hnull | ⟨value, hvalue, hkeys⟩
  · exact absurd hnull (fun h => Outline.noConfusion h)
  · have hself : value = .object sampleMixed := (Except.ok.inj hvalue).symm
    rw [hself] at hkeys
    rcases hkeys sampleMixed .self with hunmixed | halone
    · exact absurd hunmixed hmixed
    · exact halone

end Polyquery
