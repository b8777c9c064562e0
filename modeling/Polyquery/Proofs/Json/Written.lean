import Polyquery.Proofs.Json.Record

/-!
# Values Written and Read Back

A value is read back when a reader makes of it what it was written for.
Readers are put together from smaller ones, and so is this property (`Reads`):
a list is read back when its items are, and a record when its fields are.

How deep a reader may go is the only thing that can still stop it. Its budget
of brackets has to exceed the depth of the value. What is inside a bracket is
less deep by one, and the budget is one less there, so the same condition
serves at all levels and need not be followed through the readers.

A record is written without the fields that say nothing more than what the
reader starts with. Which ones these are depends on the record, and so the
fields are gone through in order, each written or left out (`Fills`). A reader
takes the members of an object in any order; it is only the statements that
are simpler when there is one.

## Main definitions

* `Json.depth`: The number of brackets that a value opens at once.
* `Json.record`, `Json.unlessEmpty`, `Json.unlessFalse`: Records without the
  fields left out.
* `Reads`: What a reader makes of a value at every budget that suffices.
* `Fills`: Fields that are written or left out, in order.

## Theorems

* `strict_ofJson`: Every value is read back as itself.
* `reads_string`, `reads_natural`, `reads_choice`, `reads_some`, `reads_list`
  and their siblings: Simple readers.
* `Fills.option`, `Fills.text`, `Fills.list`, `Fills.flag`: Fields that are
  left out when there is nothing to say.
* `decodeMembers_field`, `decodeMembers_fills`, `reads_record`: Records.
-/

namespace Polyquery

namespace Json

mutual

/-- The greatest number of brackets that are open at one place of a value. -/
def depth : Json → Nat
  | .array items => depthItems items + 1
  | .object members => depthMembers members + 1
  | _ => 0

/-- The depth of the deepest item. -/
def depthItems : List Json → Nat
  | [] => 0
  | item :: rest => max item.depth (depthItems rest)

/-- The depth of the deepest member. -/
def depthMembers : List (String × Json) → Nat
  | [] => 0
  | (_, value) :: rest => max value.depth (depthMembers rest)

end

theorem depth_le_members (members : List (String × Json)) :
    ∀ member ∈ members, member.2.depth ≤ depthMembers members := by
  induction members with
  | nil => exact fun member h => absurd h List.not_mem_nil
  | cons first rest ih =>
      rw [List.forall_mem_cons]
      exact ⟨Nat.le_max_left _ _, fun member h => Nat.le_trans (ih member h) (Nat.le_max_right _ _)⟩

/-- The members of a record, without the fields that are left out. -/
def presentMembers (fields : List (String × Option Json)) : List (String × Json) :=
  fields.filterMap fun field => field.2.map fun value => (field.1, value)

/-- A record, without the fields that are left out. -/
def record (fields : List (String × Option Json)) : Json :=
  .object (presentMembers fields)

theorem record_ne_null (fields : List (String × Option Json)) : record fields ≠ .null := by
  simp only [record, ne_eq, reduceCtorEq, not_false_eq_true]

/-- An array, left out when it has no items. -/
def unlessEmpty : List Json → Option Json
  | [] => none
  | items => some (.array items)

/-- A truth value, left out when it is false. -/
def unlessFalse : Bool → Option Json
  | false => none
  | true => some (.bool true)

end Json

open Json

/-- A budget that exceeds the depth of brackets and what is in them is enough to open them. -/
theorem enterBracket_of_lt {depth budget : Nat} (h : depth + 1 < budget) :
    enterBracket budget = .ok (budget - 1) ∧ depth < budget - 1 := by
  refine ⟨if_neg ?_, ?_⟩ <;> omega

section Strict

mutual

/-- A value that is not too deep is read back as itself. -/
theorem strict_ofJson : ∀ (value : Json) (budget : Nat), value.depth < budget →
    (Outline.ofJson value).strict budget = .ok value
  | .null, _, _ => rfl
  | .bool _, _, _ => rfl
  | .number _, _, _ => rfl
  | .string _, _, _ => rfl
  | .array items, budget, h => by
      rcases enterBracket_of_lt h with ⟨hbracket, hitems⟩
      simp only [Outline.ofJson, Outline.strict, hbracket, ok_bind,
        strictItems_ofItems items _ hitems]
      rfl
  | .object members, budget, h => by
      rcases enterBracket_of_lt h with ⟨hbracket, hmembers⟩
      simp only [Outline.ofJson, Outline.strict, hbracket, ok_bind,
        strictMembers_ofMembers members _ hmembers]
      rfl

theorem strictItems_ofItems : ∀ (items : List Json) (budget : Nat), depthItems items < budget →
    Outline.strictItems budget (Outline.ofItems items) = .ok items
  | [], _, _ => rfl
  | item :: rest, budget, h => by
      rw [depthItems, Nat.max_lt] at h
      simp only [Outline.ofItems, Outline.strictItems, strict_ofJson item budget h.1,
        strictItems_ofItems rest budget h.2, ok_bind]
      rfl

theorem strictMembers_ofMembers : ∀ (members : List (String × Json)) (budget : Nat),
    depthMembers members < budget →
    Outline.strictMembers budget (Outline.ofMembers members) = .ok members
  | [], _, _ => rfl
  | (key, value) :: rest, budget, h => by
      rw [depthMembers, Nat.max_lt] at h
      simp only [Outline.ofMembers, Outline.strictMembers, strict_ofJson value budget h.1,
        strictMembers_ofMembers rest budget h.2, ok_bind]
      rfl

end

end Strict

/-- A reader makes `a` of a written value, as long as the value is not too deep. -/
def Reads {α : Type} (decode : Decoder α) (value : Json) (a : α) : Prop :=
  ∀ budget, value.depth < budget → decode budget (.ofJson value) = .ok a

section Readers

variable {α ι : Type}

theorem reads_value (value : Json) : Reads decodeValue value value := by
  intro budget h
  simp only [decodeValue, strict_ofJson value budget h]
  rfl

theorem reads_string (s : String) : Reads decodeString (.string s) s :=
  fun _ _ => rfl

theorem reads_true : Reads decodeBool (.bool true) true :=
  fun _ _ => rfl

theorem reads_natural (type : String) (n : Nat) : Reads (decodeNatural type) (.ofNat n) n := by
  intro budget _
  have hsign : ¬ (Int.ofNat n < 0) := Int.not_lt.mpr (Int.natCast_nonneg n)
  simp only [Json.ofNat, Outline.ofJson, decodeNatural]
  rw [if_neg hsign]
  rfl

theorem reads_choice (choices : List (String × α)) (word : String) (a : α)
    (h : choices.lookup word = some a) : Reads (decodeChoice choices) (.string word) a := by
  intro budget _
  simp only [Outline.ofJson, decodeChoice, chooseWord, h]

/-- What a reader reads back it reads back where it is optional, unless it is null. -/
theorem reads_some {decode : Decoder α} {value : Json} {a : α} (h : Reads decode value a)
    (hnull : value ≠ .null) : Reads (decodeOption decode) value (some a) := by
  intro budget hdepth
  have hread := h budget hdepth
  unfold decodeOption
  split
  · rename_i heq
    cases value with
    | null => exact absurd rfl hnull
    | _ => exact absurd heq (by simp only [Outline.ofJson, reduceCtorEq, not_false_eq_true])
  · rw [hread]
    rfl

theorem decodeItems_written {decode : Decoder α} (f : ι → Json) (g : ι → α) (budget : Nat)
    (xs : List ι) (h : ∀ x ∈ xs, Reads decode (f x) (g x))
    (hdepth : depthItems (xs.map f) < budget) :
    decodeItems decode budget .closed (Outline.ofItems (xs.map f)) = .ok (xs.map g) := by
  induction xs with
  | nil => rfl
  | cons x rest ih =>
      rw [List.map_cons, depthItems, Nat.max_lt] at hdepth
      rw [List.forall_mem_cons] at h
      simp only [List.map_cons, Outline.ofItems, decodeItems, h.1 budget hdepth.1, ok_bind,
        ih h.2 hdepth.2]
      rfl

theorem reads_list {decode : Decoder α} (f : ι → Json) (g : ι → α) (xs : List ι)
    (h : ∀ x ∈ xs, Reads decode (f x) (g x)) :
    Reads (decodeList decode) (.array (xs.map f)) (xs.map g) := by
  intro budget hdepth
  rcases enterBracket_of_lt hdepth with ⟨hbracket, hitems⟩
  simp only [Outline.ofJson, decodeList, hbracket]
  exact decodeItems_written f g (budget - 1) xs h hitems

end Readers

/-- Fields gone through in order, each of which is written or left out, and what becomes of a
    record when they are read. -/
inductive Fills {ρ : Type} : List (Field ρ) → List (String × Option Json) → ρ → ρ → Prop where
  | done (record) : Fills [] [] record record
  | absent {field fields members record result} (hpresence : field.presence ≠ .required)
    (h : Fills fields members record result) :
    Fills (field :: fields) ((field.name, none) :: members) record result
  | present {α : Type} {name presence} {decode : Decoder α} {put fields members record result}
    {value a} (hread : Reads decode value a) (h : Fills fields members (put a record) result) :
    Fills (.of name presence decode put :: fields) ((name, some value) :: members) record result

section Records

variable {ρ α ι : Type} {name : String} {presence : Presence} {decode : Decoder α}
  {fields : List (Field ρ)} {members : List (String × Option Json)} {record result : ρ}

/-- An optional field, left out when there is nothing to write. -/
theorem Fills.option {put : Option α → ρ → ρ} (hpresence : presence ≠ .required) (x : Option ι)
    (f : ι → Json) (g : ι → α)
    (hread : ∀ i, x = some i → Reads decode (f i) (g i) ∧ f i ≠ .null)
    (hput : put none record = record) (h : Fills fields members (put (x.map g) record) result) :
    Fills (.of name presence (decodeOption decode) put :: fields) ((name, x.map f) :: members)
      record result := by
  cases x with
  | none =>
      rw [Option.map_none, hput] at h
      exact .absent hpresence h
  | some i =>
      rcases hread i rfl with ⟨hread, hnull⟩
      exact .present (reads_some hread hnull) h

/-- An optional text. -/
theorem Fills.text {put : Option String → ρ → ρ} (hpresence : presence ≠ .required)
    (s : Option String) (hput : put none record = record)
    (h : Fills fields members (put s record) result) :
    Fills (.of name presence (decodeOption decodeString) put :: fields)
      ((name, s.map .string) :: members) record result := by
  refine .option hpresence s .string id (fun word _ => ⟨reads_string word, ?_⟩) hput ?_
  · simp only [ne_eq, reduceCtorEq, not_false_eq_true]
  · rw [Option.map_id]
    exact h

/-- A list, left out when it is empty. -/
theorem Fills.list {put : List α → ρ → ρ} (hpresence : presence ≠ .required) (xs : List ι)
    (f : ι → Json) (g : ι → α) (hread : ∀ x ∈ xs, Reads decode (f x) (g x))
    (hput : put [] record = record) (h : Fills fields members (put (xs.map g) record) result) :
    Fills (.of name presence (decodeList decode) put :: fields)
      ((name, unlessEmpty (xs.map f)) :: members) record result := by
  cases xs with
  | nil =>
      rw [List.map_nil, hput] at h
      exact .absent hpresence h
  | cons x xs => exact .present (reads_list f g (x :: xs) hread) h

/-- A flag, left out when it is not set. -/
theorem Fills.flag {put : Bool → ρ → ρ} (hpresence : presence ≠ .required) (b : Bool)
    (hput : put false record = record) (h : Fills fields members (put b record) result) :
    Fills (.of name presence decodeBool put :: fields) ((name, unlessFalse b) :: members)
      record result := by
  cases b with
  | false =>
      rw [hput] at h
      exact .absent hpresence h
  | true => exact .present reads_true h

section Names

variable {before after : List (Field ρ)} {field : Field ρ}
  (h : ((before ++ field :: after).map (·.name)).Nodup)

include h

theorem name_not_mem : field.name ∉ before.map (·.name) := by
  rw [List.map_append, List.nodup_append] at h
  exact fun hmem => h.2.2 field.name hmem field.name List.mem_cons_self rfl

theorem find?_name :
    (before ++ field :: after).find? (fun f => f.name == field.name) = some field := by
  rw [List.find?_append, List.find?_eq_none.mpr, Option.none_or, List.find?_cons_of_pos]
  · exact beq_self_eq_true _
  · intro f hf hname
    exact name_not_mem h (beq_iff_eq.mp hname ▸ List.mem_map_of_mem hf)

end Names

/-- A member whose key names a field that has not been seen. -/
theorem decodeMembers_field (shape : RecordShape ρ) (budget : Nat) (stop : Stop)
    (seen : List String) (key : String) (value : Outline) (field : Field ρ)
    (rest : List (Except Fault String × Outline))
    (hfind : (shape.fields.find? fun field => field.name == key) = some field)
    (hnew : seen.contains key = false) :
    shape.decodeMembers budget stop seen record ((.ok key, value) :: rest) =
      (field.read budget value record >>= fun next =>
        shape.decodeMembers budget stop (key :: seen) next rest) := by
  have hkey : readable (.ok key : Except Fault String) = .ok key := rfl
  simp only [RecordShape.decodeMembers, hkey, ok_bind, hfind, hnew, Bool.false_eq_true, if_false]

/-- The members of a record that is written field by field. The induction is on the fields that
    are left; those before them have been gone through, and only their names have been seen. -/
theorem decodeMembers_fills (shape : RecordShape ρ) (budget : Nat)
    (hnames : (shape.fields.map (·.name)).Nodup) (h : Fills fields members record result) :
    ∀ (before : List (Field ρ)) (seen : List String), shape.fields = before ++ fields →
      (∀ name ∈ seen, name ∈ before.map (·.name)) →
      (∀ member ∈ presentMembers members, member.2.depth < budget) →
      ∃ seen', shape.decodeMembers budget .closed seen record
          (Outline.ofMembers (presentMembers members)) = .ok (result, seen') ∧
        (∀ name ∈ seen, name ∈ seen') ∧
        ∀ field ∈ fields, field.presence = .required → field.name ∈ seen' := by
  induction h with
  | done record =>
      intro before seen _ _ _
      exact ⟨seen, rfl, fun _ h => h, fun field h => absurd h List.not_mem_nil⟩
  | @absent field fields members record result hpresence _ ih =>
      intro before seen hfields hseen hdepth
      have hsame : ∀ name ∈ seen, name ∈ (before ++ [field]).map (·.name) := by
        rw [List.map_append]
        exact fun name h => List.mem_append_left _ (hseen name h)
      rcases ih (before ++ [field]) seen (hfields.trans (List.append_cons _ _ _)) hsame hdepth with
        ⟨seen', hread, hkept, hrequired⟩
      refine ⟨seen', hread, hkept, ?_⟩
      rw [List.forall_mem_cons]
      exact ⟨fun h => absurd h hpresence, hrequired⟩
  | @present α name presence decode put fields members record result value a hvalue _ ih =>
      intro before seen hfields hseen hdepth
      -- The name finds its own field, because no field before it has the same name.
      rw [hfields] at hnames
      have hfind : shape.fields.find? (fun f => f.name == name) =
          some (.of name presence decode put) := hfields ▸ find?_name hnames
      have hnew : seen.contains name = false := by
        rw [Bool.eq_false_iff, ne_eq, List.contains_iff_mem]
        exact fun h => name_not_mem hnames (hseen name h)
      have hmembers : presentMembers ((name, some value) :: members) =
          (name, value) :: presentMembers members := rfl
      rw [hmembers, List.forall_mem_cons] at hdepth
      have hfield : (Field.of name presence decode put).read budget (.ofJson value) record =
          .ok (put a record) := map_eq_ok.mpr ⟨a, hvalue budget hdepth.1, rfl⟩
      have hmore : ∀ other ∈ name :: seen,
          other ∈ (before ++ [Field.of name presence decode put]).map (·.name) := by
        rw [List.forall_mem_cons, List.map_append]
        exact ⟨List.mem_append_right _ List.mem_cons_self,
          fun other h => List.mem_append_left _ (hseen other h)⟩
      rcases ih (before ++ [.of name presence decode put]) (name :: seen)
        (hfields.trans (List.append_cons _ _ _)) hmore hdepth.2 with
        ⟨seen', hread, hkept, hrequired⟩
      rw [List.forall_mem_cons] at hkept
      refine ⟨seen', ?_, hkept.2, ?_⟩
      · rw [hmembers, Outline.ofMembers, decodeMembers_field shape budget .closed seen name _ _ _
          hfind hnew, hfield]
        exact hread
      · rw [List.forall_mem_cons]
        exact ⟨fun _ => hkept.1, hrequired⟩

/-- A record that is written field by field is read back. -/
theorem reads_record (shape : RecordShape ρ) (hnames : (shape.fields.map (·.name)).Nodup)
    (h : Fills shape.fields members shape.start result) :
    Reads (decodeRecord shape) (Json.record members) result := by
  intro budget hdepth
  rcases enterBracket_of_lt hdepth with ⟨hbracket, hmembers⟩
  rcases decodeMembers_fills shape (budget - 1) hnames h [] [] rfl
    (fun name h => absurd h List.not_mem_nil)
    (fun member h => Nat.lt_of_le_of_lt (depth_le_members _ member h) hmembers) with
    ⟨seen, hread, _, hrequired⟩
  -- Every field that has to be there was written, so none is missing.
  have hmissing : shape.fields.find? (fun field =>
      field.presence = .required && !seen.contains field.name) = none := by
    rw [List.find?_eq_none]
    intro field hfield hmissing
    rw [Bool.and_eq_true, decide_eq_true_eq, Bool.not_eq_true', Bool.eq_false_iff, ne_eq,
      List.contains_iff_mem] at hmissing
    exact hmissing.2 (hrequired field hfield hmissing.1)
  simp only [Json.record, Outline.ofJson, decodeRecord, hbracket]
  change (shape.decodeMembers (budget - 1) .closed [] shape.start _ >>= _) = _
  rw [hread, ok_bind]
  simp only [hmissing]
  rfl

end Records

end Polyquery
