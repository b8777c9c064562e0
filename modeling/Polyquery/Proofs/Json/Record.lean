import Polyquery.Json.Decode
import Polyquery.Proofs.Outcome

/-!
# What a Record Has Read

A record that has been read has read every value that stands for one of its
fields. In an object these are the members whose key names a field, and in an
array the items in the order of the fields. That the reader of a field accepted
the value is what a statement about accepted texts needs.

Of the record that comes out it is known that it was put together field by
field. What holds of the record of which nothing has been read, and is kept
whenever a value is read that stands for a field, holds of the whole record.

## Main definitions

* `Outline.StandsFor`: The values that stand for a field.

## Theorems

* `decodeMembers_reads`, `decodeInOrder_reads`: Members and items.
* `decodeRecord_reads`: A whole record.
* `decodeMembers_keeps`, `decodeInOrder_keeps`, `decodeRecord_keeps`: What
  every field keeps, the record keeps.
-/

namespace Polyquery

/-- The values in an outline that stand for a field of a record. -/
inductive Outline.StandsFor {ρ : Type} (fields : List (Field ρ)) :
    Outline → Field ρ → Outline → Prop where
  | member (members stop field value)
    (hfield : (fields.find? fun f => f.name == field.name) = some field)
    (hmem : (.ok field.name, value) ∈ members) :
    StandsFor fields (.object members stop) field value
  | item (items stop field value) (i : Nat) (hfield : fields[i]? = some field)
    (hvalue : items[i]? = some value) : StandsFor fields (.array items stop) field value

theorem Outline.StandsFor.mem {ρ : Type} {fields : List (Field ρ)} {outline value : Outline}
    {field : Field ρ} (h : outline.StandsFor fields field value) : field ∈ fields := by
  cases h with
  | member members stop field value hfield _ => exact List.mem_of_find?_eq_some hfield
  | item items stop field value i hfield _ => exact List.mem_of_getElem? hfield

theorem readable_eq_ok {α : Type} {x : Except Fault α} {a : α} :
    readable x = .ok a ↔ x = .ok a :=
  mapError_eq_ok

/-- The budget inside another bracket. -/
theorem enterBracket_eq_ok {budget inner : Nat} (h : enterBracket budget = .ok inner) :
    inner = budget - 1 := by
  unfold enterBracket at h
  split at h
  · exact absurd h (by simp only [reduceCtorEq, not_false_eq_true])
  · exact (Except.ok.inj h).symm

section Records

variable {ρ : Type} (shape : RecordShape ρ)

/-- Every member whose key names a field has been read as that field. -/
theorem decodeMembers_reads (budget : Nat) (stop : Stop) (field : Field ρ) (value : Outline)
    (hfield : (shape.fields.find? fun f => f.name == field.name) = some field)
    (members : List (Except Fault String × Outline)) :
    ∀ (seen : List String) (record : ρ) (result : ρ × List String),
      shape.decodeMembers budget stop seen record members = .ok result →
      (.ok field.name, value) ∈ members →
      ∃ before after, field.read budget value before = .ok after := by
  induction members with
  | nil => exact fun _ _ _ _ hmem => absurd hmem List.not_mem_nil
  | cons member rest ih =>
      intro seen record result h hmem
      rcases member with ⟨key, found⟩
      unfold RecordShape.decodeMembers at h
      rcases bind_eq_ok.mp h with ⟨other, hother, h⟩
      rw [readable_eq_ok] at hother
      -- The member that is read here may be the one asked about; if not, it is a later one.
      cases hfind : shape.fields.find? (fun f => f.name == other) with
      | some known =>
          simp only [hfind] at h
          split at h
          · exact absurd h (by simp only [throw, throwThe, MonadExceptOf.throw, error_bind,
              reduceCtorEq, not_false_eq_true])
          · rcases bind_eq_ok.mp h with ⟨next, hnext, h⟩
            rcases List.mem_cons.mp hmem with heq | htail
            · rw [hother, Prod.mk.injEq, Except.ok.injEq] at heq
              rw [← heq.1, hfield, Option.some.injEq] at hfind
              rw [heq.2, hfind]
              exact ⟨record, next, hnext⟩
            · exact ih _ next result h htail
      | none =>
          simp only [hfind] at h
          split at h
          · exact absurd h (by simp only [throw, throwThe, MonadExceptOf.throw, error_bind,
              reduceCtorEq, not_false_eq_true])
          · rcases bind_eq_ok.mp h with ⟨_, _, h⟩
            rcases List.mem_cons.mp hmem with heq | htail
            · -- A key that names no field is not the key that is asked about.
              rw [hother, Prod.mk.injEq, Except.ok.injEq] at heq
              rw [← heq.1, hfield] at hfind
              exact absurd hfind (by simp only [reduceCtorEq, not_false_eq_true])
            · exact ih seen record result h htail

/-- Every item has been read as the field in its place. -/
theorem decodeInOrder_reads (budget : Nat) (stop : Stop) (fields : List (Field ρ)) :
    ∀ (items : List Outline) (count : Nat) (record result : ρ) (i : Nat) (field : Field ρ)
      (value : Outline),
      shape.decodeInOrder budget stop count record fields items = .ok result →
      fields[i]? = some field → items[i]? = some value →
      ∃ before after, field.read budget value before = .ok after := by
  induction fields with
  | nil =>
      intro items count record result i field value _ hfield _
      exact absurd hfield (by simp only [List.getElem?_nil, reduceCtorEq, not_false_eq_true])
  | cons first fields ih =>
      intro items count record result i field value h hfield hvalue
      cases items with
      | nil => exact absurd hvalue (by
          simp only [List.getElem?_nil, reduceCtorEq, not_false_eq_true])
      | cons item items =>
          unfold RecordShape.decodeInOrder at h
          rcases bind_eq_ok.mp h with ⟨next, hnext, h⟩
          -- The first item is read here; a later one is one place nearer in the rest.
          cases i with
          | zero =>
              rw [List.getElem?_cons_zero, Option.some.injEq] at hfield hvalue
              rw [← hfield, ← hvalue]
              exact ⟨record, next, hnext⟩
          | succ i =>
              rw [List.getElem?_cons_succ] at hfield hvalue
              exact ih items (count + 1) next result i field value h hfield hvalue

/-- Every value that stands for a field has been read as that field, with one bracket less. -/
theorem decodeRecord_reads (budget : Nat) (outline : Outline) (result : ρ)
    (h : decodeRecord shape budget outline = .ok result) (field : Field ρ) (value : Outline)
    (hvalue : outline.StandsFor shape.fields field value) :
    ∃ before after, field.read (budget - 1) value before = .ok after := by
  cases hvalue with
  | member members stop field value hfield hmem =>
      rcases bind_eq_ok.mp h with ⟨inner, hbracket, h⟩
      rcases bind_eq_ok.mp h with ⟨⟨record, seen⟩, hmembers, _⟩
      rw [enterBracket_eq_ok (readable_eq_ok.mp hbracket)] at hmembers
      exact decodeMembers_reads shape (budget - 1) stop field value hfield members [] _ _
        hmembers hmem
  | item items stop field value i hfield hvalue =>
      rcases bind_eq_ok.mp h with ⟨inner, hbracket, h⟩
      rw [enterBracket_eq_ok (readable_eq_ok.mp hbracket)] at h
      exact decodeInOrder_reads shape (budget - 1) stop shape.fields items 0 _ result i field value
        h hfield hvalue

section Keeps

variable {P : ρ → Prop}

/-- What holds of a record and is kept by the field of every member holds of the record with
    the members. -/
theorem decodeMembers_keeps (budget : Nat) (stop : Stop)
    (members : List (Except Fault String × Outline))
    (hkeeps : ∀ field value, (shape.fields.find? fun f => f.name == field.name) = some field →
      (.ok field.name, value) ∈ members → ∀ before after, P before →
      field.read budget value before = .ok after → P after) :
    ∀ (seen : List String) (record : ρ) (result : ρ × List String), P record →
      shape.decodeMembers budget stop seen record members = .ok result → P result.1 := by
  induction members with
  | nil =>
      intro seen record result hrecord h
      rcases bind_eq_ok.mp h with ⟨_, _, h⟩
      rw [← Except.ok.inj h]
      exact hrecord
  | cons member rest ih =>
      intro seen record result hrecord h
      rcases member with ⟨key, value⟩
      have hrest := ih fun field value hfield hmem =>
        hkeeps field value hfield (List.mem_cons_of_mem _ hmem)
      unfold RecordShape.decodeMembers at h
      rcases bind_eq_ok.mp h with ⟨name, hname, h⟩
      rw [readable_eq_ok] at hname
      -- The member is a field of the shape, which is read, or it is ignored or refused.
      cases hfind : shape.fields.find? (fun f => f.name == name) with
      | some field =>
          simp only [hfind] at h
          have hfound := List.find?_some hfind
          have heq : field.name = name := beq_iff_eq.mp hfound
          split at h
          · -- A field that comes twice is refused.
            exact absurd h (by simp only [throw, throwThe, MonadExceptOf.throw, error_bind,
              reduceCtorEq, not_false_eq_true])
          · rcases bind_eq_ok.mp h with ⟨next, hnext, h⟩
            refine hrest _ next result (hkeeps field value ?_ ?_ record next hrecord hnext) h
            · rw [heq]
              exact hfind
            · rw [heq, hname]
              exact List.mem_cons_self
      | none =>
          simp only [hfind] at h
          split at h
          · exact absurd h (by simp only [throw, throwThe, MonadExceptOf.throw, error_bind,
              reduceCtorEq, not_false_eq_true])
          · rcases bind_eq_ok.mp h with ⟨_, _, h⟩
            exact hrest seen record result hrecord h

/-- The same for the items of an array, each with the field in its place. -/
theorem decodeInOrder_keeps (budget : Nat) (stop : Stop) (fields : List (Field ρ)) :
    ∀ (items : List Outline),
      (∀ (i : Nat) (field : Field ρ) (value : Outline), fields[i]? = some field →
        items[i]? = some value → ∀ before after, P before →
        field.read budget value before = .ok after → P after) →
      ∀ (count : Nat) (record result : ρ), P record →
      shape.decodeInOrder budget stop count record fields items = .ok result → P result := by
  induction fields with
  | nil =>
      intro items hkeeps count record result hrecord h
      cases items with
      | nil =>
          rcases bind_eq_ok.mp h with ⟨_, _, h⟩
          rw [← Except.ok.inj h]
          exact hrecord
      | cons item items => exact absurd h (by
          simp only [RecordShape.decodeInOrder, reduceCtorEq, not_false_eq_true])
  | cons first fields ih =>
      intro items hkeeps count record result hrecord h
      have hnone : ∀ (i : Nat) (field : Field ρ) (value : Outline), fields[i]? = some field →
          ([] : List Outline)[i]? = some value → ∀ before after, P before →
          field.read budget value before = .ok after → P after :=
        fun i field value _ hvalue => absurd hvalue (by
          simp only [List.getElem?_nil, reduceCtorEq, not_false_eq_true])
      unfold RecordShape.decodeInOrder at h
      cases items with
      | nil =>
          -- A field without an item is left as it was.
          rcases bind_eq_ok.mp h with ⟨_, _, h⟩
          split at h
          · exact ih [] hnone count record result hrecord h
          · exact absurd h (by simp only [throw, throwThe, MonadExceptOf.throw, reduceCtorEq,
              not_false_eq_true])
      | cons item items =>
          rcases bind_eq_ok.mp h with ⟨next, hnext, h⟩
          refine ih items ?_ (count + 1) next result
            (hkeeps 0 first item rfl rfl record next hrecord hnext) h
          intro i field value hfield hvalue
          exact hkeeps (i + 1) field value (by rw [List.getElem?_cons_succ]; exact hfield)
            (by rw [List.getElem?_cons_succ]; exact hvalue)

/-- What holds of the record of which nothing has been read, and is kept by every value that
    stands for a field, holds of the record. -/
theorem decodeRecord_keeps (budget : Nat) (outline : Outline) (result : ρ)
    (hstart : P shape.start)
    (hkeeps : ∀ field value, outline.StandsFor shape.fields field value → ∀ before after,
      P before → field.read (budget - 1) value before = .ok after → P after)
    (h : decodeRecord shape budget outline = .ok result) : P result := by
  -- A record is read from an array in the order of its fields, or from an object by its keys.
  cases outline with
  | array items stop =>
      rcases bind_eq_ok.mp h with ⟨inner, hbracket, h⟩
      rw [enterBracket_eq_ok (readable_eq_ok.mp hbracket)] at h
      refine decodeInOrder_keeps shape (budget - 1) stop shape.fields items ?_ 0 shape.start result
        hstart h
      intro i field value hfield hvalue
      exact hkeeps field value (.item items stop field value i hfield hvalue)
  | object members stop =>
      rcases bind_eq_ok.mp h with ⟨inner, hbracket, h⟩
      rcases bind_eq_ok.mp h with ⟨⟨record, seen⟩, hmembers, h⟩
      rw [enterBracket_eq_ok (readable_eq_ok.mp hbracket)] at hmembers
      have hrecord : P record := decodeMembers_keeps shape (budget - 1) stop members
        (fun field value hfield hmem =>
          hkeeps field value (.member members stop field value hfield hmem))
        [] shape.start (record, seen) hstart hmembers
      dsimp only at h
      -- A field that has to be there may be missing still.
      split at h
      · exact absurd h (by simp only [throw, throwThe, MonadExceptOf.throw, reduceCtorEq,
          not_false_eq_true])
      · rw [← Except.ok.inj h]
        exact hrecord
  | keyless instead =>
      rcases bind_eq_ok.mp h with ⟨_, _, h⟩
      exact absurd h (by simp only [throw, throwThe, MonadExceptOf.throw, reduceCtorEq,
        not_false_eq_true])
  | null => exact absurd h (by simp only [decodeRecord, reduceCtorEq, not_false_eq_true])
  | bool _ => exact absurd h (by simp only [decodeRecord, reduceCtorEq, not_false_eq_true])
  | number _ => exact absurd h (by simp only [decodeRecord, reduceCtorEq, not_false_eq_true])
  | string _ => exact absurd h (by simp only [decodeRecord, reduceCtorEq, not_false_eq_true])
  | flawed _ _ => exact absurd h (by simp only [decodeRecord, reduceCtorEq, not_false_eq_true])
  | broken _ _ _ => exact absurd h (by simp only [decodeRecord, reduceCtorEq, not_false_eq_true])

end Keeps

end Records

end Polyquery
