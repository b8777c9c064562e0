import Mathlib.Data.List.Forall2
import Mathlib.Data.List.Perm.Subperm
import Polyquery.Json.Basic
import Polyquery.Proofs.Json.Members

/-!
# Equality of Values

Equality of values is not identity. The members of objects may come in any order,
and of floating-point numbers the two zeros are equal, and what is no number equals
nothing. It is an equivalence all the same, on the values that can be written as
JSON: their floating-point numbers are finite, and no object repeats a key. Of
other values that would not hold. An object with a repeated key can be equal to one
that has another key in its place, and not the other way round.

Floating-point numbers are compared by what they stand for (`floatValue`), so that
nothing has to be known about how they are stored.

## Main definitions

* `Json.Proper`: A value that can be written as JSON.
* `FloatValue`, `floatValue`: What a floating-point number stands for.

## Theorems

* `floatBeq_iff`: Equality of floating-point numbers.
* `sameItems_iff`, `sameMembers_iff`: Equality of the parts of values.
* `same_refl`, `same_symm`, `same_trans`: Equality is an equivalence.
-/

namespace Polyquery

/-- A value that can be written as JSON: its floating-point numbers are finite, and no object
    repeats a key. -/
inductive Json.Proper : Json → Prop where
  | null : Proper .null
  | bool (value : Bool) : Proper (.bool value)
  | int (value : Int) : Proper (.number (.int value))
  | float (value : Float) (h : value.isFinite = true) : Proper (.number (.float value))
  | string (value : String) : Proper (.string value)
  | array (items : List Json) (h : ∀ item ∈ items, Proper item) : Proper (.array items)
  | object (members : List (String × Json)) (hkeys : (members.map (·.1)).Nodup)
    (h : ∀ member ∈ members, Proper member.2) : Proper (.object members)

section Floats

open Float.Model

/-- A number that a floating-point number can stand for. The two zeros stand for the same one. -/
inductive FloatValue where
  | zero
  | infinity (sign : UnpackedFloat.Sign)
  | finite (sign : UnpackedFloat.Sign) (mantissa : Nat) (exponent : Int)

/-- What an unpacked floating-point number stands for, if it is a number. -/
def unpackedValue : UnpackedFloat → Option FloatValue
  | .notANumber => none
  | .zero _ => some .zero
  | .infinity sign => some (.infinity sign)
  | .finite sign mantissa exponent _ => some (.finite sign mantissa exponent)

/-- What a floating-point number stands for, if it is a number. -/
def floatValue (x : Float) : Option FloatValue :=
  unpackedValue x.toModel.unpack

theorem unpackedCompare_iff (u v : UnpackedFloat) :
    u.compare v = some .eq ↔
      ∃ value, unpackedValue u = some value ∧ unpackedValue v = some value := by
  cases u with
  | notANumber => exact iff_of_false (by rintro ⟨⟩) (by rintro ⟨_, ⟨⟩, _⟩)
  | infinity s =>
      -- Infinities are equal when their signs are; every other pair of kinds differs.
      cases v with
      | infinity t =>
          cases s <;> cases t <;>
            first
            | exact iff_of_true rfl ⟨_, rfl, rfl⟩
            | exact iff_of_false (by rintro ⟨⟩) (by rintro ⟨_, ⟨⟩, ⟨⟩⟩)
      | _ => cases s <;> exact iff_of_false (by rintro ⟨⟩) (by rintro ⟨_, ⟨⟩, ⟨⟩⟩)
  | zero s =>
      -- The sign of a zero does not count.
      cases v with
      | zero t => exact iff_of_true rfl ⟨_, rfl, rfl⟩
      | notANumber => exact iff_of_false (by rintro ⟨⟩) (by rintro ⟨_, ⟨⟩, ⟨⟩⟩)
      | infinity t => cases t <;> exact iff_of_false (by rintro ⟨⟩) (by rintro ⟨_, ⟨⟩, ⟨⟩⟩)
      | finite t n f q => cases t <;> exact iff_of_false (by rintro ⟨⟩) (by rintro ⟨_, ⟨⟩, ⟨⟩⟩)
  | finite s m e p =>
      cases v with
      | notANumber => exact iff_of_false (by rintro ⟨⟩) (by rintro ⟨_, ⟨⟩, ⟨⟩⟩)
      | infinity t => cases t <;> exact iff_of_false (by rintro ⟨⟩) (by rintro ⟨_, ⟨⟩, ⟨⟩⟩)
      | zero t => cases s <;> exact iff_of_false (by rintro ⟨⟩) (by rintro ⟨_, ⟨⟩, ⟨⟩⟩)
      | finite t n f q =>
          -- With one sign the sizes decide: first the exponents and then the mantissas.
          have hsize : (compare e f).then (compare m n) = .eq ↔ n = m ∧ f = e := by
            rw [Ordering.then_eq_eq, Std.compare_eq_iff_eq, Std.compare_eq_iff_eq, and_comm,
              @eq_comm _ m, @eq_comm _ e]
          cases s <;> cases t
          case negative.negative =>
            change some ((compare e f).then (compare m n)).swap = some .eq ↔
              ∃ value, some (FloatValue.finite .negative m e) = some value ∧
                some (FloatValue.finite .negative n f) = some value
            simp only [Option.some.injEq, Ordering.swap_eq_eq, hsize, exists_eq_left',
              FloatValue.finite.injEq, true_and]
          case positive.positive =>
            change some ((compare e f).then (compare m n)) = some .eq ↔
              ∃ value, some (FloatValue.finite .positive m e) = some value ∧
                some (FloatValue.finite .positive n f) = some value
            simp only [Option.some.injEq, hsize, exists_eq_left', FloatValue.finite.injEq, true_and]
          all_goals exact iff_of_false (by rintro ⟨⟩) (by rintro ⟨_, ⟨⟩, ⟨⟩⟩)

/-- Numbers are equal when they stand for the same. -/
theorem floatBeq_iff (x y : Float) :
    (x == y) = true ↔ ∃ value, floatValue x = some value ∧ floatValue y = some value := by
  have hdef : (x == y) = (x.toModel.unpack.compare y.toModel.unpack == some .eq) := rfl
  rw [hdef, beq_iff_eq]
  exact unpackedCompare_iff _ _

theorem floatBeq_refl (x : Float) (h : x.isFinite = true) : (x == x) = true := by
  have hfinite : x.toModel.unpack.isFinite = true := h
  rw [floatBeq_iff, floatValue]
  cases hx : x.toModel.unpack with
  | notANumber =>
      rw [hx] at hfinite
      exact absurd hfinite Bool.false_ne_true
  | infinity sign => exact ⟨_, rfl, rfl⟩
  | zero sign => exact ⟨_, rfl, rfl⟩
  | finite sign mantissa exponent positive => exact ⟨_, rfl, rfl⟩

theorem floatBeq_symm (x y : Float) (h : (x == y) = true) : (y == x) = true := by
  rw [floatBeq_iff] at h ⊢
  rcases h with ⟨value, hx, hy⟩
  exact ⟨value, hy, hx⟩

theorem floatBeq_trans (x y z : Float) (hxy : (x == y) = true) (hyz : (y == z) = true) :
    (x == z) = true := by
  rw [floatBeq_iff] at hxy hyz ⊢
  rcases hxy with ⟨value, hx, hy⟩
  rcases hyz with ⟨other, hy', hz⟩
  exact ⟨value, hx, by rw [hz, ← hy', hy]⟩

theorem numberSame_trans (a b c : Number) (hab : a.same b = true) (hbc : b.same c = true) :
    a.same c = true := by
  cases a <;> cases b <;> cases c <;>
    simp only [Number.same, beq_iff_eq, Bool.false_eq_true] at hab hbc ⊢
  · exact hab.trans hbc
  · exact floatBeq_trans _ _ _ hab hbc

end Floats

section Parts

open Json

/-- Lists are equal item by item. -/
theorem sameItems_iff (as bs : List Json) :
    sameItems as bs = true ↔ List.Forall₂ (fun a b => a.same b = true) as bs := by
  induction as generalizing bs with
  | nil => cases bs <;> simp [sameItems]
  | cons a as ih =>
      cases bs with
      | nil => simp [sameItems]
      | cons b bs => rw [sameItems, Bool.and_eq_true, ih, List.forall₂_cons]

/-- Members are looked up in the other object, wherever they stand there. -/
theorem sameMembers_iff (as bs : List (String × Json)) :
    sameMembers as bs = true ↔
      ∀ member ∈ as, ∃ b, bs.lookup member.1 = some b ∧ member.2.same b = true := by
  induction as with
  | nil => simp [sameMembers]
  | cons first rest ih =>
      rcases first with ⟨key, a⟩
      rw [sameMembers, Bool.and_eq_true, ih, List.forall_mem_cons]
      refine and_congr_left fun _ => ?_
      cases bs.lookup key with
      | none => simp
      | some b => simp

theorem same_object_iff (as bs : List (String × Json)) :
    (Json.object as).same (.object bs) = true ↔ as.length = bs.length ∧
      ∀ member ∈ as, ∃ b, bs.lookup member.1 = some b ∧ member.2.same b = true := by
  rw [same, Bool.and_eq_true, beq_iff_eq, sameMembers_iff]

end Parts

section Equivalence

theorem forall₂_symm {α : Type} {R : α → α → Prop} {as bs : List α}
    (h : ∀ a ∈ as, ∀ b ∈ bs, R a b → R b a) (hR : List.Forall₂ R as bs) : List.Forall₂ R bs as := by
  induction hR with
  | nil => exact .nil
  | @cons a b as bs hfirst _ ih =>
      refine .cons (h a List.mem_cons_self b List.mem_cons_self hfirst) (ih ?_)
      exact fun x hx y hy => h x (List.mem_cons_of_mem a hx) y (List.mem_cons_of_mem b hy)

theorem forall₂_trans {α : Type} {R : α → α → Prop} {as bs cs : List α}
    (h : ∀ a ∈ as, ∀ b c, R a b → R b c → R a c) (hab : List.Forall₂ R as bs)
    (hbc : List.Forall₂ R bs cs) : List.Forall₂ R as cs := by
  induction hab generalizing cs with
  | nil => exact hbc
  | @cons a b as bs hfirst _ ih =>
      cases hbc with
      | cons hsecond hrest =>
          refine .cons (h a List.mem_cons_self b _ hfirst hsecond) (ih ?_ hrest)
          exact fun x hx => h x (List.mem_cons_of_mem a hx)

variable {a b c : Json}

theorem same_refl (h : a.Proper) : a.same a = true := by
  induction h with
  | null => rfl
  | bool value => exact beq_self_eq_true value
  | int value => exact beq_self_eq_true value
  | float value hfinite => exact floatBeq_refl value hfinite
  | string value => exact beq_self_eq_true value
  | array items _ ih =>
      rw [Json.same, sameItems_iff, List.forall₂_same]
      exact ih
  | object members hkeys _ ih =>
      rw [same_object_iff]
      exact ⟨rfl, fun member hmember =>
        ⟨member.2, lookup_eq_some_of_mem members hkeys member hmember, ih member hmember⟩⟩

theorem same_symm (ha : a.Proper) (hb : b.Proper) (h : a.same b = true) : b.same a = true := by
  induction ha generalizing b with
  | null => cases hb <;> first | rfl | exact absurd h Bool.false_ne_true
  | bool value =>
      cases hb with
      | bool other => exact BEq.symm (α := Bool) h
      | _ => exact absurd h Bool.false_ne_true
  | int value =>
      cases hb with
      | int other => exact BEq.symm (α := Int) h
      | _ => exact absurd h Bool.false_ne_true
  | float value =>
      cases hb with
      | float other => exact floatBeq_symm value other h
      | _ => exact absurd h Bool.false_ne_true
  | string value =>
      cases hb with
      | string other => exact BEq.symm (α := String) h
      | _ => exact absurd h Bool.false_ne_true
  | array items _ ih =>
      cases hb with
      | array others hothers =>
          rw [Json.same, sameItems_iff] at h ⊢
          exact forall₂_symm (fun a ha b hb hab => ih a ha (hothers b hb) hab) h
      | _ => exact absurd h Bool.false_ne_true
  | object members hkeys _ ih =>
      cases hb with
      | object others hothers heach =>
          rw [same_object_iff] at h ⊢
          rcases h with ⟨hlength, hmembers⟩
          refine ⟨hlength.symm, fun other hother => ?_⟩
          -- No key of the other object is left over, for there are as many on both sides.
          have hsubset : members.map (·.1) ⊆ others.map (·.1) := by
            intro key hkey
            rcases List.mem_map.mp hkey with ⟨member, hmember, rfl⟩
            rcases hmembers member hmember with ⟨value, hvalue, _⟩
            exact List.mem_map.mpr ⟨_, mem_of_lookup others member.1 value hvalue, rfl⟩
          have hperm : (members.map (·.1)).Perm (others.map (·.1)) :=
            (hkeys.subperm hsubset).perm_of_length_le
              (by simpa only [List.length_map] using Nat.le_of_eq hlength.symm)
          rcases List.mem_map.mp (hperm.mem_iff.mpr (List.mem_map_of_mem hother)) with
            ⟨member, hmember, hkey⟩
          rcases hmembers member hmember with ⟨value, hvalue, hsame⟩
          rw [hkey, lookup_eq_some_of_mem others hothers other hother] at hvalue
          rw [← Option.some.inj hvalue] at hsame
          refine ⟨member.2, ?_, ih member hmember (heach other hother) hsame⟩
          rw [← hkey]
          exact lookup_eq_some_of_mem members hkeys member hmember
      | _ => exact absurd h Bool.false_ne_true

theorem same_trans (ha : a.Proper) (hab : a.same b = true) (hbc : b.same c = true) :
    a.same c = true := by
  -- The first value decides on the kind; of another kind the second could not be the same.
  induction ha generalizing b c with
  | null =>
      cases b with
      | null => exact hbc
      | _ => exact absurd hab Bool.false_ne_true
  | bool value =>
      cases b with
      | bool other => exact (eq_of_beq (α := Bool) hab) ▸ hbc
      | _ => exact absurd hab Bool.false_ne_true
  | int value =>
      cases b with
      | number other =>
          cases c with
          | number last => exact numberSame_trans (.int value) other last hab hbc
          | _ => exact absurd hbc Bool.false_ne_true
      | _ => exact absurd hab Bool.false_ne_true
  | float value =>
      cases b with
      | number other =>
          cases c with
          | number last => exact numberSame_trans (.float value) other last hab hbc
          | _ => exact absurd hbc Bool.false_ne_true
      | _ => exact absurd hab Bool.false_ne_true
  | string value =>
      cases b with
      | string other => exact (eq_of_beq (α := String) hab) ▸ hbc
      | _ => exact absurd hab Bool.false_ne_true
  | array items _ ih =>
      cases b with
      | array others =>
          cases c with
          | array lasts =>
              rw [Json.same, sameItems_iff] at hab hbc ⊢
              exact forall₂_trans (fun x hx y z => ih x hx) hab hbc
          | _ => exact absurd hbc Bool.false_ne_true
      | _ => exact absurd hab Bool.false_ne_true
  | object members _ _ ih =>
      cases b with
      | object others =>
          cases c with
          | object lasts =>
              rw [same_object_iff] at hab hbc ⊢
              -- Members are looked up by their keys, twice in a row.
              refine ⟨hab.1.trans hbc.1, fun member hmember => ?_⟩
              rcases hab.2 member hmember with ⟨value, hvalue, hsame⟩
              rcases hbc.2 _ (mem_of_lookup others member.1 value hvalue) with ⟨last, hlast, hlasts⟩
              exact ⟨last, hlast, ih member hmember hsame hlasts⟩
          | _ => exact absurd hbc Bool.false_ne_true
      | _ => exact absurd hab Bool.false_ne_true

end Equivalence

end Polyquery
