import Mathlib.Data.List.Induction
import Mathlib.Data.List.Nodup
import Polyquery.Json.Basic

/-!
# Members from Pairs

Members are set one at a time, and each is put where its key already stands. The
order that comes of it and the value that is left are two matters: the keys are in
the order of their first pairs, and the values are those of the last ones. Each has
an equation of its own here, so that neither has to be seen through the folding.

## Theorems

* `lookup_eq_some_of_mem`, `mem_of_lookup`: Members by their keys.
* `mem_insertKey`, `keys_insertKey`, `lookup_insertKey`: One member set.
* `keys_insertAll`: The keys of members from pairs are in the order of first
  occurrence.
* `nodup_insertAll`: No key is repeated.
* `lookup_insertAll`, `lookup_insertAll_last`: The last pair of a key gives its value.
* `insertAll_map`: Members with their values rewritten.
* `find?_insertAll`: The first key of a kind has the value of its last pair.
-/

namespace Polyquery

section Looking

variable {α : Type}

theorem lookup_cons_eq (key name : String) (value : α) (members : List (String × α)) :
    ((key, value) :: members).lookup name =
      if name = key then some value else members.lookup name := by
  rw [List.lookup_cons]
  by_cases h : name = key
  · rw [if_pos h, beq_iff_eq.mpr h]
  · rw [if_neg h, beq_eq_false_iff_ne.mpr h]

theorem lookup_map {β : Type} (f : α → β) (members : List (String × α)) (name : String) :
    (members.map fun member => (member.1, f member.2)).lookup name =
      (members.lookup name).map f := by
  induction members with
  | nil => rfl
  | cons first rest ih =>
      rw [List.map_cons, lookup_cons_eq, lookup_cons_eq, ih]
      split <;> rfl

/-- Where no key is repeated, a member is what its key leads to. -/
theorem lookup_eq_some_of_mem (members : List (String × α))
    (hkeys : (members.map (·.1)).Nodup) (member : String × α) (h : member ∈ members) :
    members.lookup member.1 = some member.2 := by
  induction members with
  | nil => exact absurd h List.not_mem_nil
  | cons first rest ih =>
      rcases List.nodup_cons.mp hkeys with ⟨hfirst, hrest⟩
      rw [lookup_cons_eq]
      rcases List.mem_cons.mp h with rfl | htail
      · rw [if_pos rfl]
      · have hne : member.1 ≠ first.1 := by
          intro heq
          exact hfirst (List.mem_map.mpr ⟨member, htail, heq⟩)
        rw [if_neg hne]
        exact ih hrest htail

theorem mem_of_lookup (members : List (String × α)) (key : String) (value : α)
    (h : members.lookup key = some value) : (key, value) ∈ members := by
  rcases List.lookup_eq_some_iff.mp h with ⟨before, after, rfl, _⟩
  exact List.mem_append_right before List.mem_cons_self

end Looking

section Setting

variable {α : Type}

variable (key : String) (value : α) (members : List (String × α))

theorem mem_insertKey (pair : String × α) (h : pair ∈ insertKey key value members) :
    pair = (key, value) ∨ pair ∈ members := by
  induction members with
  | nil => exact .inl (List.mem_singleton.mp h)
  | cons first rest ih =>
      simp only [insertKey] at h
      split at h
      · rcases List.mem_cons.mp h with heq | htail
        · exact .inl heq
        · exact .inr (List.mem_cons_of_mem first htail)
      · rcases List.mem_cons.mp h with heq | htail
        · exact .inr (List.mem_cons.mpr (.inl heq))
        · rcases ih htail with heq | hrest
          · exact .inl heq
          · exact .inr (List.mem_cons_of_mem first hrest)

/-- A key that is there keeps its place, and a new one comes last. -/
theorem keys_insertKey :
    (insertKey key value members).map (·.1) =
      if key ∈ members.map (·.1) then members.map (·.1) else members.map (·.1) ++ [key] := by
  induction members with
  | nil => rfl
  | cons first rest ih =>
      by_cases hfirst : first.1 = key
      · rw [insertKey, if_pos hfirst, List.map_cons, List.map_cons, hfirst,
          if_pos List.mem_cons_self]
      · rw [insertKey, if_neg hfirst, List.map_cons, List.map_cons, ih]
        by_cases hrest : key ∈ rest.map (·.1)
        · rw [if_pos hrest, if_pos (List.mem_cons_of_mem first.1 hrest)]
        · have hnone : key ∉ first.1 :: rest.map (·.1) := by
            rw [List.mem_cons, not_or]
            exact ⟨Ne.symm hfirst, hrest⟩
          rw [if_neg hrest, if_neg hnone, List.cons_append]

theorem insertKey_fresh (h : key ∉ members.map (·.1)) :
    insertKey key value members = members ++ [(key, value)] := by
  induction members with
  | nil => rfl
  | cons first rest ih =>
      rw [List.map_cons, List.mem_cons, not_or] at h
      rw [insertKey, if_neg (Ne.symm h.1), ih h.2, List.cons_append]

theorem lookup_insertKey (name : String) :
    (insertKey key value members).lookup name =
      if name = key then some value else members.lookup name := by
  induction members with
  | nil => rw [insertKey, lookup_cons_eq]
  | cons first rest ih =>
      rcases first with ⟨other, old⟩
      by_cases hother : other = key
      · rw [insertKey, if_pos hother, lookup_cons_eq, lookup_cons_eq, hother]
        by_cases hname : name = key
        · rw [if_pos hname, if_pos hname]
        · rw [if_neg hname, if_neg hname, if_neg hname]
      · rw [insertKey, if_neg hother, lookup_cons_eq, lookup_cons_eq, ih]
        by_cases hname : name = other
        · rw [if_pos hname, if_pos hname, if_neg (hname ▸ hother)]
        · rw [if_neg hname, if_neg hname]

/-- The first key that passes a test is still the first one. A new key is looked at last. -/
theorem find?_insertKey (test : String → Bool) :
    (insertKey key value members).find? (fun member => test member.1) =
      match members.find? (fun member => test member.1) with
      | some (name, old) => some (name, if name = key then value else old)
      | none => if test key then some (key, value) else none := by
  induction members with
  | nil =>
      simp only [insertKey, List.find?_cons, List.find?_nil]
      cases test key <;> rfl
  | cons first rest ih =>
      rcases first with ⟨other, old⟩
      by_cases hother : other = key
      · rw [insertKey, if_pos hother, List.find?_cons, List.find?_cons, hother]
        cases htest : test key with
        | true => simp only [if_true]
        | false =>
            -- The key is tested wherever it stands, and a later key is another one.
            simp only [Bool.false_eq_true, if_false]
            cases hrest : rest.find? (fun member => test member.1) with
            | none => rfl
            | some found =>
                have hfound := List.find?_some hrest
                have hne : found.1 ≠ key := by
                  rintro rfl
                  exact Bool.false_ne_true (htest.symm.trans hfound)
                simp only [if_neg hne]
      · rw [insertKey, if_neg hother, List.find?_cons, List.find?_cons, ih]
        cases test other with
        | true => simp only [if_neg hother]
        | false => rfl

end Setting

section All

variable {α : Type}

theorem insertAll_concat (pairs : List (String × α)) (pair : String × α) :
    insertAll (pairs ++ [pair]) = insertKey pair.1 pair.2 (insertAll pairs) :=
  List.foldl_append

theorem mem_insertAll (pairs : List (String × α)) (pair : String × α)
    (h : pair ∈ insertAll pairs) : pair ∈ pairs := by
  induction pairs using List.reverseRecOn with
  | nil => exact h
  | append_singleton pairs last ih =>
      rw [insertAll_concat] at h
      rcases mem_insertKey last.1 last.2 (insertAll pairs) pair h with hlast | hold
      · exact List.mem_append_right pairs (List.mem_singleton.mpr hlast)
      · exact List.mem_append_left [last] (ih hold)

/-- The keys are in the order in which they first occur. -/
theorem keys_insertAll (pairs : List (String × α)) :
    (insertAll pairs).map (·.1) = (pairs.map (·.1)).eraseDups := by
  induction pairs using List.reverseRecOn with
  | nil => rfl
  | append_singleton pairs last ih =>
      rw [insertAll_concat, keys_insertKey, ih, List.map_append, List.eraseDups_append]
      -- A key that has occurred before adds nothing on either side.
      by_cases hold : last.1 ∈ pairs.map (·.1)
      · rw [if_pos (List.mem_eraseDups.mpr hold)]
        simp only [List.map_cons, List.map_nil, List.removeAll, List.filter_cons,
          List.contains_eq_mem, hold, decide_true, Bool.not_true, Bool.false_eq_true, if_false,
          List.filter_nil, List.eraseDups_nil, List.append_nil]
      · rw [if_neg (mt List.mem_eraseDups.mp hold)]
        simp only [List.map_cons, List.map_nil, List.removeAll, List.filter_cons,
          List.contains_eq_mem, hold, decide_false, Bool.not_false, if_true, List.filter_nil,
          List.eraseDups_cons, List.eraseDups_nil]

theorem nodup_insertAll (pairs : List (String × α)) : ((insertAll pairs).map (·.1)).Nodup := by
  induction pairs using List.reverseRecOn with
  | nil => exact List.nodup_nil
  | append_singleton pairs last ih =>
      rw [insertAll_concat, keys_insertKey]
      split
      case isTrue => exact ih
      case isFalse hnew =>
        exact List.nodup_append.mpr ⟨ih, List.nodup_singleton last.1, fun name hname other hother =>
          fun heq => hnew (List.mem_singleton.mp hother ▸ heq ▸ hname)⟩

theorem lookup_insertAll (pairs : List (String × α)) (name : String) :
    (insertAll pairs).lookup name = pairs.reverse.lookup name := by
  induction pairs using List.reverseRecOn with
  | nil => rfl
  | append_singleton pairs last ih =>
      rw [insertAll_concat, lookup_insertKey, ih, List.reverse_concat, ← lookup_cons_eq]

/-- A key has the value of its last pair. -/
theorem lookup_insertAll_last (before after : List (String × α)) (name : String) (value : α)
    (h : ∀ pair ∈ after, pair.1 ≠ name) :
    (insertAll (before ++ (name, value) :: after)).lookup name = some value := by
  have hafter : after.reverse.lookup name = none := by
    rw [List.lookup_eq_none_iff]
    intro pair hpair
    exact bne_iff_ne.mpr (h pair (List.mem_reverse.mp hpair)).symm
  -- Looked at from the end, the pair is the first one with its key.
  rw [lookup_insertAll, List.reverse_append, List.reverse_cons, List.append_assoc,
    List.lookup_append, hafter, Option.none_or, List.singleton_append, lookup_cons_eq, if_pos rfl]

/-- Members that are written by a function are put together from what is written. -/
theorem insertAll_map {β : Type} (f : α → β) (pairs : List (String × α)) :
    insertAll (pairs.map fun pair => (pair.1, f pair.2)) =
      (insertAll pairs).map fun pair => (pair.1, f pair.2) := by
  have hset : ∀ key value (members : List (String × α)),
      insertKey key (f value) (members.map fun pair => (pair.1, f pair.2)) =
        (insertKey key value members).map fun pair => (pair.1, f pair.2) := by
    intro key value members
    induction members with
    | nil => rfl
    | cons first rest ih =>
        simp only [List.map_cons, insertKey, ih]
        split <;> rfl
  induction pairs using List.reverseRecOn with
  | nil => rfl
  | append_singleton pairs pair ih =>
      rw [List.map_append, List.map_singleton, insertAll_concat, insertAll_concat, ih, hset]

/-- The first key that passes a test stands first among the members, too, and has the value of
    its last pair. -/
theorem find?_insertAll (test : String → Bool) (pairs : List (String × α)) :
    (insertAll pairs).find? (fun member => test member.1) =
      (pairs.find? fun pair => test pair.1).bind fun pair =>
        (pairs.reverse.lookup pair.1).map fun value => (pair.1, value) := by
  induction pairs using List.reverseRecOn with
  | nil => rfl
  | append_singleton pairs last ih =>
      rcases last with ⟨name, new⟩
      rw [insertAll_concat, find?_insertKey, ih, List.reverse_concat, List.find?_append]
      cases hfind : pairs.find? (fun pair => test pair.1) with
      | none =>
          rw [List.find?_singleton]
          cases test name with
          | false => rfl
          | true =>
              simp only [Option.bind_none, Option.none_or, if_true, Option.bind_some,
                lookup_cons_eq, Option.map_some]
      | some pair =>
          -- The pair is there, so its key has a last value.
          have hlast : ∃ value, pairs.reverse.lookup pair.1 = some value := by
            rw [← Option.isSome_iff_exists, Option.isSome_iff_ne_none, Ne, List.lookup_eq_none_iff]
            intro hnone
            have hne := hnone pair (List.mem_reverse.mpr (List.mem_of_find?_eq_some hfind))
            simp only [bne_self_eq_false, Bool.false_eq_true] at hne
          rcases hlast with ⟨value, hvalue⟩
          simp only [Option.bind_some, Option.some_or, hvalue, Option.map_some, lookup_cons_eq]
          split <;> rfl

end All

end Polyquery
