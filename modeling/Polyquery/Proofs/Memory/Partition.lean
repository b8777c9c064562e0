import Polyquery.Memory.Store
import Polyquery.Proofs.Memory.Distinct
import Polyquery.Proofs.Memory.Proper

/-!
# Groups of Equal Records

A record joins the group of its key, which is looked for among the keys of the groups
so far, and it begins a group if there is none. As long as equality of keys is an
equivalence, at most one group can be the right one, and where a record goes does not
depend on which group is looked at first. So the groups can be told without the list
that grows: there is one for each record that is equal to none before it, and what is
equal to that record is in its group (`groupRecords_eq`).

That these groups are a partition is then a matter of lists with an equality.
Elements are told apart by their places, as two records may be the same and still are
two.

## Main definitions

* `EquivalenceOn`: An equality that is an equivalence on a list.
* `groupsOf`: Equal elements in groups.
* `PartitionedBy`: What a partition by an equality is.
* `ExpressionList.sameKey`: Whether two records have the same group.

## Theorems

* `partitionedBy_groupsOf`: The groups are a partition.
* `addToGroup_eq`, `groupByKey_eq`: One more record, and all of them.
* `groupRecords_eq`: The groups of a query.
-/

namespace Polyquery

/-- An equality that is an equivalence on the elements of a list. -/
structure EquivalenceOn {α : Type} (same : α → α → Bool) (as : List α) : Prop where
  refl : ∀ a ∈ as, same a a = true
  symm : ∀ a ∈ as, ∀ b ∈ as, same a b = true → same b a = true
  trans : ∀ a ∈ as, ∀ b ∈ as, ∀ c ∈ as, same a b = true → same b c = true → same a c = true

/-- The elements of a list in groups, each element with its place. -/
structure PartitionedBy {α : Type} (same : α → α → Bool) (as : List α)
    (groups : List (List (α × Nat))) : Prop where
  /-- Every place is in exactly one group. -/
  covers : groups.flatten.Perm as.zipIdx
  nonempty : ∀ group ∈ groups, group ≠ []
  alike : ∀ a ∈ as.zipIdx, ∀ b ∈ as.zipIdx,
    (∃ group ∈ groups, a ∈ group ∧ b ∈ group) ↔ same a.1 b.1 = true
  ordered : ∀ group ∈ groups, group.Pairwise fun a b => a.2 < b.2
  firsts : (groups.filterMap List.head?).Pairwise fun a b => a.2 < b.2

section Groups

variable {α : Type} (same : α → α → Bool) (as : List α)

instance : DecidablePred (IsFirst same as) := fun place =>
  inferInstanceAs (Decidable (∀ earlier ∈ as.zipIdx, earlier.2 < place.2 →
    same earlier.1 place.1 = false))

/-- The elements that are equal to none before them. -/
def firstPlaces : List (α × Nat) :=
  as.zipIdx.filter fun place => IsFirst same as place

/-- The elements that an element is equal to. -/
def placesOf (a : α) : List (α × Nat) :=
  as.zipIdx.filter fun place => same a place.1

/-- Equal elements in groups, one for each first element. -/
def groupsOf : List (List (α × Nat)) :=
  (firstPlaces same as).map fun first => placesOf same as first.1

variable {same as}

theorem mem_firstPlaces (place : α × Nat) :
    place ∈ firstPlaces same as ↔ place ∈ as.zipIdx ∧ IsFirst same as place := by
  rw [firstPlaces, List.mem_filter, decide_eq_true_iff]

theorem mem_placesOf (a : α) (place : α × Nat) :
    place ∈ placesOf same as a ↔ place ∈ as.zipIdx ∧ same a place.1 = true :=
  List.mem_filter

theorem pairwise_firstPlaces : (firstPlaces same as).Pairwise fun a b => a.2 < b.2 :=
  (pairwise_zipIdx as).sublist List.filter_sublist

theorem nodup_zipIdx (as : List α) : as.zipIdx.Nodup :=
  (pairwise_zipIdx as).imp fun hlt heq => Nat.ne_of_lt hlt (congrArg Prod.snd heq)

variable (h : EquivalenceOn same as)

theorem EquivalenceOn.of_append {others : List α} (h : EquivalenceOn same (as ++ others)) :
    EquivalenceOn same as := by
  have hmem : ∀ a ∈ as, a ∈ as ++ others := fun _ ha => List.mem_append_left others ha
  exact ⟨fun a ha => h.refl a (hmem a ha),
    fun a ha b hb => h.symm a (hmem a ha) b (hmem b hb),
    fun a ha b hb c hc => h.trans a (hmem a ha) b (hmem b hb) c (hmem c hc)⟩

include h

/-- The first element of a group is the one that the group is made for. -/
theorem head_placesOf (first : α × Nat) (hfirst : first ∈ firstPlaces same as) :
    (placesOf same as first.1).head? = some first := by
  rcases (mem_firstPlaces first).mp hfirst with ⟨hmem, hnone⟩
  have hplace := List.fst_mem_of_mem_zipIdx hmem
  rw [placesOf, List.head?_filter, List.find?_eq_some_iff_append]
  refine ⟨h.refl first.1 hplace, ?_⟩
  rcases List.append_of_mem hmem with ⟨before, after, hsplit⟩
  -- No place before the first one is equal to it: it would not be first, as sameness goes both
  -- ways.
  refine ⟨before, after, hsplit, fun earlier hearlier => ?_⟩
  have hin : earlier ∈ as.zipIdx := hsplit ▸ List.mem_append_left _ hearlier
  have hplaces := pairwise_zipIdx as
  rw [hsplit, List.pairwise_append] at hplaces
  have hdiffers := hnone earlier hin (hplaces.2.2 earlier hearlier first List.mem_cons_self)
  rw [Bool.not_eq_true', ← Bool.not_eq_true]
  intro hsame
  have hback := h.symm _ hplace _ (List.fst_mem_of_mem_zipIdx hin) hsame
  exact absurd (hdiffers.symm.trans hback) Bool.false_ne_true

/-- What is in two groups would make their first elements equal. -/
theorem disjoint_placesOf (first later : α × Nat) (hfirst : first ∈ firstPlaces same as)
    (hlater : later ∈ firstPlaces same as) (hlt : first.2 < later.2) :
    (placesOf same as first.1).Disjoint (placesOf same as later.1) := by
  rw [mem_firstPlaces] at hfirst hlater
  have hmem (place : α × Nat) (hplace : place ∈ as.zipIdx) : place.1 ∈ as :=
    List.fst_mem_of_mem_zipIdx hplace
  intro place hone hother
  rw [mem_placesOf] at hone hother
  have hback := h.symm _ (hmem _ hlater.1) _ (hmem _ hother.1) hother.2
  -- Through the shared place the earlier first equals the later one, which is then no first.
  have hequal := h.trans _ (hmem _ hfirst.1) _ (hmem _ hone.1) _ (hmem _ hlater.1) hone.2 hback
  exact absurd ((hlater.2 first hfirst.1 hlt).symm.trans hequal) Bool.false_ne_true

/-- Equal elements in groups are a partition. -/
theorem partitionedBy_groupsOf : PartitionedBy same as (groupsOf same as) := by
  have hmem (place : α × Nat) (hplace : place ∈ as.zipIdx) : place.1 ∈ as :=
    List.fst_mem_of_mem_zipIdx hplace
  -- Every place is in the group of the first element that it is equal to.
  have hgroups (place : α × Nat) (hplace : place ∈ as.zipIdx) :
      ∃ first ∈ firstPlaces same as, place ∈ placesOf same as first.1 := by
    rcases exists_first same h.refl h.trans place hplace with ⟨first, hin, hfirst, hequal⟩
    exact ⟨first, (mem_firstPlaces first).mpr ⟨hin, hfirst⟩,
      (mem_placesOf _ _).mpr ⟨hplace, hequal⟩⟩
  have hsub (first : α × Nat) : (placesOf same as first.1).Sublist as.zipIdx :=
    List.filter_sublist
  have hheads : (groupsOf same as).filterMap List.head? = firstPlaces same as := by
    rw [groupsOf, List.filterMap_map]
    exact (List.filterMap_congr (head_placesOf h)).trans List.filterMap_some
  constructor
  case covers =>
    -- Places have no repetitions, in the list or in the groups, so membership decides.
    refine (List.perm_ext_iff_of_nodup ?_ (nodup_zipIdx as)).mpr fun place => ?_
    · refine List.nodup_flatten.mpr ⟨fun group hgroup => ?_, ?_⟩
      · rcases List.mem_map.mp hgroup with ⟨first, _, rfl⟩
        exact (nodup_zipIdx as).sublist (hsub first)
      · rw [groupsOf, List.pairwise_map]
        exact pairwise_firstPlaces.imp_of_mem fun hfirst hlater hlt =>
          disjoint_placesOf h _ _ hfirst hlater hlt
    · rw [List.mem_flatten]
      constructor
      · rintro ⟨group, hgroup, hplace⟩
        rcases List.mem_map.mp hgroup with ⟨first, _, rfl⟩
        exact (hsub first).subset hplace
      · intro hplace
        rcases hgroups place hplace with ⟨first, hfirst, hin⟩
        exact ⟨_, List.mem_map_of_mem hfirst, hin⟩
  case nonempty =>
    intro group hgroup
    rcases List.mem_map.mp hgroup with ⟨first, hfirst, rfl⟩
    intro hempty
    -- A group holds at least the place that it is made for.
    have hhead := head_placesOf h first hfirst
    rw [hempty] at hhead
    exact absurd hhead (by rintro ⟨⟩)
  case alike =>
    intro a ha b hb
    constructor
    · -- Two places in one group are equal through the first element of it.
      rintro ⟨group, hgroup, hone, hother⟩
      rcases List.mem_map.mp hgroup with ⟨first, hfirst, rfl⟩
      have hin := hmem first ((mem_firstPlaces first).mp hfirst).1
      rw [mem_placesOf] at hone hother
      exact h.trans _ (hmem a ha) _ hin _ (hmem b hb)
        (h.symm _ hin _ (hmem a ha) hone.2) hother.2
    · -- Equal elements are in the group of the same first element.
      intro hsame
      rcases hgroups a ha with ⟨first, hfirst, hone⟩
      have hin := hmem first ((mem_firstPlaces first).mp hfirst).1
      exact ⟨_, List.mem_map_of_mem hfirst, hone, (mem_placesOf _ _).mpr
        ⟨hb, h.trans _ hin _ (hmem a ha) _ (hmem b hb) ((mem_placesOf _ _).mp hone).2 hsame⟩⟩
  case ordered =>
    intro group hgroup
    rcases List.mem_map.mp hgroup with ⟨first, _, rfl⟩
    exact (pairwise_zipIdx as).sublist (hsub first)
  case firsts =>
    rw [hheads]
    exact pairwise_firstPlaces

end Groups

section OneMore

variable {α : Type} {same : α → α → Bool} (as : List α) (a : α)

theorem placesOf_concat (b : α) :
    placesOf same (as ++ [a]) b =
      placesOf same as b ++ if same b a then [(a, as.length)] else [] := by
  rw [placesOf, zipIdx_concat, List.filter_append, List.filter_singleton, placesOf]
  cases same b a <;> rfl

theorem firstPlaces_concat :
    firstPlaces same (as ++ [a]) =
      firstPlaces same as ++ if as.any fun b => same b a then [] else [(a, as.length)] := by
  -- The new place is a first one when nothing before is equal to it.
  have hlast : decide (IsFirst same (as ++ [a]) (a, as.length)) = !as.any fun b => same b a := by
    rw [Bool.eq_iff_iff, decide_eq_true_iff, isFirst_last, Bool.not_eq_true', List.any_eq_false]
    simp only [Bool.not_eq_true]
  rw [firstPlaces, zipIdx_concat, List.filter_append, List.filter_singleton, firstPlaces, hlast]
  congr 1
  · refine List.filter_congr fun place hplace => ?_
    rw [decide_eq_decide]
    exact isFirst_concat a place (List.snd_lt_of_mem_zipIdx hplace)
  · cases as.any fun b => same b a <;> rfl

variable {as a} (h : EquivalenceOn same (as ++ [a]))

include h

/-- What is equal to the new element is so by way of a first one. -/
theorem any_firstPlaces :
    ((firstPlaces same as).any fun first => same first.1 a) = as.any fun b => same b a := by
  rw [Bool.eq_iff_iff, List.any_eq_true, List.any_eq_true]
  constructor
  · rintro ⟨first, hfirst, hsame⟩
    exact ⟨first.1, List.fst_mem_of_mem_zipIdx ((mem_firstPlaces first).mp hfirst).1, hsame⟩
  · rintro ⟨b, hb, hsame⟩
    rcases exists_place hb with ⟨place, hplace, rfl⟩
    rcases exists_first same h.of_append.refl h.of_append.trans place hplace with
      ⟨first, hmem, hfirst, hequal⟩
    refine ⟨first, (mem_firstPlaces first).mpr ⟨hmem, hfirst⟩, ?_⟩
    exact h.trans _ (List.mem_append_left _ (List.fst_mem_of_mem_zipIdx hmem)) _
      (List.mem_append_left _ hb) _ (List.mem_append_right _ List.mem_cons_self) hequal hsame

/-- The new element cannot be equal to two first ones. -/
theorem pairwise_apart :
    (firstPlaces same as).Pairwise fun first later =>
      same first.1 a = true → same later.1 a = false := by
  refine pairwise_firstPlaces.imp_of_mem fun {first later} hfirst hlater hlt hone => ?_
  rw [mem_firstPlaces] at hfirst hlater
  rw [← Bool.not_eq_true]
  intro hother
  have hnew : a ∈ as ++ [a] := List.mem_append_right _ List.mem_cons_self
  have hin := List.mem_append_left [a] (List.fst_mem_of_mem_zipIdx hfirst.1)
  have hlast := List.mem_append_left [a] (List.fst_mem_of_mem_zipIdx hlater.1)
  have hequal := h.trans _ hin _ hnew _ hlast hone (h.symm _ hlast _ hnew hother)
  exact absurd ((hlater.2 first hfirst.1 hlt).symm.trans hequal) Bool.false_ne_true

/-- An element that none is equal to is alone among those before it. -/
theorem placesOf_eq_nil (hnone : (as.any fun b => same b a) = false) : placesOf same as a = [] := by
  refine List.filter_eq_nil_iff.mpr fun place hplace hequal => ?_
  have hplace := List.fst_mem_of_mem_zipIdx hplace
  have hback := h.symm _ (List.mem_append_right _ List.mem_cons_self) _
    (List.mem_append_left _ hplace) hequal
  exact List.any_eq_false.mp hnone _ hplace hback

end OneMore

section Adding

open Json

/-- A record joins the group of its key, or it begins a new one, if there are no two groups that
    it could join. -/
theorem addToGroup_eq (key : List Json) (record : Record) (groups : List (List Json × List Record))
    (h : groups.Pairwise fun group later =>
      sameItems group.1 key = true → sameItems later.1 key = false) :
    addToGroup key record groups =
      groups.map (fun group =>
        (group.1, group.2 ++ if sameItems group.1 key then [record] else [])) ++
      if groups.any fun group => sameItems group.1 key then [] else [(key, [record])] := by
  induction groups with
  | nil => rfl
  | cons group rest ih =>
      rcases List.pairwise_cons.mp h with ⟨hothers, hrest⟩
      rw [addToGroup, List.map_cons, List.any_cons]
      cases hkey : sameItems group.1 key with
      | true =>
          -- No other group takes the record, so the rest stays as it is.
          have hsame : rest.map (fun group =>
              (group.1, group.2 ++ if sameItems group.1 key then [record] else [])) = rest := by
            refine (List.map_congr_left fun other hother => ?_).trans (List.map_id rest)
            rw [hothers other hother hkey, if_neg Bool.false_ne_true, List.append_nil]
            rfl
          rw [hsame, Bool.true_or, if_pos rfl, if_pos rfl, if_pos rfl, List.append_nil]
      | false =>
          rw [ih hrest, if_neg Bool.false_ne_true, if_neg Bool.false_ne_true, Bool.false_or,
            List.append_nil, List.cons_append]

variable (keyOf : Record → List Json) (same : Record → Record → Bool)
  (hsame : ∀ a b, sameItems (keyOf a) (keyOf b) = same a b)

include hsame

/-- The groups with their keys, once all records have been added. -/
theorem foldl_addToGroup (records : List Record) (h : EquivalenceOn same records) :
    records.foldl (fun groups record => addToGroup (keyOf record) record groups) [] =
      (firstPlaces same records).map fun first =>
        (keyOf first.1, (placesOf same records first.1).map Prod.fst) := by
  induction records using List.reverseRecOn with
  | nil => rfl
  | append_singleton records record ih =>
      have hapart : ((firstPlaces same records).map fun first =>
          (keyOf first.1, (placesOf same records first.1).map Prod.fst)).Pairwise
            fun group later => sameItems group.1 (keyOf record) = true →
              sameItems later.1 (keyOf record) = false := by
        simp only [List.pairwise_map, hsame]
        exact pairwise_apart h
      rw [List.foldl_append, ih h.of_append, List.foldl_cons, List.foldl_nil,
        addToGroup_eq _ _ _ hapart, firstPlaces_concat, List.map_append, List.map_map,
        List.any_map]
      simp only [Function.comp_def, hsame, any_firstPlaces h, placesOf_concat, List.map_append]
      congr 1
      · refine List.map_congr_left fun first _ => ?_
        split <;> rfl
      · split
        case isTrue => rfl
        case isFalse hsome =>
          -- The record is alone in the group that it begins.
          rw [List.map_singleton, placesOf_eq_nil h (Bool.not_eq_true _ ▸ hsome),
            if_pos (h.refl record (List.mem_append_right _ List.mem_cons_self))]
          rfl

/-- Records in groups of equal keys. -/
theorem groupByKey_eq (keys : List Evaluator)
    (hkeys : ∀ record, keys.map (fun key => key (.single record)) = keyOf record)
    (records : List Record) (h : EquivalenceOn same records) :
    groupByKey keys records = (groupsOf same records).map (·.map Prod.fst) := by
  rw [groupByKey]
  simp only [hkeys]
  rw [foldl_addToGroup keyOf same hsame records h, groupsOf, List.map_map, List.map_map]
  rfl

end Adding

section Records

open Json

variable (clock : Clock) (list : ExpressionList)

/-- Whether all expressions of a list have equal values on two records. -/
def ExpressionList.sameKey (a b : Record) : Bool :=
  list.effective.all fun x => (x.valueOn clock (.single a)).same (x.valueOn clock (.single b))

theorem sameItems_map {α : Type} (as : List α) (f g : α → Json) :
    sameItems (as.map f) (as.map g) = as.all fun a => (f a).same (g a) := by
  induction as with
  | nil => rfl
  | cons a rest ih => rw [List.map_cons, List.map_cons, sameItems, ih, List.all_cons]

theorem equivalenceOn_sameKey (records : List Record)
    (hproper : ∀ record ∈ records, (Json.object record).Proper) :
    EquivalenceOn (list.sameKey clock) records := by
  have hvalue (x : Expression) (record : Record) (hrecord : record ∈ records) :
      (x.valueOn clock (.single record)).Proper :=
    proper_valueOn clock x _ (Rows.proper_single (hproper record hrecord))
  -- Two records have the same key if all expressions of the group-by have the same values.
  have hiff (a b : Record) : list.sameKey clock a b = true ↔ ∀ x ∈ list.effective,
      (x.valueOn clock (.single a)).same (x.valueOn clock (.single b)) = true :=
    List.all_eq_true
  constructor
  case refl => exact fun a ha => (hiff a a).mpr fun x _ => same_refl (hvalue x a ha)
  case symm =>
    intro a ha b hb h
    rw [hiff] at h ⊢
    exact fun x hx => same_symm (hvalue x a ha) (hvalue x b hb) (h x hx)
  case trans =>
    intro a ha b _ c _ hab hbc
    rw [hiff] at hab hbc ⊢
    exact fun x hx => same_trans (hvalue x a ha) (hab x hx) (hbc x hx)

/-- The groups of a query with a group-by. -/
theorem groupRecords_eq (parts : QueryParts) (hgroupBy : parts.groupBy = some (.items list))
    (records : List Record) (hproper : ∀ record ∈ records, (Json.object record).Proper)
    (groups : List (List Record)) (h : Store.groupRecords clock parts records = .ok groups) :
    groups = (groupsOf (list.sameKey clock) records).map (·.map Prod.fst) := by
  rw [Store.groupRecords, hgroupBy] at h
  rcases bind_eq_ok.mp h with ⟨keys, hkeys, h⟩
  have hvalues (record : Record) : keys.map (fun key => key (.single record)) =
      list.effective.map (·.valueOn clock (.single record)) :=
    (map_of_mapM (fun x f hf => (Expression.valueOn_eq clock _ x f hf).symm) hkeys).symm
  rw [← Except.ok.inj h]
  exact groupByKey_eq _ (list.sameKey clock) (fun a b => sameItems_map list.effective _ _) keys
    hvalues records (equivalenceOn_sameKey clock list records hproper)

end Records

end Polyquery
