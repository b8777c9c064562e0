import Polyquery.Proofs.Memory.Grouping
import Polyquery.Proofs.Memory.Preorder

/-!
# From a Group Back to Its Records

A group has a key, and so does a row of distinct values. Asking for the records whose
value equals the key should lead back to the records that the group is made of. It
does for texts and truth values, and for null with a null test. For numbers there are
two equalities, though. Groups and distinct rows are told apart by what is written,
where a whole number is never a fraction, and a filter compares numbers by size.

The filter is the wider one of the two, so no record of the group is lost. What it
finds beside them are the records whose numbers clash with the key: they are written
in another way and compared as equal. A whole number clashes with the floating-point
number next to it. Beyond 64 signed bits it clashes with whole numbers, too, since
these are compared as floating-point numbers.

## Main definitions

* `Number.Clashes`, `Json.Clashes`: Numbers with two answers to whether they are equal.
* `Store.recordsOfKey`: The records of a group.
* `Query.distinctValues`, `Query.whereEquals`, `Query.whereNull`: Queries at a path.

## Theorems

* `compareNumbers_eq_iff`, `equalValues_iff`: What counts as equal.
* `comparisonTest_literal`: Comparing with a key.
* `groupRecords_at`, `findAll_distinctValues`: Groups and distinct rows.
* `drilling_down`: The records that a key leads back to.
-/

namespace Polyquery

open Rounding

/-- Two numbers that are compared as equal and are not the same. -/
inductive Number.Clashes : Number → Number → Prop where
  | wholeFloat (n : Int) (x : Float) (h : (Float.ofInt n == x) = true) :
    Clashes (.int n) (.float x)
  | floatWhole (x : Float) (n : Int) (h : (x == Float.ofInt n) = true) :
    Clashes (.float x) (.int n)
  /-- One of two whole numbers is too large to be compared exactly. -/
  | large (m n : Int) (hne : m ≠ n) (hlarge : maxInt64 < m ∨ maxInt64 < n)
    (h : (Float.ofInt m == Float.ofInt n) = true) : Clashes (.int m) (.int n)

/-- Two values that are compared as equal and are not the same. -/
def Json.Clashes : Json → Json → Prop
  | .number a, .number b => a.Clashes b
  | _, _ => False

example : (Json.ofInt 1).Clashes (.number (.float 1)) :=
  .wholeFloat 1 1 (by decide)

example : (Json.ofInt 18446744073709551615).Clashes (.ofInt 18446744073709551614) :=
  .large _ _ (by decide) (.inl (by decide)) (by decide)

section Numbers

theorem compareFloats_eq_iff (x y : Float) :
    compareFloats x y = some .eq ↔ (x == y) = true := by
  constructor
  · intro h
    unfold compareFloats at h
    split at h
    case isTrue => cases h
    split at h
    case isTrue => cases h
    split at h
    case isTrue hequal => exact hequal
    case isFalse => cases h
  · intro h
    rcases (floatBeq_iff x y).mp h with ⟨value, hx, hy⟩
    rw [compareFloats_eq, hx, hy]
    exact congrArg some (compare_eq_iff_eq.mpr rfl)

theorem floatBeq_ofInt (n : Int) : (Float.ofInt n == Float.ofInt n) = true :=
  (floatBeq_iff _ _).mpr ⟨_, floatValue_ofInt n, floatValue_ofInt n⟩

theorem toInt64_int (n : Int) (h : n ≤ maxInt64) : (Number.int n).toInt64? = some n :=
  if_pos h

theorem toInt64_large (n : Int) (h : maxInt64 < n) : (Number.int n).toInt64? = none :=
  if_neg (Int.not_le.mpr h)

/-- Numbers are compared as equal if they are the same or clash. -/
theorem compareNumbers_eq_iff (a b : Number) :
    compareNumbers a b = some .eq ↔ a.same b = true ∨ a.Clashes b := by
  -- Unless both numbers are whole and small enough they are compared as floating-point numbers.
  have hfloats (hnone : a.toInt64? = none ∨ b.toInt64? = none) :
      compareNumbers a b = some .eq ↔ (a.toFloat == b.toFloat) = true := by
    rw [← compareFloats_eq_iff, compareNumbers]
    rcases hnone with hnone | hnone
    · rw [hnone]
    · rw [hnone]
      cases a.toInt64? <;> rfl
  cases a with
  | float x =>
      rw [hfloats (.inl rfl)]
      cases b with
      | float y => exact (or_iff_left (by rintro ⟨⟩)).symm
      | int n =>
          refine Iff.trans ?_ (or_iff_right Bool.false_ne_true).symm
          exact ⟨.floatWhole x n, fun hclash => by cases hclash with | floatWhole _ _ h => exact h⟩
  | int m =>
      cases b with
      | float y =>
          rw [hfloats (.inr rfl)]
          refine Iff.trans ?_ (or_iff_right Bool.false_ne_true).symm
          exact ⟨.wholeFloat m y, fun hclash => by cases hclash with | wholeFloat _ _ h => exact h⟩
      | int n =>
          have hsame : (Number.int m).same (.int n) = true ↔ m = n := beq_iff_eq
          rw [hsame]
          by_cases hsmall : m ≤ maxInt64 ∧ n ≤ maxInt64
          · rw [compareNumbers, toInt64_int m hsmall.1, toInt64_int n hsmall.2, Option.some.injEq,
              Int.compare_eq_eq]
            refine (or_iff_left ?_).symm
            rintro ⟨⟩
            omega
          · have hlarge : maxInt64 < m ∨ maxInt64 < n := by omega
            rw [hfloats (hlarge.imp (toInt64_large m) (toInt64_large n))]
            constructor
            · intro h
              by_cases heq : m = n
              · exact .inl heq
              · exact .inr (.large m n heq hlarge h)
            · rintro (rfl | hclash)
              · exact floatBeq_ofInt m
              · cases hclash with
                | large _ _ _ _ h => exact h

theorem isFinite_of_value {x : Float} {value : FloatValue} (h : floatValue x = some value)
    (hfinite : ∀ sign, value ≠ .infinity sign) : x.isFinite = true := by
  change x.toModel.unpack.isFinite = true
  rw [floatValue] at h
  cases hx : x.toModel.unpack with
  | notANumber => rw [hx] at h; cases h
  | infinity sign => rw [hx] at h; exact absurd (Option.some.inj h).symm (hfinite sign)
  | zero sign => rfl
  | finite sign mantissa exponent positive => rfl

/-- The whole numbers that can be written are next to finite ones. -/
theorem isFinite_ofInt (n : Int) (hlow : 0 ≤ n) (hhigh : n < 2 ^ 64) :
    (Float.ofInt n).isFinite = true := by
  refine isFinite_of_value (floatValue_ofInt n) fun sign => ?_
  lift n to Nat using hlow
  change closestNat n ≠ _
  rw [closestNat]
  split
  case isTrue => rintro ⟨⟩
  case isFalse hn =>
    have hlog : n.log2 < 64 := (Nat.log2_lt hn).mpr (by omega)
    have hexponent : (closest n).2 ≤ 971 := by
      rw [closest, normal]
      split <;> dsimp only <;> omega
    rw [if_pos hexponent]
    rintro ⟨⟩

end Numbers

section Values

variable {key : Json} {literal : Literal}

/-- Numbers that clash are not the same. -/
theorem Json.Clashes.not_same {a b : Json} (h : a.Clashes b) : a.same b = false := by
  cases a with
  | number a =>
      cases b with
      | number b =>
          cases h with
          | wholeFloat => rfl
          | floatWhole => rfl
          | large m n hne => exact beq_eq_false_iff_ne.mpr hne
      | _ => exact h.elim
  | _ => exact h.elim

theorem Json.Clashes.eq_number {a b : Json} (h : a.Clashes b) : ∃ n, b = .number n := by
  cases b with
  | number b => exact ⟨b, rfl⟩
  | _ => cases a <;> exact h.elim

/-- Values are compared as equal to a constant if they are the same or clash. -/
theorem equalValues_iff (h : Literal.ofJson? key = some literal) (value : Json) :
    equalValues value key = true ↔ value.same key = true ∨ value.Clashes key := by
  -- But for numbers the two notions of equality agree.
  have hclash (hnone : ¬ value.Clashes key) (hequal : equalValues value key = value.same key) :
      equalValues value key = true ↔ value.same key = true ∨ value.Clashes key := by
    rw [or_iff_left hnone, hequal]
  cases key with
  | number b =>
      cases value with
      | number a =>
          -- Numbers may be compared through floats, where an integer can equal a float.
          rw [equalValues, beq_iff_eq]
          exact compareNumbers_eq_iff a b
      | _ => exact hclash id rfl
  | string t =>
      cases value with
      | string s =>
          refine hclash id ?_
          rw [Bool.eq_iff_iff, equalValues, beq_iff_eq]
          exact Option.some_inj.trans (compare_eq_iff_eq.trans beq_iff_eq.symm)
      | _ => exact hclash id rfl
  | bool c =>
      cases value with
      | bool b => exact hclash id (by cases b <;> cases c <;> rfl)
      | _ => exact hclash id rfl
  | _ => cases h

/-- A comparison with the constant of a key is one with the key. -/
theorem comparisonTest_literal (hproper : key.Proper)
    (hwhole : ∀ n, key = .ofInt n → n < 2 ^ 64) (h : Literal.ofJson? key = some literal)
    (value : Json) :
    comparisonTest .equals false value literal.toJson = equalValues value key := by
  -- Values that are compared as equal are not null, which need not be asked for.
  have hpresent : comparisonTest .equals false value literal.toJson =
      equalValues value literal.toJson := by
    change (!value.isNull && !literal.toJson.isNull && _) = _
    cases hequal : equalValues value literal.toJson with
    | false => rw [Bool.and_false]
    | true =>
        rcases isNull_of_compares (beq_iff_eq.mp hequal) with ⟨hleft, hright⟩
        rw [hleft, hright]
        rfl
  rw [hpresent]
  cases hproper with
  | string s => rw [← Option.some.inj h]; rfl
  | bool b => rw [← Option.some.inj h]; rfl
  | float x hfinite =>
      rw [← Option.some.inj h, Literal.toJson, Json.ofFloat]
      exact congrArg (equalValues value) (if_pos hfinite)
  | int n =>
      rw [Literal.ofJson?] at h
      by_cases hsmall : n ≤ maxInt64
      · rw [toInt64_int n hsmall] at h
        rw [← Option.some.inj h]
        rfl
      · -- The constant is a floating-point number, with which all comparisons are as before.
        have hlarge := toInt64_large n (by omega)
        rw [hlarge] at h
        have hfinite := isFinite_ofInt n (by rw [maxInt64] at hsmall; omega) (hwhole n rfl)
        rw [← Option.some.inj h]
        change equalValues value (Json.ofFloat (Float.ofInt n)) = _
        rw [Json.ofFloat, if_pos hfinite]
        cases value with
        | number a =>
            rw [equalValues, equalValues, compareValues, compareValues, compareNumbers,
              compareNumbers, hlarge]
            cases a.toInt64? <;> rfl
        | _ => rfl
  | null => cases h
  | array _ _ => cases h
  | object _ _ _ => cases h

end Values

/-- The records with the value of a key at a path. -/
def Store.recordsOfKey (store : Store) (path : String) (key : Json) : List Record :=
  store.records.filter fun record => key.same (record.lookup path)

namespace Query

/-- The different values at a path. -/
def distinctValues (path : String) : Query where
  select := some (.items ⟨[path], []⟩)
  distinct := true

/-- The records with a comparison at a path. -/
def whereValue (path : String) (op : Operator) (value : Option ConditionValue) : Query where
  filter := some (.simple ⟨.property path none, op, value⟩)

/-- The records whose value at a path equals a constant. -/
def whereEquals (path : String) (literal : Literal) : Query :=
  whereValue path .equals (some (.scalar literal))

/-- The records without a value at a path. -/
def whereNull (path : String) : Query :=
  whereValue path .isNull none

end Query

section Groups

/-- The rows that stay are those of the first elements. -/
theorem distinctOutputs_eq {α : Type} (f : α → Candidate) (as : List α)
    (h : EquivalenceOn (fun a b => (f a).same (f b)) as) :
    distinctOutputs (as.map f) =
      (firstPlaces (fun a b => (f a).same (f b)) as).map fun first => f first.1 := by
  induction as using List.reverseRecOn with
  | nil => rfl
  | append_singleton as a ih =>
      rw [List.map_append, List.map_singleton, distinctOutputs_concat, ih h.of_append,
        firstPlaces_concat, List.map_append]
      simp only [List.any_map, Function.comp_def, any_firstPlaces h]
      split
      · exact (List.append_nil _).symm
      · rfl

/-- The elements of a group without their places. -/
theorem map_placesOf {α : Type} (same : α → α → Bool) (as : List α) (a : α) :
    (placesOf same as a).map Prod.fst = as.filter fun b => same a b := by
  conv => rhs; rw [← List.zipIdx_map_fst 0 as, List.filter_map]
  rfl

variable (store : Store) (clock : Clock) (path : String)

/-- Whether two records have the same value at a path. -/
def sameAt (a b : Record) : Bool :=
  (a.lookup path).same (b.lookup path)

/-- The keys of the groups at a path, in the order of the groups. -/
def keysAt (records : List Record) : List Json :=
  (firstPlaces (sameAt path) records).map fun first => first.1.lookup path

variable (hproper : ∀ record ∈ store.records, (Json.object record).Proper)

include hproper

theorem equivalenceOn_sameAt : EquivalenceOn (sameAt path) store.records where
  refl := fun a ha => same_refl (proper_lookup a path (hproper a ha))
  symm := fun a ha b hb => same_symm (proper_lookup a path (hproper a ha))
    (proper_lookup b path (hproper b hb))
  trans := fun a ha _ _ _ _ => same_trans (proper_lookup a path (hproper a ha))

/-- Every value at a path is the same as a key. -/
theorem exists_keyAt (record : Record) (hrecord : record ∈ store.records) :
    ∃ key ∈ keysAt path store.records, key.same (record.lookup path) = true := by
  have h := equivalenceOn_sameAt store path hproper
  rcases exists_place hrecord with ⟨place, hplace, rfl⟩
  rcases exists_first (sameAt path) h.refl h.trans place hplace with ⟨first, hmem, hfirst, hsame⟩
  exact ⟨first.1.lookup path,
    List.mem_map.mpr ⟨first, (mem_firstPlaces first).mpr ⟨hmem, hfirst⟩, rfl⟩, hsame⟩

/-- The groups at a path are the records of the keys. -/
theorem groupRecords_at (parts : QueryParts) (list : ExpressionList) (label : Option String)
    (hgroupBy : parts.groupBy = some (.items list))
    (hlist : list.effective = [.property path label]) :
    Store.groupRecords clock parts store.records =
      .ok ((keysAt path store.records).map (store.recordsOfKey path)) := by
  have hsame : list.sameKey clock = sameAt path := by
    funext a b
    simp only [ExpressionList.sameKey, hlist, List.all_cons, List.all_nil, Bool.and_true,
      Expression.valueOn_property]
    rfl
  have hkeys : Store.groupRecords clock parts store.records =
      .ok (groupByKey [fun rows => rows.current.lookup path] store.records) := by
    rw [Store.groupRecords, hgroupBy]
    change (list.effective.mapM _ >>= _) = _
    rw [hlist]
    rfl
  have hgroups := groupRecords_eq clock list parts hgroupBy store.records hproper _ hkeys
  rw [hkeys, hgroups, hsame, groupsOf, keysAt, List.map_map, List.map_map]
  refine congrArg Except.ok (List.map_congr_left fun first _ => ?_)
  exact map_placesOf (sameAt path) store.records first.1

/-- The distinct rows at a path are the keys. -/
theorem findAll_distinctValues : store.findAll clock (.distinctValues path) =
    .ok ((keysAt path store.records).map fun key => [(path, key)]) := by
  let row (record : Record) : Candidate := ⟨record, [], [(path, record.lookup path)]⟩
  have hanswer : store.findAll clock (.distinctValues path) =
      .ok ((insertionSort (SortPlan.precedes ⟨[], []⟩)
        (distinctOutputs ((store.matching none).map row))).map (·.output)) := rfl
  have hmatching : store.matching none = store.records := List.filter_eq_self.mpr fun _ _ => rfl
  have hsame : (fun a b => (row a).same (row b)) = sameAt path := by
    funext a b
    simp only [row, Candidate.same, Json.same, Json.sameMembers, List.lookup, beq_self_eq_true,
      Bool.and_true, Bool.true_and, List.length_singleton, sameAt]
  have hrows := distinctOutputs_eq row store.records
    (hsame ▸ equivalenceOn_sameAt store path hproper)
  rw [hanswer, hmatching, insertionSort_eq_self (SortPlan.precedes ⟨[], []⟩) (fun _ _ => rfl),
    hrows, hsame, keysAt, List.map_map, List.map_map]
  rfl

end Groups

section Filters

variable (store : Store) (clock : Clock) (path : String) (hdepth : 0 < store.maxDepth)

include hdepth

/-- The records that pass a comparison. -/
theorem findAll_whereValue (op : Operator) (value : Option ConditionValue) (test : RowTest)
    (hcheck : (Query.whereValue path op value).check = .ok ())
    (htest : SimpleCondition.rowTest clock ⟨.property path none, op, value⟩
      ⟨false, 1, store.maxDepth⟩ = .ok test) :
    store.findAll clock (.whereValue path op value) =
      .ok (store.records.filter fun record => test (.single record)) := by
  -- The filter is one comparison, and its test is all that a record has to pass.
  have hfilter : (rowInterpretation clock).filter
      (some (.simple ⟨.property path none, op, value⟩)) store.maxDepth = .ok (some test) := by
    change Except.map some ((if store.maxDepth ≤ 0 then _ else _) >>= _) = _
    rw [if_neg (Nat.not_le.mpr hdepth), ok_bind]
    exact congrArg (Except.map some) htest
  have hanswer : store.findAll clock (.whereValue path op value) =
      (Query.whereValue path op value).check >>= fun _ =>
        (rowInterpretation clock).filter (some (.simple ⟨.property path none, op, value⟩))
          store.maxDepth >>= fun filter =>
            .ok (resultRows ⟨[], []⟩ false none [] ((store.matching filter).map fun record =>
              ⟨record, [], record⟩)) := by
    rw [store.findAll_eq]
    exact handle_plain (store.recordsOf clock) (.plain (.whereValue path op value)) rfl
  rcases resultRows_all ⟨[], []⟩ (fun record => ⟨record, [], record⟩)
    (store.matching (some test)) with ⟨order, -, hself, hrows⟩
  rw [hanswer, hcheck, ok_bind, hfilter, ok_bind, hrows, hself rfl, List.map_id']
  rfl

theorem findAll_whereNull :
    store.findAll clock (.whereNull path) = .ok (store.recordsOfKey path .null) := by
  have hnull (value : Json) : nullTest .isNull value = Json.null.same value := by
    cases value <;> rfl
  rw [Query.whereNull, findAll_whereValue store clock path hdepth .isNull none
    (fun rows => nullTest .isNull (rows.current.lookup path)) rfl rfl]
  simp only [hnull]
  rfl

theorem findAll_whereEquals (key : Json) (literal : Literal) (hkey : key.Proper)
    (hwhole : ∀ n, key = .ofInt n → n < 2 ^ 64) (hliteral : Literal.ofJson? key = some literal) :
    store.findAll clock (.whereEquals path literal) =
      .ok (store.records.filter fun record => equalValues (record.lookup path) key) := by
  rw [Query.whereEquals, findAll_whereValue store clock path hdepth .equals
    (some (.scalar literal)) (fun rows =>
      comparisonTest .equals false (rows.current.lookup path) literal.toJson) rfl rfl]
  simp only [comparisonTest_literal hkey hwhole hliteral]
  rfl

end Filters

section Selections

variable {store : Store} {path : String} {key : Json} {literal : Literal}
  (hproper : ∀ record ∈ store.records, (Json.object record).Proper) (hkey : key.Proper)
  (hliteral : Literal.ofJson? key = some literal)

include hproper hkey hliteral

/-- A comparison with a key finds the records of the key and those that clash with it. -/
theorem whereEquals_iff (record : Record) (hrecord : record ∈ store.records) :
    equalValues (record.lookup path) key = true ↔
      key.same (record.lookup path) = true ∨ (record.lookup path).Clashes key := by
  have hvalue := proper_lookup record path (hproper record hrecord)
  rw [equalValues_iff hliteral, Bool.eq_iff_iff.mpr ⟨same_symm hvalue hkey, same_symm hkey hvalue⟩]

/-- A comparison with a key loses no record of the key. -/
theorem recordsOfKey_sublist : (store.recordsOfKey path key).Sublist
    (store.records.filter fun record => equalValues (record.lookup path) key) := by
  have hboth : store.recordsOfKey path key =
      (store.records.filter fun record => equalValues (record.lookup path) key).filter
        fun record => key.same (record.lookup path) := by
    rw [List.filter_filter]
    refine List.filter_congr fun record hrecord => ?_
    cases hsame : key.same (record.lookup path) with
    | false => rfl
    | true =>
        exact ((whereEquals_iff hproper hkey hliteral record hrecord).mpr (.inl hsame)).symm
  rw [hboth]
  exact List.filter_sublist

/-- A comparison with a key finds nothing else if no record clashes with it. -/
theorem recordsOfKey_eq_iff :
    store.records.filter (fun record => equalValues (record.lookup path) key) =
        store.recordsOfKey path key ↔
      ∀ record ∈ store.records, ¬ (record.lookup path).Clashes key := by
  constructor
  · intro h record hrecord hclash
    have hfound : record ∈ store.records.filter fun record =>
        equalValues (record.lookup path) key :=
      List.mem_filter.mpr ⟨hrecord,
        (whereEquals_iff hproper hkey hliteral record hrecord).mpr (.inr hclash)⟩
    rw [h] at hfound
    have hvalue := proper_lookup record path (hproper record hrecord)
    have hsame := same_symm hkey hvalue (List.mem_filter.mp hfound).2
    exact absurd (hclash.not_same.symm.trans hsame) Bool.false_ne_true
  · intro h
    refine List.filter_congr fun record hrecord => ?_
    rw [Bool.eq_iff_iff, whereEquals_iff hproper hkey hliteral record hrecord]
    exact or_iff_left (h record hrecord)

end Selections

/-- The groups at a path have keys, and so have the distinct rows. A null test finds the records
    whose key is null. An equality with any other key finds the records of the key, unless they
    have records beside them whose numbers clash with the key. -/
theorem drilling_down (store : Store) (clock : Clock) (path : String)
    (hdepth : 0 < store.maxDepth)
    (hproper : ∀ record ∈ store.records, (Json.object record).Proper)
    (hwhole : ∀ record ∈ store.records, ∀ n, record.lookup path = .ofInt n → n < 2 ^ 64) :
    ∃ keys : List Json,
      (∀ parts list label, QueryParts.groupBy parts = some (.items list) →
        list.effective = [.property path label] →
        Store.groupRecords clock parts store.records =
          .ok (keys.map (store.recordsOfKey path))) ∧
      store.findAll clock (.distinctValues path) = .ok (keys.map fun key => [(path, key)]) ∧
      store.findAll clock (.whereNull path) = .ok (store.recordsOfKey path .null) ∧
      (.null ∉ keys → store.recordsOfKey path .null = []) ∧
      ∀ key ∈ keys, ∀ literal, Literal.ofJson? key = some literal →
        ∃ found, store.findAll clock (.whereEquals path literal) = .ok found ∧
          (store.recordsOfKey path key).Sublist found ∧
          (found = store.recordsOfKey path key ↔
            ∀ record ∈ store.records, ¬ (record.lookup path).Clashes key) ∧
          ((∀ n, key ≠ .number n) → found = store.recordsOfKey path key) := by
  have hkeys : ∀ key ∈ keysAt path store.records, ∃ record ∈ store.records,
      record.lookup path = key := by
    intro key hkey
    rcases List.mem_map.mp hkey with ⟨first, hfirst, rfl⟩
    exact ⟨first.1, List.fst_mem_of_mem_zipIdx ((mem_firstPlaces first).mp hfirst).1, rfl⟩
  refine ⟨keysAt path store.records, fun parts list label hgroupBy hlist =>
    groupRecords_at store clock path hproper parts list label hgroupBy hlist,
    findAll_distinctValues store clock path hproper, findAll_whereNull store clock path hdepth,
    fun hnone => ?_, fun key hkey literal hliteral => ?_⟩
  · refine List.filter_eq_nil_iff.mpr fun record hrecord hnull => hnone ?_
    rcases exists_keyAt store path hproper record hrecord with ⟨key, hkey, hsame⟩
    -- A record without a value has a key that is the same as null, which is null alone.
    cases hvalue : record.lookup path with
    | null =>
        rw [hvalue] at hsame
        cases key with
        | null => exact hkey
        | _ => exact absurd hsame Bool.false_ne_true
    | _ =>
        rw [hvalue] at hnull
        exact absurd hnull Bool.false_ne_true
  · rcases hkeys key hkey with ⟨record, hrecord, rfl⟩
    have hvalue := proper_lookup record path (hproper record hrecord)
    refine ⟨_, findAll_whereEquals store clock path hdepth _ literal hvalue (hwhole record hrecord)
      hliteral, recordsOfKey_sublist hproper hvalue hliteral,
      recordsOfKey_eq_iff hproper hvalue hliteral, fun hnumber => ?_⟩
    refine (recordsOfKey_eq_iff hproper hvalue hliteral).mpr fun other _ hclash => ?_
    rcases hclash.eq_number with ⟨n, hn⟩
    exact hnumber n hn

/-- The same number written in two ways. -/
def sampleClash : Store where
  records := [[("k", .ofInt 1)], [("k", .number (.float 1))]]

/-- An equality with the key of the first group finds the second record as well. -/
theorem drilling_down_sample :
    (∃ keys : List Json, .ofInt 1 ∈ keys ∧ sampleClash.findAll ⟨"", "", ""⟩ (.distinctValues "k") =
      .ok (keys.map fun key => [("k", key)])) ∧
    ∃ found, sampleClash.findAll ⟨"", "", ""⟩ (.whereEquals "k" (.integer 1)) = .ok found ∧
      (sampleClash.recordsOfKey "k" (.ofInt 1)).Sublist found ∧
      found ≠ sampleClash.recordsOfKey "k" (.ofInt 1) := by
  have hproper : ∀ record ∈ sampleClash.records, (Json.object record).Proper := by
    simp only [sampleClash, List.forall_mem_cons, List.not_mem_nil, false_implies, forall_const,
      and_true]
    refine ⟨.object _ (by decide) ?_, .object _ (by decide) ?_⟩
    all_goals simp only [List.forall_mem_cons, List.not_mem_nil, false_implies, forall_const,
      and_true]
    · exact .int _
    · exact .float _ (by decide)
  have hwhole : ∀ record ∈ sampleClash.records, ∀ n, record.lookup "k" = .ofInt n →
      n < 2 ^ 64 := by
    simp only [sampleClash, List.forall_mem_cons, List.not_mem_nil, false_implies, forall_const,
      and_true]
    refine ⟨fun n hn => ?_, fun n hn => by cases hn⟩
    cases hn
    decide
  rcases drilling_down sampleClash ⟨"", "", ""⟩ "k" (by decide) hproper hwhole with
    ⟨keys, _, hdistinct, _, _, heach⟩
  have hrows : sampleClash.findAll ⟨"", "", ""⟩ (.distinctValues "k") =
      .ok [[("k", .ofInt 1)], [("k", .number (.float 1))]] := rfl
  have hkey : Json.ofInt 1 ∈ keys := by
    have hrow : [("k", Json.ofInt 1)] ∈ keys.map fun key => [("k", key)] := by
      rw [← Except.ok.inj (hrows.symm.trans hdistinct)]
      exact List.mem_cons_self
    rcases List.mem_map.mp hrow with ⟨key, hkey, heq⟩
    cases heq
    exact hkey
  rcases heach _ hkey (.integer 1) rfl with ⟨found, hfound, hsub, hiff, _⟩
  refine ⟨⟨keys, hkey, hdistinct⟩, found, hfound, hsub, fun heq => ?_⟩
  exact hiff.mp heq [("k", .number (.float 1))] (List.mem_cons_of_mem _ List.mem_cons_self)
    (Number.Clashes.floatWhole 1 1 (by decide))

end Polyquery
