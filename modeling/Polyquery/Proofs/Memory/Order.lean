import Polyquery.Memory.Result
import Polyquery.Proofs.Memory.Evaluation
import Polyquery.Proofs.Query.Expressions

/-!
# The Order of Rows

Values are sorted by a function that answers for any two of them, also for those
that are in no order with each other, which it takes for equal. Whether it is an
order depends on the values. Here it is compared with relations that claim nothing
of values of different kinds: null is above everything else, and the rest is ordered
within its kind (`Json.Below`). As long as a sort key yields values of one kind and
nulls, the two agree (`sortOrder_tells`).

A comparison has three answers, and each is to say something: which of the two
comes first, or that the two are the same. `Tells` puts these three together, so
that a comparison by several keys can be put together from those by one
(`tells_then`) without a case for every pair of answers in later proofs.

The relations are transitive on all values and need no kinds for that.

## Main definitions

* `Tells`: What the answer of a comparison says.
* `Json.Below`, `Direction.Below`: The order of values, in a direction.
* `Precedes`: The order of lists of values, of which the first difference decides.
* `SortKind`, `SortKind.Orders`: Values that a key can be sorted by.
* `QueryParts.directions`, `QueryParts.sortValues`: What a row is sorted by.
* `compareRows`: The order of rows by sort keys.

## Theorems

* `compareValues_tells`, `sortOrder_tells`: The comparison of values.
* `compareAll_eq`: The comparison of candidates is one of rows.
* `compareRows_tells`: The comparison of rows.
* `Precedes.trans`: The order is transitive.
-/

namespace Polyquery

/-- What the answer of a comparison says of what is compared. -/
def Tells {α : Type} (before : α → α → Prop) (a b : α) : Ordering → Prop
  | .lt => before a b
  | .eq => a = b
  | .gt => before b a

/-- A value comes before another one: any other value before null, and the rest by size within
    its kind. -/
inductive Json.Below : Json → Json → Prop where
  | null (value : Json) (h : value ≠ .null) : Below value .null
  | integer (m n : Int) (h : m < n) : Below (.number (.int m)) (.number (.int n))
  | string (s t : String) (h : s < t) : Below (.string s) (.string t)
  | boolean : Below (.bool false) (.bool true)

/-- A value comes before another one in a direction. -/
def Direction.Below : Direction → Json → Json → Prop
  | .ascending, a, b => a.Below b
  | .descending, a, b => b.Below a

/-- A list of values comes before another one, where each place has a direction of its own and the
    first place with a difference decides. -/
inductive Precedes : List Direction → List Json → List Json → Prop where
  | first (direction directions a b as bs) (h : direction.Below a b) :
    Precedes (direction :: directions) (a :: as) (b :: bs)
  | later (direction directions a as bs) (h : Precedes directions as bs) :
    Precedes (direction :: directions) (a :: as) (a :: bs)

/-- The kinds of values that are in an order. -/
inductive SortKind where
  | integer
  | string
  | boolean
  deriving Repr, DecidableEq

/-- A value of a kind, or null. Whole numbers fit into 64 signed bits. -/
def SortKind.Orders : SortKind → Json → Prop
  | .integer, value => value = .null ∨ ∃ n, minInt64 ≤ n ∧ n ≤ maxInt64 ∧ value = .ofInt n
  | .string, value => value = .null ∨ ∃ s, value = .string s
  | .boolean, value => value = .null ∨ ∃ b, value = .bool b

section Values

variable {α : Type}

theorem tells_compare [Ord α] [Std.OrientedOrd α] [Std.LawfulEqOrd α] (before : α → α → Prop)
    (h : ∀ a b, compare a b = .lt → before a b) (a b : α) :
    Tells before a b (compare a b) := by
  cases hab : compare a b with
  | lt => exact h a b hab
  | eq => exact Std.compare_eq_iff_eq.mp hab
  | gt => exact h b a (Std.OrientedCmp.gt_iff_lt.mp hab)

/-- What is told of elements is told of the values that they are wrapped in. -/
theorem Tells.map {β : Type} {before : α → α → Prop} {other : β → β → Prop} (f : α → β)
    (hf : ∀ a b, before a b → other (f a) (f b)) {a b : α} {answer : Ordering}
    (h : Tells before a b answer) : Tells other (f a) (f b) answer := by
  cases answer with
  | lt => exact hf a b h
  | eq => exact congrArg f h
  | gt => exact hf b a h

theorem tells_reverse (direction : Direction) (a b : Json) (answer : Ordering)
    (h : Tells Json.Below a b answer) : Tells direction.Below a b (direction.apply answer) := by
  cases direction with
  | ascending => exact h
  | descending => cases answer <;> exact h

theorem isNull_eq_false_iff (value : Json) : value.isNull = false ↔ value ≠ .null := by
  rw [← Bool.not_eq_true, isNull_iff]

/-- Values of one kind that are not null are in an order, which the comparison tells. -/
theorem compareValues_tells (kind : SortKind) (a b : Json) (ha : kind.Orders a)
    (hb : kind.Orders b) (hpresentA : a ≠ .null) (hpresentB : b ≠ .null) :
    ∃ answer, compareValues a b = some answer ∧ Tells Json.Below a b answer := by
  cases kind with
  | integer =>
      -- Integers that fit are compared as integers, so what tells them apart are their values.
      rcases ha with rfl | ⟨m, _, hm, rfl⟩
      · exact absurd rfl hpresentA
      rcases hb with rfl | ⟨n, _, hn, rfl⟩
      · exact absurd rfl hpresentB
      refine ⟨compare m n, ?_, ?_⟩
      · simp only [Json.ofInt, compareValues, compareNumbers, Number.toInt64?, hm, hn, if_true]
      · exact (tells_compare (· < ·) (fun _ _ => Std.compare_eq_lt.mp) m n).map
          Json.ofInt .integer
  | string =>
      rcases ha with rfl | ⟨s, rfl⟩
      · exact absurd rfl hpresentA
      rcases hb with rfl | ⟨t, rfl⟩
      · exact absurd rfl hpresentB
      exact ⟨compare s t, rfl, (tells_compare (· < ·) (fun _ _ => compareOfLessAndEq_eq_lt.mp)
        s t).map Json.string .string⟩
  | boolean =>
      -- The false value comes before the true one.
      rcases ha with rfl | ⟨p, rfl⟩
      · exact absurd rfl hpresentA
      rcases hb with rfl | ⟨q, rfl⟩
      · exact absurd rfl hpresentB
      refine ⟨compare p q, rfl, ?_⟩
      cases p <;> cases q
      · rfl
      · exact .boolean
      · exact .boolean
      · rfl

/-- The comparison of values agrees with their order, as long as they are of one kind or null. -/
theorem sortOrder_tells (kind : SortKind) (a b : Json) (ha : kind.Orders a) (hb : kind.Orders b) :
    Tells Json.Below a b (sortOrder a b) := by
  unfold sortOrder
  -- Nulls are equal to each other and come behind everything else.
  cases hnullA : a.isNull with
  | true =>
      rw [(isNull_iff a).mp hnullA]
      cases hnullB : b.isNull with
      | true => exact ((isNull_iff b).mp hnullB).symm
      | false => exact .null b ((isNull_eq_false_iff b).mp hnullB)
  | false =>
      have hpresentA := (isNull_eq_false_iff a).mp hnullA
      cases hnullB : b.isNull with
      | true =>
          rw [(isNull_iff b).mp hnullB]
          exact .null a hpresentA
      | false =>
          have hpresentB := (isNull_eq_false_iff b).mp hnullB
          rcases compareValues_tells kind a b ha hb hpresentA hpresentB with
            ⟨answer, hanswer, htells⟩
          rw [hanswer]
          exact htells

end Values

section Lists

variable {direction : Direction} {directions : List Direction} {a b : Json} {as bs cs : List Json}

/-- The first key decides unless the values are the same. -/
theorem tells_then {answer rest : Ordering} (h : Tells direction.Below a b answer)
    (hrest : Tells (Precedes directions) as bs rest) :
    Tells (Precedes (direction :: directions)) (a :: as) (b :: bs) (answer.then rest) := by
  cases answer with
  | lt => exact .first direction directions a b as bs h
  | gt => exact .first direction directions b a bs as h
  | eq =>
      rw [show a = b from h]
      cases rest with
      | lt => exact .later direction directions b as bs hrest
      | eq => exact congrArg (b :: ·) hrest
      | gt => exact .later direction directions b bs as hrest

theorem Json.Below.trans {a b c : Json} (hab : a.Below b) (hbc : b.Below c) : a.Below c := by
  cases hbc with
  | null _ hb =>
      cases hab with
      -- Nothing comes after null.
      | null _ _ => exact absurd rfl hb
      | _ => exact .null _ (by simp only [ne_eq, reduceCtorEq, not_false_eq_true])
  | integer m n hmn =>
      cases hab with
      | integer l _ hlm => exact .integer l n (Int.lt_trans hlm hmn)
  | string s t hst =>
      cases hab with
      | string r _ hrs => exact .string r t (String.lt_trans hrs hst)
  | boolean => cases hab

theorem Direction.Below.trans {a b c : Json} (hab : direction.Below a b)
    (hbc : direction.Below b c) : direction.Below a c := by
  cases direction with
  | ascending => exact Json.Below.trans hab hbc
  | descending => exact Json.Below.trans hbc hab

theorem Precedes.trans (hab : Precedes directions as bs) (hbc : Precedes directions bs cs) :
    Precedes directions as cs := by
  -- The first difference of the outer two is the earlier one of the two differences.
  induction hab generalizing cs with
  | first direction directions a b as bs h =>
      cases hbc with
      | first _ _ _ c _ cs hbc => exact .first direction directions a c as cs (h.trans hbc)
      | later _ _ _ _ cs _ => exact .first direction directions a b as cs h
  | later direction directions a as bs _ ih =>
      cases hbc with
      | first _ _ _ c _ cs hbc => exact .first direction directions a c as cs hbc
      | later _ _ _ _ cs hbc => exact .later direction directions a as cs (ih hbc)

end Lists

/-- The direction of a sort key. -/
def SortKey.directions : SortKey → List Direction
  | .simple key => [key.direction]
  | .native _ => []

/-- The directions that a query sorts in. -/
def QueryParts.directions (parts : QueryParts) : List Direction :=
  parts.sorts.flatMap SortKey.directions

/-- The values that a row is sorted by. -/
def QueryParts.sortValues (clock : Clock) (parts : QueryParts) (rows : Rows) : List Json :=
  parts.sortExpressions.map (·.valueOn clock rows)

/-- The order of two rows by sort keys, of which the first one that tells them apart decides.
    Native keys are left out. -/
def compareRows (clock : Clock) : List SortKey → Rows → Rows → Ordering
  | [], _, _ => .eq
  | .simple key :: rest, a, b =>
    (key.direction.apply
      (sortOrder (key.expression.valueOn clock a) (key.expression.valueOn clock b))).then
        (compareRows clock rest a b)
  | .native _ :: rest, a, b => compareRows clock rest a b

section Rows

variable (clock : Clock)

/-- Candidates are compared by the values of the sort expressions. What comes before in the sort
    values of a candidate belongs to earlier keys. -/
theorem compareAll_eq (a b : Candidate) (ra rb : Rows) (keys : List SortKey)
    (hnative : ∀ key ∈ keys, key.isNative = false) :
    ∀ count plan earlier others, SortPlan.ofKeysFrom clock count keys = .ok plan →
      earlier.length = count → others.length = count → a.keys = earlier ++ plan.values ra →
      b.keys = others ++ plan.values rb →
      RowOrder.compareAll a b plan.orders = compareRows clock keys ra rb := by
  induction keys with
  | nil =>
      intro count plan earlier others h _ _ _ _
      rw [← Except.ok.inj h]
      rfl
  | cons key rest ih =>
      intro count plan earlier others h hearlier hothers ha hb
      rw [List.forall_mem_cons] at hnative
      cases key with
      | native piece => exact absurd hnative.1 (by
          simp only [SortKey.isNative, reduceCtorEq, not_false_eq_true])
      | simple key =>
          rcases bind_eq_ok.mp h with ⟨evaluator, hevaluator, h⟩
          rcases bind_eq_ok.mp h with ⟨later, hlater, h⟩
          rw [← Except.ok.inj h] at ha hb ⊢
          simp only [SortPlan.values, List.map_cons] at ha hb ⊢
          -- The value of this key stands right after those of the earlier keys.
          have hvalue : ∀ (values rest : List Json) (value : Json), values.length = count →
              (values ++ value :: rest).getD count .null = value := by
            rintro values rest value rfl
            rw [List.getD_eq_getElem?_getD, List.getElem?_append_right (Nat.le_refl _),
              Nat.sub_self]
            rfl
          have hcompare : (RowOrder.value count key.direction).compare a b = key.direction.apply
              (sortOrder (key.expression.valueOn clock ra) (key.expression.valueOn clock rb)) := by
            rw [RowOrder.compare, ha, hb, hvalue _ _ _ hearlier, hvalue _ _ _ hothers,
              key.expression.valueOn_eq clock ra evaluator hevaluator,
              key.expression.valueOn_eq clock rb evaluator hevaluator]
          -- For the keys after it, it is one more value of an earlier key.
          have hrest := ih hnative.2 (count + 1) later (earlier ++ [evaluator ra])
            (others ++ [evaluator rb]) hlater
            (by rw [List.length_append, hearlier, List.length_singleton])
            (by rw [List.length_append, hothers, List.length_singleton])
            (by rw [List.append_assoc]; exact ha) (by rw [List.append_assoc]; exact hb)
          rw [RowOrder.compareAll, hcompare, hrest, compareRows]

/-- The comparison of rows agrees with the order of what they are sorted by. -/
theorem compareRows_tells (ra rb : Rows) (keys : List SortKey)
    (hnative : ∀ key ∈ keys, key.isNative = false)
    (hkinds : ∀ x ∈ keys.flatMap SortKey.expressions, ∃ kind : SortKind,
      kind.Orders (x.valueOn clock ra) ∧ kind.Orders (x.valueOn clock rb)) :
    Tells (Precedes (keys.flatMap SortKey.directions))
      ((keys.flatMap SortKey.expressions).map (·.valueOn clock ra))
      ((keys.flatMap SortKey.expressions).map (·.valueOn clock rb))
      (compareRows clock keys ra rb) := by
  induction keys with
  | nil => rfl
  | cons key rest ih =>
      rw [List.forall_mem_cons] at hnative
      rw [List.flatMap_cons, List.forall_mem_append] at hkinds
      cases key with
      | native piece => exact absurd hnative.1 (by
          simp only [SortKey.isNative, reduceCtorEq, not_false_eq_true])
      | simple key =>
          rcases hkinds.1 key.expression (List.mem_singleton_self _) with ⟨kind, hra, hrb⟩
          exact tells_then (tells_reverse key.direction _ _ _ (sortOrder_tells kind _ _ hra hrb))
            (ih hnative.2 hkinds.2)

end Rows

end Polyquery
