import Polyquery.Proofs.Json.Same
import Polyquery.Proofs.Memory.Evaluation

/-!
# Values of Proper Records

What can be written as JSON stays so. An expression reads values from records, and
what it makes of them it makes of texts, of whole numbers, and of floating-point
numbers that are replaced by null when they are not finite. No function makes an
object, so none can repeat a key.

The functions are gone through one by one, each as a function of values; what is
true of the expressions that are made of them is then a matter of `evaluator_has`.

## Main definitions

* `Rows.Proper`, `Evaluator.Keeps`: Proper records and what is proper on them.

## Theorems

* `proper_lookup`: The value at a path.
* `evaluationTable_keeps`, `evaluator_keeps`, `proper_valueOn`: The value of an
  expression.
-/

namespace Polyquery

/-- Records that can be written as JSON. -/
structure Rows.Proper (rows : Rows) : Prop where
  current : (Json.object rows.current).Proper
  group : ∀ record ∈ rows.group, (Json.object record).Proper

/-- What an evaluator yields on proper records is proper. -/
def Evaluator.Keeps (f : Evaluator) : Prop :=
  ∀ rows : Rows, rows.Proper → (f rows).Proper

theorem Rows.proper_single {record : Record} (h : (Json.object record).Proper) :
    (Rows.single record).Proper where
  current := h
  group := fun _ hother => List.mem_singleton.mp hother ▸ h

section Reading

theorem proper_get? {value inner : Json} {key : String} (h : value.Proper)
    (hinner : value.get? key = some inner) : inner.Proper := by
  cases h with
  | object members _ heach => exact heach _ (mem_of_lookup members key inner hinner)
  | _ => exact absurd hinner (by rintro ⟨⟩)

theorem proper_follow? (keys : List String) (value inner : Json) (h : value.Proper)
    (hinner : value.follow? keys = some inner) : inner.Proper := by
  induction keys generalizing value with
  | nil => exact Option.some.inj hinner ▸ h
  | cons key rest ih =>
      rw [Json.follow?] at hinner
      cases hnext : value.get? key with
      | none =>
          rw [hnext] at hinner
          exact absurd hinner (by rintro ⟨⟩)
      | some next =>
          rw [hnext] at hinner
          exact ih next (proper_get? h hnext) hinner

theorem proper_lookup (record : Record) (path : String) (h : (Json.object record).Proper) :
    (record.lookup path).Proper := by
  unfold Record.lookup
  cases hvalue : (Json.object record).follow? (Text.dotted path) with
  | none => exact .null
  | some value => exact proper_follow? _ _ value h hvalue

end Reading

section Values

theorem proper_ofFloat (x : Float) : (Json.ofFloat x).Proper := by
  unfold Json.ofFloat
  split
  case isTrue h => exact .float x h
  case isFalse => exact .null

theorem proper_literal (literal : Literal) : literal.toJson.Proper := by
  cases literal with
  | string s => exact .string s
  | integer n => exact .int n
  | float x => exact proper_ofFloat x
  | boolean b => exact .bool b

theorem proper_wholeOrNull (n : Int) : (Scalar.wholeOrNull n).Proper := by
  unfold Scalar.wholeOrNull
  split
  · exact .int n
  · exact .null

theorem proper_absolute (a : Json) : (Scalar.absolute a).Proper := by
  unfold Scalar.absolute
  split
  · exact proper_wholeOrNull _
  · exact proper_ofFloat _
  · exact .null

theorem proper_squareRoot (a : Json) : (Scalar.squareRoot a).Proper := by
  unfold Scalar.squareRoot
  split
  · split
    · exact proper_ofFloat _
    · exact .null
  · exact .null

theorem proper_modulo (a b : Json) : (Scalar.modulo a b).Proper := by
  unfold Scalar.modulo
  split
  · split
    · exact .null
    · exact .int _
  · split
    · split
      · exact .null
      · exact proper_ofFloat _
    · exact .null

theorem proper_concatenate (values : List Json) : (Scalar.concatenate values).Proper := by
  unfold Scalar.concatenate
  split
  · exact .string _
  · exact .null

theorem proper_onText (f : List Char → Json) (hf : ∀ cs, (f cs).Proper) (a : Json) :
    (Scalar.onText f a).Proper := by
  unfold Scalar.onText
  split
  · exact hf _
  · exact .null

theorem proper_substring (source start length : Json) :
    (Scalar.substring source start length).Proper := by
  unfold Scalar.substring
  split
  · exact .string _
  · exact .null

theorem proper_locate (needle hay : Json) : (Scalar.locate needle hay).Proper := by
  unfold Scalar.locate
  split
  · split
    · exact .int _
    · exact .int _
  · exact .null

theorem proper_firstPresent (values : List Json) (h : ∀ value ∈ values, value.Proper) :
    (Scalar.firstPresent values).Proper := by
  unfold Scalar.firstPresent
  cases hfound : values.find? fun value => !value.isNull with
  | none => exact .null
  | some value => exact h value (List.mem_of_find?_eq_some hfound)

theorem proper_nullIfEqual (a b : Json) (ha : a.Proper) : (Scalar.nullIfEqual a b).Proper := by
  unfold Scalar.nullIfEqual
  split
  · exact .null
  · exact ha

theorem proper_sum (values : List Json) : (Aggregate.sum values).Proper := by
  unfold Aggregate.sum
  split
  · exact .null
  · split
    · split
      · exact .int _
      · exact proper_ofFloat _
    · exact proper_ofFloat _

theorem proper_average (values : List Json) : (Aggregate.average values).Proper := by
  unfold Aggregate.average
  split
  · exact .null
  · exact proper_ofFloat _

theorem proper_extreme (wanted : Ordering) (values : List Json)
    (h : ∀ value ∈ values, value.Proper) : (Aggregate.extreme wanted values).Proper := by
  cases values with
  | nil => exact .null
  | cons first rest =>
      rw [List.forall_mem_cons] at h
      refine List.foldlRecOn rest _ h.1 fun best hbest value hvalue => ?_
      unfold Aggregate.better
      split
      · exact h.2 value hvalue
      · exact hbest

end Values

section Handlers

open Evaluator

theorem unary_keeps (f : Json → Json) (hf : ∀ a, a.Proper → (f a).Proper) :
    (unary f).Keeps Evaluator.Keeps := by
  intro function arguments e harguments h
  rcases bind_eq_ok.mp h with ⟨a, ha, h⟩
  rw [one_eq_ok.mp ha, List.forall_mem_singleton] at harguments
  rw [← Except.ok.inj h]
  exact fun rows hrows => hf _ (harguments rows hrows)

theorem binary_keeps (f : Json → Json → Json) (hf : ∀ a b, a.Proper → (f a b).Proper) :
    (binary f).Keeps Evaluator.Keeps := by
  intro function arguments e harguments h
  rcases bind_eq_ok.mp h with ⟨⟨a, b⟩, hab, h⟩
  rw [two_eq_ok.mp hab, List.forall_mem_cons] at harguments
  rw [← Except.ok.inj h]
  exact fun rows hrows => hf _ _ (harguments.1 rows hrows)

theorem ternary_keeps (f : Json → Json → Json → Json) (hf : ∀ a b c, (f a b c).Proper) :
    (ternary f).Keeps Evaluator.Keeps := by
  intro function arguments e _ h
  rcases bind_eq_ok.mp h with ⟨⟨a, b, c⟩, _, h⟩
  rw [← Except.ok.inj h]
  exact fun rows _ => hf _ _ _

theorem variadic_keeps (f : List Json → Json)
    (hf : ∀ values, (∀ value ∈ values, value.Proper) → (f values).Proper) :
    (variadic f).Keeps Evaluator.Keeps := by
  intro function arguments e harguments h
  rw [← Except.ok.inj h]
  intro rows hrows
  apply hf
  intro value hvalue
  rcases List.mem_map.mp hvalue with ⟨a, ha, rfl⟩
  exact harguments a ha rows hrows

theorem fixed_keeps (value : String) : (fixed value).Keeps Evaluator.Keeps := by
  intro function arguments e _ h
  rw [← Except.ok.inj h]
  exact fun _ _ => .string value

/-- An aggregate evaluates its argument on records of the group, each by itself. -/
theorem aggregate_keeps (reduce : List Json → Json)
    (hreduce : ∀ values, (∀ value ∈ values, value.Proper) → (reduce values).Proper) :
    (aggregate reduce).Keeps Evaluator.Keeps := by
  intro function arguments e harguments h
  rcases bind_eq_ok.mp h with ⟨a, ha, h⟩
  rw [one_eq_ok.mp ha, List.forall_mem_singleton] at harguments
  rw [← Except.ok.inj h]
  intro rows hrows
  apply hreduce
  intro value hvalue
  rcases List.mem_map.mp (List.mem_filter.mp hvalue).1 with ⟨record, hrecord, rfl⟩
  exact harguments _ (Rows.proper_single (hrows.group record hrecord))

/-- Every function keeps what can be written as JSON. -/
theorem evaluationTable_keeps (clock : Clock) :
    (evaluationTable clock).Keeps Evaluator.Keeps := by
  have hmapText : ∀ f a, (Scalar.mapText f a).Proper := fun f a =>
    proper_onText _ (fun _ => .string _) a
  apply keeps_of
  simp only [List.forall_mem_cons]
  refine ⟨?_, ?_, ?_, ?_, ?_, ?_, ?_, ?_, ?_, ?_, ?_, ?_, ?_, ?_, ?_, ?_, ?_, ?_, ?_, ?_, ?_, ?_,
    fun entry hentry => absurd hentry List.not_mem_nil⟩
  · exact unary_keeps _ fun a _ => proper_absolute a
  · exact unary_keeps _ fun a _ => proper_squareRoot a
  · exact binary_keeps _ fun a b _ => proper_modulo a b
  · exact variadic_keeps _ fun values _ => proper_concatenate values
  · exact ternary_keeps _ proper_substring
  · exact unary_keeps _ fun a _ => hmapText _ a
  · exact unary_keeps _ fun a _ => hmapText _ a
  · exact unary_keeps _ fun a _ => hmapText _ a
  · exact unary_keeps _ fun a _ => proper_onText _ (fun _ => .int _) a
  · exact binary_keeps _ fun a b _ => proper_locate a b
  · exact unary_keeps _ fun a _ => hmapText _ a
  · exact unary_keeps _ fun a _ => hmapText _ a
  · exact fixed_keeps _
  · exact fixed_keeps _
  · exact fixed_keeps _
  · exact variadic_keeps _ proper_firstPresent
  · exact binary_keeps _ proper_nullIfEqual
  · exact aggregate_keeps _ fun values _ => .int _
  · exact aggregate_keeps _ fun values _ => proper_sum values
  · exact aggregate_keeps _ fun values _ => proper_average values
  · exact aggregate_keeps _ (proper_extreme .lt)
  · exact aggregate_keeps _ (proper_extreme .gt)

end Handlers

section Expressions

variable (clock : Clock)

theorem evaluator_keeps (x : Expression) (f : Evaluator) (h : x.evaluator clock = .ok f) :
    f.Keeps := by
  have hereditary : Evaluator.Hereditary clock (fun _ => True) Evaluator.Keeps :=
    ⟨fun literal _ _ => proper_literal literal, fun entry hmem _ =>
      evaluationTable_keeps clock entry hmem⟩
  exact x.evaluator_has hereditary f (fun path _ rows hrows =>
    proper_lookup rows.current path hrows.current) (fun _ _ => trivial) h

theorem proper_valueOn (x : Expression) (rows : Rows) (hrows : rows.Proper) :
    (x.valueOn clock rows).Proper := by
  unfold Expression.valueOn
  split
  case h_1 f hf => exact evaluator_keeps clock x f hf rows hrows
  case h_2 => exact .null

end Expressions

end Polyquery
