import Polyquery.Proofs.Memory.Slices
import Polyquery.Proofs.Text.Search

/-!
# Positions of Texts in Texts

The position of a text in another one, the part of a text from a position on, and the length
of a text count characters, and so they fit together: the part that begins at the position
of a text and has its length is that text, and no part that begins earlier is.

A position goes into a part only as a number of 64 signed bits. This is no restriction on the
texts, because a text with as many characters has no room in a machine. In the other
direction nothing has to be asked: a part that is cut off, or that is null, is not the text
that is looked for.

## Theorems

* `Text.position?_eq_some_iff`: The position of a text is the first one.
* `slice_prefix`, `slice_of_prefix`: Slices as prefixes of what follows a position.
* `substring_eq_of_prefix`, `prefix_of_substring_eq`: Where the part of a text is a given text.
* `locate_first`: Positions, parts and lengths.
-/

namespace Polyquery

/-- The position of a text is one at which it occurs, and there is none before it. -/
theorem Text.position?_eq_some_iff (needle hay : List Char) (i : Nat) :
    Text.position? needle hay = some i ↔
      i ≤ hay.length ∧ needle <+: hay.drop i ∧ ∀ j < i, ¬ needle <+: hay.drop j := by
  induction hay generalizing i with
  | nil =>
      -- In the empty text only the empty one occurs, at its beginning.
      simp only [position?, List.length_nil, Nat.le_zero_eq, List.drop_nil, List.prefix_nil,
        List.isEmpty_iff]
      split
      case isTrue hempty =>
        simp only [Option.some.injEq, hempty, true_and, not_true_eq_false, imp_false, Nat.not_lt]
        constructor
        · rintro rfl
          exact ⟨rfl, Nat.zero_le⟩
        · rintro ⟨rfl, _⟩
          rfl
      case isFalse hsome => simp only [reduceCtorEq, hsome, false_and, and_false]
  | cons c rest ih =>
      rw [position?]
      by_cases hstart : needle.isPrefixOf (c :: rest) = true
      · rw [if_pos hstart, Option.some.injEq]
        -- It occurs right here, and there is no earlier position.
        have hhere : needle <+: (c :: rest).drop 0 := List.isPrefixOf_iff_prefix.mp hstart
        constructor
        · rintro rfl
          exact ⟨Nat.zero_le _, hhere, fun j hj => absurd hj (Nat.not_lt_zero j)⟩
        · rintro ⟨_, _, hfirst⟩
          by_contra hne
          exact hfirst 0 (Nat.pos_of_ne_zero (Ne.symm hne)) hhere
      · rw [if_neg hstart]
        -- It does not occur here, so its position is one behind that in the rest.
        have hnot : ¬ needle <+: (c :: rest).drop 0 := fun h =>
          hstart (List.isPrefixOf_iff_prefix.mpr h)
        cases i with
        | zero =>
            refine iff_of_false ?_ fun h => hnot h.2.1
            simp only [Option.map_eq_some_iff, Nat.add_eq_zero_iff, Nat.succ_ne_self, and_false,
              exists_false, not_false_eq_true]
        | succ i =>
            rw [Option.map_eq_some_iff]
            simp only [Nat.add_right_cancel_iff, exists_eq_right, ih, List.drop_succ_cons,
              List.length_cons, Nat.add_le_add_iff_right, Nat.forall_lt_succ_left, hnot,
              not_false_eq_true, true_and]

/-- There is no position exactly when the text does not occur. -/
theorem Text.position?_eq_none_iff (needle hay : List Char) :
    Text.position? needle hay = none ↔ ¬ needle <:+: hay := by
  rw [← Text.contains_iff, Text.contains, Bool.not_eq_true, Option.isSome_eq_false_iff,
    Option.isNone_iff_eq_none]

theorem toInt64?_ofNat (n : Nat) (h : (n : Int) ≤ maxInt64) :
    (Json.ofNat n).toInt64? = some (n : Int) :=
  if_pos h

namespace Scalar

theorem slice_prefix (start length : Int) (cs : List Char) (hstart : 1 ≤ start) :
    slice start length cs <+: cs.drop (start - 1).toNat := by
  rw [slice, Int.max_eq_left hstart]
  exact List.take_prefix _ _

/-- The slice where a text occurs, as long as that text, is the text. -/
theorem slice_of_prefix (needle hay : List Char) (i : Nat) (hi : i ≤ hay.length)
    (hoccurs : needle <+: hay.drop i) (hroom : (hay.length : Int) < maxInt64) :
    slice (i + 1 : Nat) needle.length hay = needle := by
  have hlength := hoccurs.length_le
  rw [List.length_drop] at hlength
  -- Nothing saturates: the end lies within the text, which is shorter than the largest number.
  have hstop : saturatingSum (i + 1 : Nat) (max (needle.length : Int) 0) =
      (i + 1 : Nat) + needle.length := by
    unfold maxInt64 at hroom
    unfold saturatingSum minInt64 maxInt64
    omega
  have hfirst : max ((i + 1 : Nat) : Int) 1 = (i + 1 : Nat) := by omega
  have hskipped : (((i + 1 : Nat) : Int) - 1).toNat = i := by omega
  have htaken : (((i + 1 : Nat) : Int) + needle.length - (i + 1 : Nat)).toNat =
      needle.length := by omega
  rw [slice, hstop, hfirst, hskipped, htaken]
  exact (List.prefix_iff_eq_take.mp hoccurs).symm

/-- The part of a text where another one occurs, with its length, is that text. -/
theorem substring_eq_of_prefix (needle hay : String) (i : Nat) (hi : i ≤ hay.length)
    (hoccurs : needle.toList <+: hay.toList.drop i) (hroom : (hay.length : Int) < maxInt64) :
    substring (.string hay) (.ofNat (i + 1)) (.ofNat needle.length) = .string needle := by
  have hlength := hoccurs.length_le
  rw [List.length_drop, String.length_toList, String.length_toList] at hlength
  have hstart := toInt64?_ofNat (i + 1) (by omega)
  have hcount := toInt64?_ofNat needle.length (by omega)
  have hslice := slice_of_prefix needle.toList hay.toList i (by rwa [String.length_toList]) hoccurs
    (by rwa [String.length_toList])
  rw [String.length_toList] at hslice
  rw [substring_eq hay _ _ _ _ hstart hcount, hslice, String.ofList_toList]

/-- Where the part of a text with the length of another one is the other one, that one occurs. -/
theorem prefix_of_substring_eq (needle hay : String) (start : Int) (hstart : 1 ≤ start)
    (length : Json)
    (h : substring (.string hay) (.ofInt start) length = .string needle) :
    needle.toList <+: hay.toList.drop (start - 1).toNat := by
  unfold substring at h
  split at h
  case h_1 s first count hs hfirst hcount =>
    obtain rfl : hay = s := Json.string.inj hs
    obtain rfl : start = first := by
      unfold Json.ofInt Json.toInt64? Number.toInt64? at hfirst
      exact (Option.ite_none_right_eq_some.mp hfirst).2 |> Option.some.inj
    rw [← Json.string.inj h, String.toList_ofList]
    exact slice_prefix start count hay.toList hstart
  case h_2 => cases h

end Scalar

/-- The position of a text in another one is zero if the text does not occur. Otherwise it is one
    of the positions up to the one behind the other text, the part that begins there and is as
    long as the text is that text, and no part of that length that begins earlier is. Positions
    and lengths count characters. -/
theorem locate_first (clock : Clock) (needle hay : Argument)
    (hvalid : Expression.validArguments [needle, hay] = true) (rows : Rows) (text whole : String)
    (hneedle : needle.valueOn clock rows = .string text)
    (hhay : hay.valueOn clock rows = .string whole) :
    ∃ p : Nat,
      (∀ label, (Expression.call .locate [needle, hay] label).valueOn clock rows = .ofNat p) ∧
      (∀ label, (Expression.call .length [needle] label).valueOn clock rows =
        .ofNat text.length) ∧
      (∀ label, (Expression.call .length [hay] label).valueOn clock rows = .ofNat whole.length) ∧
      (p = 0 ↔ ¬ text.toList <:+: whole.toList) ∧
      (p ≠ 0 → 1 ≤ p ∧ p ≤ whole.length + 1 ∧
        ∀ start length (q : Int) label, Expression.validArguments [hay, start, length] = true →
          start.valueOn clock rows = .ofInt q →
          length.valueOn clock rows = .ofNat text.length →
          (q = p → (whole.length : Int) < maxInt64 →
            (Expression.call .substring [hay, start, length] label).valueOn clock rows =
              .string text) ∧
          (1 ≤ q → q < p →
            (Expression.call .substring [hay, start, length] label).valueOn clock rows ≠
              .string text)) := by
  rcases validArguments_cons.mp hvalid with ⟨hfirst, hsecond⟩
  -- The calls mean the operations on texts, since the arguments are valid.
  have hlengthOf (a : Argument) (ha : Expression.validArguments [a] = true) (s : String)
      (hs : a.valueOn clock rows = .string s) (label : Option String) :
      (Expression.call .length [a] label).valueOn clock rows = .ofNat s.length := by
    rw [Expression.valueOn_call clock rfl (unary_computes _) _ label
      (Bool.and_eq_true_iff.mpr ⟨rfl, ha⟩), ← String.length_toList]
    simp only [List.map_cons, List.map_nil, hs, Scalar.onText]
  have hlocate (label : Option String) :
      (Expression.call .locate [needle, hay] label).valueOn clock rows =
        Scalar.locate (.string text) (.string whole) := by
    rw [Expression.valueOn_call clock rfl (binary_computes Scalar.locate) _ label
      (Bool.and_eq_true_iff.mpr ⟨rfl, hvalid⟩)]
    simp only [List.map_cons, List.map_nil, hneedle, hhay]
  have hpart (start length : Argument) (label : Option String)
      (h : Expression.validArguments [hay, start, length] = true) :
      (Expression.call .substring [hay, start, length] label).valueOn clock rows =
        Scalar.substring (.string whole) (start.valueOn clock rows)
          (length.valueOn clock rows) := by
    rw [Expression.valueOn_call clock rfl (ternary_computes Scalar.substring) _ label
      (Bool.and_eq_true_iff.mpr ⟨rfl, h⟩)]
    simp only [List.map_cons, List.map_nil, hhay]
  -- No position of the text is a zero; a position is counted from one.
  cases hposition : Text.position? text.toList whole.toList with
  | none =>
      refine ⟨0, fun label => ?_, hlengthOf needle hfirst text hneedle,
        hlengthOf hay hsecond whole hhay, ?_, fun h => absurd rfl h⟩
      · rw [hlocate, Scalar.locate, hposition]
      · exact iff_of_true rfl ((Text.position?_eq_none_iff _ _).mp hposition)
  | some i =>
      rcases (Text.position?_eq_some_iff _ _ i).mp hposition with ⟨hi, hoccurs, hnone⟩
      rw [String.length_toList] at hi
      refine ⟨i + 1, fun label => ?_, hlengthOf needle hfirst text hneedle,
        hlengthOf hay hsecond whole hhay, ?_, fun _ => ⟨Nat.le_add_left 1 i,
          Nat.add_le_add_right hi 1, fun start length q label h hstart hlength => ?_⟩⟩
      · rw [hlocate, Scalar.locate, hposition]
      · refine iff_of_false (Nat.succ_ne_zero i) fun h => ?_
        rw [(Text.position?_eq_none_iff _ _).mpr h] at hposition
        cases hposition
      · rw [hpart start length label h, hstart, hlength]
        constructor
        · rintro rfl hroom
          exact Scalar.substring_eq_of_prefix text whole i hi hoccurs hroom
        · intro hq hbefore hpartEq
          exact hnone (q - 1).toNat (by omega)
            (Scalar.prefix_of_substring_eq text whole q hq _ hpartEq)

/-- A text whose characters take up several bytes, in the middle of another one: its position,
    the part there, and the part before. -/
theorem locate_first_sample :
    ∃ p : Nat, p = 3 ∧
      (Expression.call .substring [.expression (.property "s" none), .literal (.integer p),
        .literal (.integer 2)] none).valueOn ⟨"", "", ""⟩ (.single [("s", .string "naïve")]) =
          .string "ïv" ∧
      (Expression.call .substring [.expression (.property "s" none), .literal (.integer 2),
        .literal (.integer 2)] none).valueOn ⟨"", "", ""⟩ (.single [("s", .string "naïve")]) ≠
          .string "ïv" := by
  rcases locate_first ⟨"", "", ""⟩ (.literal (.string "ïv")) (.expression (.property "s" none))
    rfl (.single [("s", .string "naïve")]) "ïv" "naïve" rfl rfl with
      ⟨p, hlocate, _, _, _, hparts⟩
  have hposition : p = 3 := by
    have hvalue : Json.ofNat 3 = .ofNat p := hlocate none
    injection hvalue with hnumber
    injection hnumber with hint
    exact (Int.ofNat.inj hint).symm
  obtain ⟨_, _, hparts⟩ := hparts (by omega)
  refine ⟨p, hposition, ?_, ?_⟩
  · exact (hparts (.literal (.integer p)) (.literal (.integer 2)) p none rfl rfl rfl).1 rfl
      (by decide)
  · exact (hparts (.literal (.integer 2)) (.literal (.integer 2)) 2 none rfl rfl rfl).2 (by decide)
      (by omega)

end Polyquery
