import Polyquery.Proofs.Memory.Sums

/-!
# Parts of Texts

A part of a text is asked for by a position and a length, which may be any whole numbers of 64
signed bits. It consists of the characters with a position in a window of the integers, and
the window is not cut off by the range of the machine: where the end of the window does
not fit, it is held at the greatest number, and no text is long enough to have a character
there.

The slice is defined on integers. `slice?` is the same computation in machine words, in which
every result has to fit. That it always has one is the reason why the integers can stand for
the words.

## Main definitions

* `Scalar.window`: The characters of a text whose positions lie between two bounds.
* `Scalar.slice?`: The slice in machine words.

## Theorems

* `filter_zipIdx_eq`: The characters between two positions are next to each other.
* `slice_eq_window`: A slice is a window.
* `slice?_eq`: No step of a slice overflows.
* `substring_eq`: A part of a text is a slice.
* `substring_window`: The part of a text that a call yields.
-/

namespace Polyquery

namespace Scalar

/-- The characters of a text with a position from `start` up to, and not including, `stop`.
    Positions start with one. -/
def window (start stop : Int) (cs : List Char) : List Char :=
  ((cs.zipIdx 1).filter fun place => start ≤ place.2 ∧ place.2 < stop).map Prod.fst

/-- A signed word, unless the result of an operation does not fit into it. -/
def word? (n : Int) : Option Int :=
  if Fits n then some n else none

/-- A signed word as a count, which is an unsigned word. A negative number has none. -/
def count? (n : Int) : Option Nat :=
  if 0 ≤ n ∧ n < 2 ^ 64 then some n.toNat else none

/-- The slice in machine words. There is none if an operation overflows or a count is negative. -/
def slice? (start length : Int) (cs : List Char) : Option (List Char) := do
  let stop ← word? (saturatingSum start (max length 0))
  let first := max start 1
  if stop ≤ first then return []
  let skipped ← word? (first - 1) >>= count?
  let taken ← word? (stop - first) >>= count?
  return (cs.drop skipped).take taken

/-- The characters between two positions are next to each other, when positions start with any
    number. -/
theorem filter_zipIdx_eq (start stop : Int) (cs : List Char) (first : Nat) :
    ((cs.zipIdx first).filter fun place => start ≤ place.2 ∧ place.2 < stop).map Prod.fst =
      (cs.drop (start - first).toNat).take (stop - max start first).toNat := by
  induction cs generalizing first with
  | nil => simp
  | cons c rest ih =>
      rw [List.zipIdx_cons, List.filter_cons]
      -- The window has begun here, or this character is dropped in front of it.
      by_cases hstart : start ≤ first
      · have hdrop : (start - first).toNat = 0 := by omega
        have hdrop' : (start - (first + 1 : Nat)).toNat = 0 := by omega
        rw [hdrop, List.drop_zero]
        -- It has begun: the character is taken unless the window is over.
        by_cases hstop : (first : Int) < stop
        · have htake : (stop - max start first).toNat =
              (stop - max start (first + 1 : Nat)).toNat + 1 := by omega
          rw [if_pos (decide_eq_true ⟨hstart, hstop⟩), List.map_cons, ih, hdrop', List.drop_zero,
            htake, List.take_succ_cons]
        · have htake : (stop - max start first).toNat = 0 := by omega
          have htake' : (stop - max start (first + 1 : Nat)).toNat = 0 := by omega
          rw [if_neg fun h => hstop (of_decide_eq_true h).2, ih, htake, htake', List.take_zero,
            List.take_zero]
      · have hdrop : (start - first).toNat = (start - (first + 1 : Nat)).toNat + 1 := by omega
        have htake : max start (first : Int) = max start (first + 1 : Nat) := by omega
        rw [if_neg fun h => hstart (of_decide_eq_true h).1, ih, hdrop, htake, List.drop_succ_cons]

/-- A slice ends where its window does, except that no window ends behind the greatest number. -/
theorem slice_eq_filter (start length : Int) (cs : List Char) :
    slice start length cs = window start (saturatingSum start (max length 0)) cs := by
  have hskipped : (max start 1 - 1).toNat = (start - (1 : Nat)).toNat := by omega
  rw [slice, window, filter_zipIdx_eq, hskipped]
  rfl

/-- A slice of a text is a window, if the text has no character at the greatest position. -/
theorem slice_eq_window (start length : Int) (cs : List Char)
    (hlength : (cs.length : Int) < maxInt64) :
    slice start length cs = window start (start + max length 0) cs := by
  rw [slice_eq_filter, window, window]
  congr 1
  refine List.filter_congr fun place hplace => ?_
  have hbounds := List.mem_zipIdx hplace
  unfold maxInt64 at hlength
  unfold saturatingSum minInt64 maxInt64
  refine decide_eq_decide.mpr (and_congr_right fun _ => ?_)
  omega

/-- No step of a slice overflows, and no count is negative. -/
theorem slice?_eq (start length : Int) (hstart : Fits start) (cs : List Char) :
    slice? start length cs = some (slice start length cs) := by
  unfold Fits minInt64 maxInt64 at hstart
  -- The end saturates, so it is a 64-bit number.
  have hstop : Fits (saturatingSum start (max length 0)) := by
    unfold Fits saturatingSum minInt64 maxInt64
    omega
  rw [slice?, word?, if_pos hstop, Option.bind_eq_bind, Option.bind_some]
  unfold Fits minInt64 maxInt64 at hstop
  unfold slice
  generalize saturatingSum start (max length 0) = stop at *
  dsimp only
  split
  case isTrue hempty =>
    -- An end before the beginning leaves an empty window.
    have hnone : (stop - max start 1).toNat = 0 := by omega
    rw [hnone, List.take_zero]
    rfl
  case isFalse hsome =>
    -- Otherwise both differences are natural numbers that fit.
    have hskipped : Fits (max start 1 - 1) := by
      unfold Fits minInt64 maxInt64
      omega
    have htaken : Fits (stop - max start 1) := by
      unfold Fits minInt64 maxInt64
      omega
    have hskips : (word? (max start 1 - 1) >>= count?) = some (max start 1 - 1).toNat := by
      rw [word?, if_pos hskipped]
      exact if_pos (by omega)
    have htakes : (word? (stop - max start 1) >>= count?) = some (stop - max start 1).toNat := by
      rw [word?, if_pos htaken]
      exact if_pos (by omega)
    rw [hskips, htakes]
    rfl

/-- The part of a text at a position and of a length that are words. -/
theorem substring_eq (text : String) (start length : Json) (first count : Int)
    (hstart : start.toInt64? = some first) (hlength : length.toInt64? = some count) :
    substring (.string text) start length =
      .string (String.ofList (slice first count text.toList)) := by
  simp only [substring, hstart, hlength]

end Scalar

/-- The part of a text that a call yields, for every position and every length of 64 signed bits:
    the characters at the positions from the given one on, as many positions as the length
    says, none for a negative length. Positions count from one, so those before the text use
    up the length. No operation on the way overflows. -/
theorem substring_window (clock : Clock) (source start length : Argument)
    (hvalid : Expression.validArguments [source, start, length] = true) (label : Option String)
    (rows : Rows) (text : String) (first count : Int) (hfirst : Fits first) (hcount : Fits count)
    (hsource : source.valueOn clock rows = .string text)
    (hstart : start.valueOn clock rows = .ofInt first)
    (hlength : length.valueOn clock rows = .ofInt count)
    (hroom : (text.length : Int) < maxInt64) :
    (Expression.call .substring [source, start, length] label).valueOn clock rows =
      .string (String.ofList (Scalar.window first (first + max count 0) text.toList)) ∧
    Scalar.slice? first count text.toList =
      some (Scalar.window first (first + max count 0) text.toList) := by
  have hslice := Scalar.slice_eq_window first count text.toList hroom
  rw [← hslice]
  refine ⟨?_, Scalar.slice?_eq first count hfirst text.toList⟩
  rw [Expression.valueOn_call clock rfl (ternary_computes Scalar.substring) _ label
    (Bool.and_eq_true_iff.mpr ⟨rfl, hvalid⟩)]
  simp only [List.map_cons, List.map_nil, hsource, hstart, hlength]
  exact Scalar.substring_eq text _ _ first count (if_pos hfirst.2) (if_pos hcount.2)

/-- A part that begins before the text and one whose end does not fit into 64 signed bits. -/
theorem substring_window_sample :
    (Expression.call .substring [.expression (.property "s" none), .literal (.integer (-1)),
        .literal (.integer 4)] none).valueOn ⟨"", "", ""⟩ (.single [("s", .string "naïve")]) =
      .string "na" ∧
    (Expression.call .substring [.expression (.property "s" none), .literal (.integer 3),
        .literal (.integer maxInt64)] none).valueOn ⟨"", "", ""⟩
          (.single [("s", .string "naïve")]) = .string "ïve" := by
  have hwindow := substring_window ⟨"", "", ""⟩ (.expression (.property "s" none))
  constructor
  · exact (hwindow (.literal (.integer (-1))) (.literal (.integer 4)) rfl none (.single _) "naïve"
      (-1) 4 (by decide) (by decide) rfl rfl rfl (by decide)).1
  · exact (hwindow (.literal (.integer 3)) (.literal (.integer maxInt64)) rfl none (.single _)
      "naïve" 3 maxInt64 (by decide) (by decide) rfl rfl rfl (by decide)).1

end Polyquery
