import Polyquery.Proofs.Json.Grammar
import Polyquery.Shell.Brackets

/-!
# Brackets of a JSON Text

The scan of a text for open brackets knows nothing of values. It counts brackets outside strings
and follows strings by their quotation marks and backslashes. On a text of the grammar this is
enough: each value is passed on one level, which means that the scan comes back to where it was,
and that on the way the brackets open before the value stay open. An object is a value between
two brackets, so before its closing brace one more bracket is open.

What a reader of lines takes away from a text has no effect on the scan either. A carriage
return stands between tokens only, where it counts for nothing, and there are no backspaces.

## Main definitions

* `Scan.outside`: A scan outside strings.
* `Scan.Legible`: A text in which so many brackets stay open before each character.
* `Level`: A text that is passed on one level.
* `isIdle`: A character that counts for nothing outside strings.

## Theorems

* `legible_append`: Texts one after the other.
* `natAbs_depth_over`: How far the count of open brackets can get.
* `Level.append`, `Level.bracketed`: Texts on one level that are put together.
* `level_idle`, `level_string`: Tokens.
* `derives_level`: Every text of the grammar is passed on one level.
* `object_open`: Inside an object a bracket is open.
-/

namespace Polyquery.Shell

open Grammar

namespace Scan

/-- A scan outside strings. -/
def outside (depth : Int) : Scan :=
  ⟨depth, false, false⟩

/-- A scan inside a string, with no backslash before the next character. -/
def inside (depth : Int) : Scan :=
  ⟨depth, true, false⟩

/-- Before each character of a text at least so many brackets are open, and to read the text by
    lines takes away nothing that counts: there is no backspace, and a carriage return changes
    nothing. -/
def Legible (floor : Int) : Scan → List Char → Prop
  | _, [] => True
  | scan, c :: rest =>
    floor ≤ scan.depth ∧ c ≠ '\x08' ∧ (c = '\r' → scan.next c = scan) ∧
      Legible floor (scan.next c) rest

section Append

variable {floor : Int} {scan : Scan} {cs others : List Char}

theorem over_append (scan : Scan) (cs others : List Char) :
    scan.over (cs ++ others) = (scan.over cs).over others :=
  List.foldl_append

theorem legible_append :
    Legible floor scan (cs ++ others) ↔
      Legible floor scan cs ∧ Legible floor (scan.over cs) others := by
  induction cs generalizing scan with
  | nil => exact (iff_of_eq (true_and _)).symm
  | cons c rest ih =>
      rw [List.cons_append, Legible, Legible, ih]
      simp only [and_assoc]
      rfl

/-- The brackets that stay open are open before each character. -/
theorem Legible.floor_le {c : Char} (h : Legible floor scan (cs ++ c :: others)) :
    floor ≤ (scan.over cs).depth :=
  (legible_append.mp h).2.1

theorem Legible.no_backspace (h : Legible floor scan cs) : '\x08' ∉ cs := by
  induction cs generalizing scan with
  | nil => exact List.not_mem_nil
  | cons c rest ih =>
      rw [List.mem_cons, not_or]
      exact ⟨Ne.symm h.2.1, ih h.2.2.2⟩

theorem Legible.lower (h : Legible floor scan cs) {floor' : Int} (hfloor : floor' ≤ floor) :
    Legible floor' scan cs := by
  induction cs generalizing scan with
  | nil => trivial
  | cons c rest ih => exact ⟨Int.le_trans hfloor h.1, h.2.1, h.2.2.1, ih h.2.2.2⟩

/-- A character that changes nothing is passed. -/
theorem legible_cons (hfloor : floor ≤ scan.depth) {c : Char} (hc : c ≠ '\x08')
    (hnext : scan.next c = scan) (h : Legible floor scan cs) : Legible floor scan (c :: cs) :=
  ⟨hfloor, hc, fun _ => hnext, by rwa [hnext]⟩

end Append

/-- The count of open brackets is never farther from its start than the text is long, so a machine
    word that can hold the length of a text can hold every count on the way. -/
theorem natAbs_depth_over (scan : Scan) (cs : List Char) :
    ((scan.over cs).depth - scan.depth).natAbs ≤ cs.length := by
  induction cs generalizing scan with
  | nil =>
      rw [Scan.over, List.foldl_nil, Int.sub_self]
      exact Nat.le_refl 0
  | cons c rest ih =>
      have hstep : ((scan.next c).depth - scan.depth).natAbs ≤ 1 := by
        unfold next
        repeat' split
        all_goals try dsimp only
        all_goals omega
      have hrest := ih (scan.next c)
      rw [List.length_cons]
      show (((scan.next c).over rest).depth - scan.depth).natAbs ≤ rest.length + 1
      omega

/-- A line feed closes no bracket. -/
theorem depth_next_feed (scan : Scan) : (scan.next '\n').depth = scan.depth := by
  rcases scan with ⟨depth, inString, escaped⟩
  cases inString <;> cases escaped <;> rfl

end Scan

open Scan

/-- A text that is passed on one level: the scan comes back, and no bracket that was open is closed
    on the way. -/
structure Level (scan : Scan) (cs : List Char) : Prop where
  legible : Legible scan.depth scan cs
  back : scan.over cs = scan

namespace Level

variable {scan : Scan} {depth : Int} {cs others : List Char}

theorem nil : Level scan [] :=
  ⟨trivial, rfl⟩

theorem append (h : Level scan cs) (hothers : Level scan others) : Level scan (cs ++ others) :=
  ⟨legible_append.mpr ⟨h.legible, by rw [h.back]; exact hothers.legible⟩, by
    rw [over_append, h.back, hothers.back]⟩

theorem cons {c : Char} (hc : c ≠ '\x08') (hnext : scan.next c = scan) (h : Level scan cs) :
    Level scan (c :: cs) := by
  refine ⟨legible_cons (Int.le_refl _) hc hnext h.legible, ?_⟩
  show (scan.next c).over cs = scan
  rw [hnext, h.back]

/-- A backslash in a string and the character behind it are two steps that come back together. -/
theorem escaped {c : Char} (hbackspace : c ≠ '\x08') (hreturn : c ≠ '\r')
    (h : Level (inside depth) cs) : Level (inside depth) ('\\' :: c :: cs) :=
  ⟨⟨Int.le_refl _, by decide, fun h => absurd h (by decide), Int.le_refl _, hbackspace,
    fun h => absurd h hreturn, h.legible⟩, h.back⟩

/-- A text between two brackets, with the text itself one level above. -/
theorem bracketed {opening closing : Char} (hopening : opening = '\x7b' ∨ opening = '[')
    (hclosing : closing = '\x7d' ∨ closing = ']') (h : Level (outside (depth + 1)) cs) :
    Level (outside depth) (opening :: (cs ++ [closing])) := by
  -- The opening bracket goes one deeper, and the closing one comes back.
  have hopen : (outside depth).next opening = outside (depth + 1) := by
    rcases hopening with rfl | rfl <;> rfl
  have hclose : (outside (depth + 1)).next closing = outside depth := by
    rcases hclosing with rfl | rfl <;>
      exact congrArg outside (Int.add_sub_cancel depth 1)
  have hinner : Legible depth (outside (depth + 1)) cs :=
    h.legible.lower (Int.le_add_one (Int.le_refl _))
  refine ⟨⟨Int.le_refl _, ?_, ?_, ?_⟩, ?_⟩
  · rcases hopening with rfl | rfl <;> decide
  · rcases hopening with rfl | rfl <;> exact fun hreturn => absurd hreturn (by decide)
  · rw [hopen, legible_append, h.back]
    refine ⟨hinner, Int.le_add_one (Int.le_refl _), ?_, ?_, trivial⟩
    · rcases hclosing with rfl | rfl <;> decide
    · rcases hclosing with rfl | rfl <;> exact fun hreturn => absurd hreturn (by decide)
  · show ((outside depth).next opening).over (cs ++ [closing]) = outside depth
    rw [hopen, over_append, h.back]
    exact hclose

end Level

section Tokens

variable (depth : Int)

/-- The characters that count outside strings, to the scan or, like the backspace, to a reader of
    lines. -/
def counting : List Char :=
  ['\x08', '"', '\x7b', '[', '\x7d', ']']

/-- Whether a character counts for nothing outside strings. -/
def isIdle (c : Char) : Bool :=
  !counting.contains c

theorem next_idle {c : Char} (h : isIdle c = true) : (outside depth).next c = outside depth := by
  simp only [isIdle, Bool.not_eq_true', ← Bool.not_eq_true, List.contains_iff_mem, counting,
    List.mem_cons, List.not_mem_nil, or_false, not_or] at h
  simp only [next, outside, Bool.false_eq_true, if_false, h, or_self]

/-- Inside a string only quotation marks and backslashes count. -/
theorem next_inside {c : Char} (hquote : c ≠ '"') (hslash : c ≠ '\\') :
    (inside depth).next c = inside depth := by
  simp only [next, inside, Bool.false_eq_true, if_false, if_true, hquote, hslash]

theorem level_idle {cs : List Char} (h : cs.all isIdle = true) : Level (outside depth) cs := by
  induction cs with
  | nil => exact .nil
  | cons c rest ih =>
      rw [List.all_cons, Bool.and_eq_true] at h
      refine (ih h.2).cons ?_ (next_idle depth h.1)
      rintro rfl
      exact absurd h.1 (by decide)

/-- What none of the characters that count has is had by idle characters only. -/
theorem all_idle {p : Char → Bool} (hnone : counting.any p = false) {cs : List Char}
    (h : ∀ c ∈ cs, p c = true) : cs.all isIdle = true := by
  rw [List.all_eq_true]
  intro c hc
  rw [isIdle, Bool.not_eq_true', ← Bool.not_eq_true, List.contains_iff_mem]
  exact fun hcounts => List.any_eq_false.mp hnone c hcounts (h c hc)

theorem idle_digits {cs : List Char} (h : Digits cs) : cs.all isIdle = true :=
  all_idle (by decide) h.2

theorem idle_numeral {cs : List Char} (h : Numeral cs) : cs.all isIdle = true := by
  cases h with
  | parts sign whole fraction exponent hsign hwhole hzero hfraction hexponent =>
      have hsign : sign.all isIdle = true := by
        rcases hsign with rfl | rfl <;> rfl
      have hfraction : fraction.all isIdle = true := by
        cases hfraction with
        | none => rfl
        | some digits h =>
            rw [List.all_cons, idle_digits h]
            rfl
      have hexponent : exponent.all isIdle = true := by
        cases hexponent with
        | none => rfl
        | some letter sign digits hletter hsign h =>
            rw [List.all_cons, List.all_append, idle_digits h]
            rcases hletter with rfl | rfl <;> rcases hsign with rfl | rfl | rfl <;> rfl
      -- No part of a numeral holds a quote, a backslash or a bracket.
      simp only [List.all_append, hsign, idle_digits hwhole, hfraction, hexponent, Bool.and_self]

theorem level_blank {cs : List Char} (h : Blank cs) : Level (outside depth) cs :=
  level_idle depth (all_idle (by decide) h)

/-- The body of a string keeps the scan inside the string. -/
theorem level_body {body : List Char} (h : StringBody body) : Level (inside depth) body := by
  induction h with
  | nil => exact .nil
  | plain c rest hquote hslash hcontrol _ ih =>
      refine ih.cons ?_ (next_inside depth hquote hslash)
      rintro rfl
      exact absurd hcontrol (by decide)
  | escape c rest hc _ ih =>
      refine ih.escaped ?_ ?_ <;> (rintro rfl; exact absurd hc (by decide))
  | hex digits rest hlength hdigits _ ih =>
      refine Level.escaped (by decide) (by decide) ?_
      -- The digits count for nothing, however many there are.
      clear hlength
      induction digits with
      | nil => exact ih
      | cons d digits ihdigits =>
          rw [List.forall_mem_cons] at hdigits
          refine (ihdigits hdigits.2).cons ?_ (next_inside depth ?_ ?_) <;>
            (rintro rfl; exact absurd hdigits.1 (by decide))

theorem level_string {body rest : List Char} (h : StringBody body)
    (hrest : Level (outside depth) rest) :
    Level (outside depth) ('"' :: (body ++ '"' :: rest)) := by
  have hbody := level_body depth h
  have hopen : (outside depth).next '"' = inside depth := rfl
  have hclose : (inside depth).next '"' = outside depth := rfl
  constructor
  · refine ⟨Int.le_refl _, by decide, fun h => absurd h (by decide), ?_⟩
    rw [hopen, legible_append, hbody.back]
    refine ⟨hbody.legible, Int.le_refl _, by decide, fun h => absurd h (by decide), ?_⟩
    rw [hclose]
    exact hrest.legible
  · show ((outside depth).next '"').over (body ++ '"' :: rest) = outside depth
    rw [hopen, over_append, hbody.back]
    exact hrest.back

end Tokens

/-- Every text of the grammar is passed on one level. -/
theorem derives_level {symbol : Symbol} {cs : List Char} (h : Derives symbol cs) (depth : Int) :
    Level (outside depth) cs := by
  -- Only arrays and objects change the depth, and they come back to where they began.
  induction h generalizing depth with
  | null => exact level_idle depth rfl
  | yes => exact level_idle depth rfl
  | no => exact level_idle depth rfl
  | number cs h => exact level_idle depth (idle_numeral h)
  | string body h => exact level_string depth h .nil
  | emptyArray blank h => exact (level_blank (depth + 1) h).bracketed (.inr rfl) (.inr rfl)
  | array items _ ih => exact (ih (depth + 1)).bracketed (.inr rfl) (.inr rfl)
  | object cs _ ih => exact ih depth
  | emptyObject blank h => exact (level_blank (depth + 1) h).bracketed (.inl rfl) (.inl rfl)
  | fullObject members _ ih => exact (ih (depth + 1)).bracketed (.inl rfl) (.inl rfl)
  | item before value after hbefore _ hafter ih =>
      exact (level_blank depth hbefore).append ((ih depth).append (level_blank depth hafter))
  | lastItem item _ ih => exact ih depth
  | nextItem item rest _ _ ih ihrest =>
      exact (ih depth).append ((ihrest depth).cons (by decide) rfl)
  | member before key after item hbefore hkey hafter _ ih =>
      refine (level_blank depth hbefore).append (level_string depth hkey ?_)
      exact (level_blank depth hafter).append ((ih depth).cons (by decide) rfl)
  | lastMember member _ ih => exact ih depth
  | nextMember member rest _ _ ih ihrest =>
      exact (ih depth).append ((ihrest depth).cons (by decide) rfl)

/-- The text of an object begins with a brace, behind which one bracket is open until the last
    character. -/
theorem object_open {cs : List Char} (h : Derives .object cs) :
    ∃ inner, cs = '\x7b' :: inner ∧ Legible 1 (outside 1) inner := by
  have hclosed {inner : List Char} (hinner : Level (outside 1) inner) :
      Legible 1 (outside 1) (inner ++ ['\x7d']) :=
    legible_append.mpr ⟨hinner.legible, by
      rw [hinner.back]
      exact ⟨Int.le_refl _, by decide, fun h => absurd h (by decide), trivial⟩⟩
  cases h with
  | emptyObject blank h => exact ⟨_, rfl, hclosed (level_blank 1 h)⟩
  | fullObject members h => exact ⟨_, rfl, hclosed (derives_level h 1)⟩

end Polyquery.Shell
