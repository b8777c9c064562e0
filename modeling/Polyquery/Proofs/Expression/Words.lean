import Polyquery.Proofs.Expression.Text

/-!
# Where the Parts of Expression Strings End

An expression string does not say where its parts end. What can be told from it is shown
here for words and constants, and in a form that can be used where more text comes behind
them: if two texts are the same, and a word or a constant stands at the beginning of each,
these are the same and so is what comes behind them.

A word goes as far as there are letters of words. A string goes up to a quote that is not
followed by another one, whatever else is in it. A constant in front of a comma, a bracket or
nothing is a string if it starts with a quote, a truth value if it starts with a letter, and
otherwise a whole number. Floating-point numbers are left out. Those without a fraction are
written like whole ones.

## Main definitions

* `Text.EndsWord`: What comes behind a word.
* `Text.Wordlike`: The constants that are written as words.

## Theorems

* `word_cut`, `string_cut`, `literal_cut`: Words, strings and constants.
* `string_ne_word`, `intText_ne_boolean`: What cannot be taken for each other.
* `intText_injective`: Whole numbers are written differently.
* `dottedIdentifier_starts`, `name_starts`: Paths and names of functions start with a
  letter.
-/

namespace Polyquery

namespace Text

/-- What comes behind a word: nothing, or a character that is not in a word. -/
def EndsWord (rest : List Char) : Prop :=
  ∀ c ∈ rest.head?, isWordChar c = false

theorem Closes.endsWord {rest : List Char} (h : Closes rest) : EndsWord rest := by
  rcases h with rfl | ⟨c, more, rfl, rfl | rfl⟩
  · rintro c ⟨⟩
  all_goals
    intro c hc
    rw [← Option.some.inj hc]
    decide

theorem Closes.head_ne {rest : List Char} (h : Closes rest) : rest.head? ≠ some '\'' := by
  intro hquote
  rcases h with rfl | ⟨c, more, rfl, rfl | rfl⟩
  · cases hquote
  all_goals exact absurd (Option.some.inj hquote) (by decide)

theorem not_closes_bracket (rest : List Char) : ¬ Closes ('(' :: rest) := by
  rintro (hnil | ⟨c, more, hcons, rfl | rfl⟩)
  · exact absurd hnil (List.cons_ne_nil _ _)
  all_goals exact absurd (List.cons.inj hcons).1 (by decide)

theorem endsWord_bracket (rest : List Char) : EndsWord ('(' :: rest) := by
  intro c hc
  rw [← Option.some.inj hc]
  decide

theorem takeWhile_word (cs rest : List Char) (hword : ∀ c ∈ cs, isWordChar c = true)
    (hrest : EndsWord rest) : (cs ++ rest).takeWhile isWordChar = cs := by
  rw [List.takeWhile_append_of_pos hword]
  cases rest with
  | nil => exact List.append_nil cs
  | cons c rest =>
      rw [List.takeWhile_cons_of_neg (Bool.eq_false_iff.mp (hrest c rfl)), List.append_nil]

/-- Where a word ends can be seen from what comes behind it. -/
theorem word_cut {as bs us vs : List Char} (has : ∀ c ∈ as, isWordChar c = true)
    (hbs : ∀ c ∈ bs, isWordChar c = true) (hus : EndsWord us) (hvs : EndsWord vs)
    (h : as ++ us = bs ++ vs) : as = bs ∧ us = vs := by
  have hword : as = bs := by
    rw [← takeWhile_word as us has hus, h, takeWhile_word bs vs hbs hvs]
  rw [hword] at h
  exact ⟨hword, List.append_cancel_left h⟩

/-- A string ends at the first quote behind which there is no other one. -/
theorem string_cut (s t : List Char) {us vs : List Char} (hus : us.head? ≠ some '\'')
    (hvs : vs.head? ≠ some '\'')
    (h : s.flatMap doubled ++ '\'' :: us = t.flatMap doubled ++ '\'' :: vs) :
    s = t ∧ us = vs := by
  induction s generalizing t with
  | nil =>
      cases t with
      | nil => exact ⟨rfl, (List.cons.inj h).2⟩
      | cons d t =>
          -- The first string ends here, and the second goes on.
          rw [List.flatMap_cons, doubled] at h
          by_cases hd : d = '\''
          · -- The quote that ends the first string is followed by the second half of a doubled one.
            rw [if_pos hd] at h
            rw [(List.cons.inj h).2] at hus
            exact absurd rfl hus
          · rw [if_neg hd] at h
            exact absurd (List.cons.inj h).1.symm hd
  | cons c s ih =>
      cases t with
      | nil =>
          -- The second string ends here, and the first goes on.
          rw [List.flatMap_cons, doubled] at h
          by_cases hc : c = '\''
          · rw [if_pos hc] at h
            rw [← (List.cons.inj h).2] at hvs
            exact absurd rfl hvs
          · rw [if_neg hc] at h
            exact absurd (List.cons.inj h).1 hc
      | cons d t =>
          rw [List.flatMap_cons, List.flatMap_cons, List.append_assoc, List.append_assoc,
            doubled, doubled] at h
          -- Both go on: a quote is doubled in both of them or in neither.
          by_cases hc : c = '\'' <;> by_cases hd : d = '\''
          · rw [if_pos hc, if_pos hd] at h
            rcases ih t (List.append_cancel_left h) with ⟨hrest, hbehind⟩
            exact ⟨by rw [hc, hd, hrest], hbehind⟩
          · rw [if_pos hc, if_neg hd] at h
            exact absurd (List.cons.inj h).1.symm hd
          · rw [if_neg hc, if_pos hd] at h
            exact absurd (List.cons.inj h).1 hc
          · rw [if_neg hc, if_neg hd] at h
            rcases ih t (List.cons.inj h).2 with ⟨hrest, hbehind⟩
            exact ⟨by rw [(List.cons.inj h).1, hrest], hbehind⟩

/-- A string is no word. -/
theorem string_ne_word (s : String) {word us vs : List Char} (hne : word ≠ [])
    (hword : ∀ c ∈ word, isWordChar c = true) :
    (Literal.text (.string s)).toList ++ us ≠ word ++ vs := by
  intro h
  rw [string_text] at h
  rcases List.exists_cons_of_ne_nil hne with ⟨c, rest, rfl⟩
  have hquote := hword c List.mem_cons_self
  rw [← (List.cons.inj h).1] at hquote
  exact absurd hquote (by decide)

section Constants

theorem natText_starts (n : Nat) :
    ∃ c rest, (toString n).toList = c :: rest ∧ c.isDigit = true := by
  have hdigits : (toString n).toList = Nat.toDigits 10 n := Nat.toList_repr
  rw [hdigits]
  rcases List.exists_cons_of_ne_nil (Nat.toDigits_ne_nil (n := n) (b := 10)) with ⟨c, rest, hcons⟩
  have hmem : c ∈ Nat.toDigits 10 n := by
    rw [hcons]
    exact List.mem_cons_self
  exact ⟨c, rest, hcons, Nat.isDigit_of_mem_toDigits (by decide) (by decide) hmem⟩

theorem isLetter_of_digit {c : Char} (h : c.isDigit = true) : isLetter c = false := by
  have hdigits : ∀ n ≤ 57, 48 ≤ n → isLetter (Char.ofNat n) = false := by decide
  have hrange : 48 ≤ c.toNat ∧ c.toNat ≤ 57 := Char.isDigit_iff_toNat.mp h
  rw [← Char.ofNat_toNat c]
  exact hdigits c.toNat hrange.2 hrange.1

/-- A whole number does not start with a letter. -/
theorem intText_starts (n : Int) :
    ∃ c rest, (toString n).toList = c :: rest ∧ isLetter c = false := by
  cases n with
  | ofNat n =>
      rcases natText_starts n with ⟨c, rest, htext, hdigit⟩
      exact ⟨c, rest, htext, isLetter_of_digit hdigit⟩
  | negSucc n => exact ⟨'-', _, intText_negSucc n, by decide⟩

theorem natText_ne_negSucc (i j : Nat) :
    (toString i).toList ≠ (toString (Int.negSucc j)).toList := by
  intro h
  rcases natText_starts i with ⟨c, rest, htext, hdigit⟩
  rw [htext, intText_negSucc] at h
  rw [(List.cons.inj h).1] at hdigit
  exact absurd hdigit (by decide)

theorem intText_injective (i j : Int) (h : (toString i).toList = (toString j).toList) : i = j := by
  cases i with
  | ofNat i =>
      cases j with
      | ofNat j => rw [natText_injective i j (String.toList_injective h)]
      | negSucc j => exact absurd h (natText_ne_negSucc i j)
  | negSucc i =>
      cases j with
      | ofNat j => exact absurd h.symm (natText_ne_negSucc j i)
      | negSucc j =>
          rw [intText_negSucc, intText_negSucc] at h
          have hnext := natText_injective _ _ (String.toList_injective (List.cons.inj h).2)
          rw [Nat.succ.inj hnext]

/-- The constants that are written as words, apart from floating-point numbers. -/
inductive Wordlike : Literal → Prop where
  | integer (n : Int) : Wordlike (.integer n)
  | boolean (b : Bool) : Wordlike (.boolean b)

theorem wordlike_or_string (literal : Literal) (hfloat : ∀ x, literal ≠ .float x) :
    Wordlike literal ∨ ∃ s, literal = .string s := by
  cases literal with
  | string s => exact .inr ⟨s, rfl⟩
  | integer n => exact .inl (.integer n)
  | float x => exact absurd rfl (hfloat x)
  | boolean b => exact .inl (.boolean b)

theorem Wordlike.word {literal : Literal} (h : Wordlike literal) :
    literal.text.toList ≠ [] ∧ ∀ c ∈ literal.text.toList, isWordChar c = true := by
  cases h with
  | integer n =>
      rcases intText_starts n with ⟨c, rest, htext, _⟩
      refine ⟨?_, intText_words n⟩
      change (toString n).toList ≠ []
      rw [htext]
      exact List.cons_ne_nil c rest
  | boolean b => cases b <;> exact ⟨List.cons_ne_nil _ _, word_of_all rfl⟩

/-- A whole number is no truth value. -/
theorem intText_ne_boolean (n : Int) (b : Bool) :
    (Literal.text (.integer n)).toList ≠ (Literal.text (.boolean b)).toList := by
  intro h
  rcases intText_starts n with ⟨c, rest, htext, hletter⟩
  have hword : c :: rest = (Literal.text (.boolean b)).toList := htext.symm.trans h
  cases b <;>
    · rw [(List.cons.inj hword).1] at hletter
      exact absurd hletter (by decide)

theorem Wordlike.injective {a b : Literal} (ha : Wordlike a) (hb : Wordlike b)
    (h : a.text.toList = b.text.toList) : a = b := by
  cases ha with
  | integer i =>
      cases hb with
      | integer j => rw [intText_injective i j h]
      | boolean b => exact absurd h (intText_ne_boolean i b)
  | boolean a =>
      cases hb with
      | integer j => exact absurd h.symm (intText_ne_boolean j a)
      | boolean b =>
          revert h
          cases a <;> cases b <;> decide

/-- A constant can be told from its text and what comes behind it. -/
theorem literal_cut (a b : Literal) (ha : ∀ x, a ≠ .float x) (hb : ∀ x, b ≠ .float x)
    {us vs : List Char} (hus : Closes us) (hvs : Closes vs)
    (h : a.text.toList ++ us = b.text.toList ++ vs) : a = b ∧ us = vs := by
  rcases wordlike_or_string a ha with haword | ⟨s, rfl⟩
  · rcases wordlike_or_string b hb with hbword | ⟨t, rfl⟩
    · rcases word_cut haword.word.2 hbword.word.2 hus.endsWord hvs.endsWord h with
        ⟨htext, hbehind⟩
      exact ⟨haword.injective hbword htext, hbehind⟩
    · exact absurd h.symm (string_ne_word t haword.word.1 haword.word.2)
  · rcases wordlike_or_string b hb with hbword | ⟨t, rfl⟩
    · exact absurd h (string_ne_word s hbword.word.1 hbword.word.2)
    · rw [string_text, string_text] at h
      rcases string_cut s.toList t.toList hus.head_ne hvs.head_ne (List.cons.inj h).2 with
        ⟨hsame, hbehind⟩
      exact ⟨by rw [String.toList_injective hsame], hbehind⟩

end Constants

/-- A path of identifiers starts with a letter. -/
theorem dottedIdentifier_starts (path : String) (h : isDottedIdentifier path = true) :
    ∃ c rest, path.toList = c :: rest ∧ isLetter c = true := by
  unfold isDottedIdentifier dotted at h
  rw [List.all_map, List.all_eq_true] at h
  cases hpath : path.toList with
  | nil =>
      rw [hpath] at h
      exact absurd (h [] List.mem_cons_self) (by decide)
  | cons c rest =>
      refine ⟨c, rest, rfl, ?_⟩
      rw [hpath, splitOn] at h
      rcases List.exists_cons_of_ne_nil (splitOn_ne_nil '.' rest) with ⟨piece, pieces, hsplit⟩
      rw [hsplit] at h
      dsimp only at h
      by_cases hpoint : c = '.'
      · -- The first identifier would be empty.
        rw [if_pos hpoint] at h
        exact absurd (h [] List.mem_cons_self) (by decide)
      · rw [if_neg hpoint] at h
        have hfirst := h (c :: piece) List.mem_cons_self
        simp only [Function.comp_apply, isIdentifier, String.toList_ofList,
          Bool.and_eq_true] at hfirst
        exact hfirst.1

/-- A name of a function starts with a letter. -/
theorem name_starts (function : Function) :
    ∃ c rest, function.name.toList = c :: rest ∧ isLetter c = true := by
  cases function <;> exact ⟨_, _, rfl, by decide⟩

end Text

end Polyquery
