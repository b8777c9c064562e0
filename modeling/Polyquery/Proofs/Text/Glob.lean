import Mathlib.Data.List.Infix
import Polyquery.Proofs.Text.Search

/-!
# Globs

The patterns of `LIKE` and the wildcard patterns are one language with two alphabets. A
pattern is read into symbols, and what the symbols match is a relation, in which a symbol
for any text takes as much as it likes. The relation is indifferent to how a matcher goes
about finding what each symbol takes. A matcher tries one possibility after the other, and
to show that it agrees with the relation is to show that it misses none (`matcher_iff`).

A pattern that ends in a backslash takes the meaning from a character that is not there.
Servers refuse it or guess at it, so it has no reading here. Whether a pattern can be read
is therefore part of whether it is right.

## Main definitions

* `Glob.Symbol`, `Glob.Alphabet`: What patterns are made of.
* `Glob.read?`: The symbols of a pattern.
* `Glob.Matches`: The texts that symbols match.

## Theorems

* `matches_any_iff`, `matches_one_iff`, `matches_letter_iff`: What one symbol matches.
* `read?_escaped`, `read?_surround`: An escaped text is read as its letters.
* `matcher_iff`: A matcher that misses nothing agrees with the relation.
-/

namespace Polyquery.Glob

/-- A symbol of a pattern. -/
inductive Symbol where
  /-- Any text. -/
  | any
  /-- Any character. -/
  | one
  | letter (c : Char)
  deriving Repr, DecidableEq

/-- The characters that stand for symbols other than themselves. -/
structure Alphabet where
  any : Char
  one : Char
  deriving Repr, DecidableEq

/-- The alphabet of `LIKE`. -/
def like : Alphabet := ⟨'%', '_'⟩

/-- The alphabet of wildcard patterns. -/
def wildcard : Alphabet := ⟨'*', '?'⟩

/-- The symbol that a character stands for. -/
def Alphabet.symbol (alphabet : Alphabet) (c : Char) : Symbol :=
  if c = alphabet.any then .any else if c = alphabet.one then .one else .letter c

/-- The symbols of a pattern. A character after a backslash stands for itself, and there has to
    be one. -/
def read? (alphabet : Alphabet) : List Char → Option (List Symbol)
  | [] => some []
  | ['\\'] => none
  | '\\' :: c :: rest => (read? alphabet rest).map (.letter c :: ·)
  | c :: rest => (read? alphabet rest).map (alphabet.symbol c :: ·)

/-- The texts that symbols match, one symbol after the other. -/
inductive Matches : List Symbol → List Char → Prop where
  | nil : Matches [] []
  | any (taken : List Char) (symbols : List Symbol) (text : List Char) (h : Matches symbols text) :
    Matches (.any :: symbols) (taken ++ text)
  | one (taken : Char) (symbols : List Symbol) (text : List Char) (h : Matches symbols text) :
    Matches (.one :: symbols) (taken :: text)
  | letter (c : Char) (symbols : List Symbol) (text : List Char) (h : Matches symbols text) :
    Matches (.letter c :: symbols) (c :: text)

section Symbols

variable (symbols : List Symbol) (text : List Char)

theorem matches_nil_iff : Matches [] text ↔ text = [] := by
  constructor
  · rintro ⟨⟩
    rfl
  · rintro rfl
    exact .nil

theorem matches_any_iff : Matches (.any :: symbols) text ↔
    ∃ rest, rest <:+ text ∧ Matches symbols rest := by
  constructor
  · intro h
    cases h with
    | any taken _ rest h => exact ⟨rest, List.suffix_append taken rest, h⟩
  · rintro ⟨rest, ⟨taken, rfl⟩, h⟩
    exact .any taken symbols rest h

theorem matches_one_iff : Matches (.one :: symbols) text ↔
    ∃ c rest, text = c :: rest ∧ Matches symbols rest := by
  constructor
  · intro h
    cases h with
    | one c _ rest h => exact ⟨c, rest, rfl, h⟩
  · rintro ⟨c, rest, rfl, h⟩
    exact .one c symbols rest h

theorem matches_letter_iff (c : Char) : Matches (.letter c :: symbols) text ↔
    ∃ rest, text = c :: rest ∧ Matches symbols rest := by
  constructor
  · intro h
    cases h with
    | letter _ _ rest h => exact ⟨rest, rfl, h⟩
  · rintro ⟨rest, rfl, h⟩
    exact .letter c symbols rest h

end Symbols

section Reading

variable (alphabet : Alphabet)

/-- A character other than a backslash is read by itself. -/
theorem read?_cons (c : Char) (rest : List Char) (h : c ≠ '\\') :
    read? alphabet (c :: rest) = (read? alphabet rest).map (alphabet.symbol c :: ·) := by
  rw [read?]
  · exact fun heq _ => h heq
  · exact fun d others heq _ => h heq

variable {escape : Char → List Char} (hescape : ∀ c, escape c =
  if c = alphabet.any ∨ c = alphabet.one ∨ c = '\\' then ['\\', c] else [c])

include hescape

/-- A text in which the characters with a meaning are escaped is read as its letters. -/
theorem read?_escaped (text rest : List Char) :
    read? alphabet (text.flatMap escape ++ rest) =
      (read? alphabet rest).map (text.map .letter ++ ·) := by
  induction text with
  | nil =>
      rw [List.flatMap_nil, List.nil_append]
      cases read? alphabet rest <;> rfl
  | cons c text ih =>
      -- An escaped character is read as itself, be it special or not.
      have hletter : read? alphabet (escape c ++ (text.flatMap escape ++ rest)) =
          (read? alphabet (text.flatMap escape ++ rest)).map (.letter c :: ·) := by
        rw [hescape]
        by_cases hspecial : c = alphabet.any ∨ c = alphabet.one ∨ c = '\\'
        · rw [if_pos hspecial]
          rfl
        · rw [if_neg hspecial]
          rw [not_or, not_or] at hspecial
          rw [List.singleton_append, read?_cons alphabet c _ hspecial.2.2, Alphabet.symbol,
            if_neg hspecial.1, if_neg hspecial.2.1]
      rw [List.flatMap_cons, List.append_assoc, hletter, ih, Option.map_map]
      rfl

/-- Of the pattern of an operator, only the signs that the operator puts around a text are read
    as more than letters. -/
theorem read?_surround (hany : alphabet.any ≠ '\\') (op : Operator) (text : List Char) :
    read? alphabet (op.surround alphabet.any (text.flatMap escape)) =
      some (op.surround .any (text.map .letter)) := by
  -- The sign for any text can stand in front of whatever is read.
  have hsign : ∀ rest symbols, read? alphabet rest = some symbols →
      read? alphabet (alphabet.any :: rest) = some (.any :: symbols) := by
    intro rest symbols hrest
    have hsymbol : alphabet.symbol alphabet.any = .any := if_pos rfl
    rw [read?_cons alphabet _ _ hany, hrest, hsymbol]
    rfl
  have hopen : read? alphabet (text.flatMap escape ++ [alphabet.any]) =
      some (text.map .letter ++ [.any]) := by
    rw [read?_escaped alphabet hescape, hsign [] [] rfl]
    rfl
  have hwhole : read? alphabet (text.flatMap escape) = some (text.map .letter) := by
    have hread := read?_escaped alphabet hescape text []
    rw [List.append_nil] at hread
    rw [hread]
    simp only [read?, Option.map_some, List.append_nil]
  -- Only the start of a text is without the sign in front, and only its end without the one behind.
  cases op
  case startsWith => exact hopen
  case endsWith => exact hsign _ _ hwhole
  all_goals exact hsign _ _ hopen

end Reading

/-- A matcher that knows what each symbol takes agrees with the relation on every pattern that
    can be read. -/
theorem matcher_iff (alphabet : Alphabet) (matcher : List Char → List Char → Bool)
    (hend : ∀ text, matcher [] text = text.isEmpty)
    (hany : ∀ pattern text, matcher (alphabet.any :: pattern) text = true ↔
      ∃ rest, rest <:+ text ∧ matcher pattern rest = true)
    (hone : ∀ pattern text, matcher (alphabet.one :: pattern) text = true ↔
      ∃ c rest, text = c :: rest ∧ matcher pattern rest = true)
    (hescaped : ∀ c pattern text, matcher ('\\' :: c :: pattern) text = true ↔
      ∃ rest, text = c :: rest ∧ matcher pattern rest = true)
    (hbare : ∀ c pattern text, c ≠ alphabet.any → c ≠ alphabet.one → c ≠ '\\' →
      (matcher (c :: pattern) text = true ↔
        ∃ rest, text = c :: rest ∧ matcher pattern rest = true))
    (pattern : List Char) (symbols : List Symbol) (hread : read? alphabet pattern = some symbols)
    (text : List Char) : matcher pattern text = true ↔ Matches symbols text := by
  -- The induction follows the reading, in which a backslash and what comes after it are one step.
  induction pattern using read?.induct generalizing symbols text with
  | case1 =>
      obtain rfl : [] = symbols := Option.some.inj hread
      rw [hend, List.isEmpty_iff, matches_nil_iff]
  | case2 =>
      -- A backslash at the end has no reading.
      exact absurd hread (by simp only [read?, reduceCtorEq, not_false_eq_true])
  | case3 c rest ih =>
      rw [read?, Option.map_eq_some_iff] at hread
      obtain ⟨symbols, hrest, rfl⟩ := hread
      simp only [hescaped, matches_letter_iff, ih symbols hrest]
  | case4 c rest hend' hslash ih =>
      have hc : c ≠ '\\' := by
        rintro rfl
        cases rest with
        | nil => exact hend' rfl rfl
        | cons d rest => exact hslash d rest rfl rfl
      rw [read?_cons alphabet c rest hc, Option.map_eq_some_iff] at hread
      obtain ⟨symbols, hrest, rfl⟩ := hread
      unfold Alphabet.symbol
      split
      next hsign =>
        subst hsign
        simp only [hany, matches_any_iff, ih symbols hrest]
      next hsign =>
        split
        next hsign' =>
          subst hsign'
          simp only [hone, matches_one_iff, ih symbols hrest]
        next hsign' =>
          simp only [hbare c rest text hsign hsign' hc, matches_letter_iff, ih symbols hrest]

end Polyquery.Glob
