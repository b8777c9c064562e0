import Mathlib.Data.List.Infix
import Polyquery.Proofs.Text.Search
import Polyquery.Sql.Filter

/-!
# Patterns of `LIKE`

What a pattern of `LIKE` matches, and that the patterns of the pattern
operators match the texts they are meant for.

In a pattern a percent sign stands for any text and an underscore for any
character; a backslash takes these meanings away from the character after it.
`likeMatches` is this rule, for all patterns and not only for those that
queries are compiled to. A text that has been escaped matches itself and
nothing else, whatever signs it is made of (`likeMatches_escaped`), so only
the percent signs that an operator puts around it count as such.

## Main definitions

* `Sql.likeMatches`: Whether a text matches a pattern.

## Theorems

* `likeMatches_escapePattern`, `likeMatches_escaped`: An escaped text matches
  itself.
* `likeMatches_percent`: A percent sign matches any text.
* `likeMatches_likePattern`: The patterns of the pattern operators.
-/

namespace Polyquery.Sql

/-- Whether a text begins with a character and its rest passes a test. -/
def beginsWith (c : Char) (passes : List Char → Bool) : List Char → Bool
  | [] => false
  | d :: rest => d == c && passes rest

/-- Whether a text matches a pattern. A backslash that is the last character of a
    pattern stands for itself. -/
def likeMatches : List Char → List Char → Bool
  | [], text => text.isEmpty
  | '%' :: pattern, text => text.tails.any (likeMatches pattern)
  | '_' :: pattern, text =>
    match text with
    | [] => false
    | _ :: rest => likeMatches pattern rest
  | '\\' :: c :: pattern, text => beginsWith c (likeMatches pattern) text
  | c :: pattern, text => beginsWith c (likeMatches pattern) text

/-- A percent sign matches any text, so the rest of the pattern may begin anywhere. -/
theorem likeMatches_percent (pattern text : List Char) :
    likeMatches ('%' :: pattern) text = true ↔
      ∃ rest, rest <:+ text ∧ likeMatches pattern rest = true := by
  simp only [likeMatches, List.any_eq_true, List.mem_tails]

/-- A character that has been escaped matches itself. -/
theorem likeMatches_escapePattern (c : Char) (pattern text : List Char) :
    likeMatches (escapePattern c ++ pattern) text = beginsWith c (likeMatches pattern) text := by
  unfold escapePattern
  by_cases hspecial : c = '%' ∨ c = '_' ∨ c = '\\'
  · rw [if_pos hspecial]
    rfl
  · rw [if_neg hspecial]
    have hpercent : c ≠ '%' := fun heq => hspecial (.inl heq)
    have hunderscore : c ≠ '_' := fun heq => hspecial (.inr (.inl heq))
    have hbackslash : c ≠ '\\' := fun heq => hspecial (.inr (.inr heq))
    rw [List.singleton_append, likeMatches]
    · exact hpercent
    · exact hunderscore
    · intro d rest heq
      exact absurd heq hbackslash

/-- A text that has been escaped matches itself and nothing else. -/
theorem likeMatches_escaped (literal pattern text : List Char) :
    likeMatches (literal.flatMap escapePattern ++ pattern) text = true ↔
      ∃ rest, text = literal ++ rest ∧ likeMatches pattern rest = true := by
  -- An escaped character matches itself and nothing else, one after the other.
  induction literal generalizing text with
  | nil =>
      rw [List.flatMap_nil, List.nil_append]
      constructor
      · intro h
        exact ⟨text, rfl, h⟩
      · rintro ⟨rest, heq, h⟩
        rw [heq]
        exact h
  | cons c literal ih =>
      rw [List.flatMap_cons, List.append_assoc, likeMatches_escapePattern]
      cases text with
      | nil =>
          simp only [beginsWith, Bool.false_eq_true, List.cons_append, false_iff]
          rintro ⟨rest, heq, _⟩
          exact absurd heq.symm (List.cons_ne_nil _ _)
      | cons d text =>
          simp only [beginsWith, Bool.and_eq_true, beq_iff_eq, List.cons_append, List.cons.injEq]
          rw [ih text]
          constructor
          · rintro ⟨hd, rest, hrest, h⟩
            exact ⟨rest, ⟨hd, hrest⟩, h⟩
          · rintro ⟨rest, ⟨hd, hrest⟩, h⟩
            exact ⟨hd, rest, hrest, h⟩

/-- The pattern of an operator has the signs of the operator around an escaped text. -/
theorem toList_likePattern (op : Operator) (needle : String) :
    (likePattern op needle).toList =
      op.surround '%' ((Text.lowerChars needle.toList).flatMap escapePattern) := by
  unfold likePattern
  rw [String.toList_ofList]
  rfl

/-- The pattern of an operator matches the texts in which the given text, in lower case,
    stands where the operator asks for it. -/
theorem likeMatches_likePattern (op : Operator) (hop : op.isPattern = true) (needle : String)
    (text : List Char) :
    likeMatches (likePattern op needle).toList text =
      op.matchesText text (Text.lowerChars needle.toList) := by
  rw [toList_likePattern]
  refine matches_surround (fun _ => rfl) likeMatches_percent ?_ op hop text
  intro pattern _ text
  exact likeMatches_escaped _ pattern text

end Polyquery.Sql
