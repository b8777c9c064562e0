import Mathlib.Data.List.Infix
import Polyquery.Proofs.Text.Search
import Polyquery.Search.Filter

/-!
# Wildcard Patterns

What a wildcard pattern matches, and that the patterns of the pattern
operators match the texts they are meant for.

In a pattern an asterisk stands for any text and a question mark for any
character; a backslash takes these meanings away from the character after it.
A pattern is read into pieces first, and characters that stand for themselves
are one piece as long as they are in a row. Matching without regard to case
needs this: a text is put in lower case as a whole, since a letter can have
another lower case at the end of a word. What is done to the texts of a
pattern before it is matched is a parameter, `fold`.

A text that has been escaped is one piece, whatever signs it is made of
(`pieces_escaped`), unless it is empty and no piece at all. Either way it
matches itself and nothing else (`wildcardHolds_escaped`).

## Main definitions

* `Search.Piece`, `Search.pieces`: The pieces of a pattern.
* `Search.piecesMatch`: Whether a text is made of texts that match the pieces.
* `Search.wildcardHolds`: Whether a text matches a pattern.

## Theorems

* `pieces_escapeWildcard`, `pieces_escaped`: An escaped text is one piece.
* `piecesMatch_anything`, `piecesMatch_literal`: What pieces match.
* `wildcardHolds_escaped`: An escaped text matches itself.
* `wildcardHolds_wildcardPattern`: The patterns of the pattern operators.
-/

namespace Polyquery.Search

/-- A piece of a pattern. -/
inductive Piece where
  /-- Any text. -/
  | anything
  /-- Any character. -/
  | one
  | literal (text : List Char)
  deriving Repr, DecidableEq

/-- Pieces with a character in front, which joins the text that they begin with. -/
def withLetter (c : Char) : List Piece → List Piece
  | .literal text :: rest => .literal (c :: text) :: rest
  | pieces => .literal [c] :: pieces

/-- The pieces of a pattern. A backslash that is the last character stands for itself. -/
def pieces : List Char → List Piece
  | [] => []
  | '*' :: rest => .anything :: pieces rest
  | '?' :: rest => .one :: pieces rest
  | '\\' :: c :: rest => withLetter c (pieces rest)
  | c :: rest => withLetter c (pieces rest)

/-- Whether a text is made of texts that match the pieces. -/
def piecesMatch : List Piece → List Char → Bool
  | [], text => text.isEmpty
  | .anything :: rest, text => text.tails.any (piecesMatch rest)
  | .one :: rest, text =>
    match text with
    | [] => false
    | _ :: after => piecesMatch rest after
  | .literal literal :: rest, text =>
    literal.isPrefixOf text && piecesMatch rest (text.drop literal.length)

/-- A piece with its text replaced. -/
def Piece.map (fold : List Char → List Char) : Piece → Piece
  | .literal text => .literal (fold text)
  | piece => piece

/-- Whether a text matches a pattern whose own texts are replaced first. -/
def wildcardHolds (fold : List Char → List Char) (pattern text : List Char) : Bool :=
  piecesMatch ((pieces pattern).map (Piece.map fold)) text

/-- An asterisk matches any text, so the rest of the pattern may begin anywhere. -/
theorem piecesMatch_anything (rest : List Piece) (text : List Char) :
    piecesMatch (.anything :: rest) text = true ↔
      ∃ after, after <:+ text ∧ piecesMatch rest after = true := by
  simp only [piecesMatch, List.any_eq_true, List.mem_tails]

/-- A text matches itself, and the rest of the pattern begins where it ends. -/
theorem piecesMatch_literal (literal : List Char) (rest : List Piece) (text : List Char) :
    piecesMatch (.literal literal :: rest) text = true ↔
      ∃ after, text = literal ++ after ∧ piecesMatch rest after = true := by
  simp only [piecesMatch, Bool.and_eq_true, List.isPrefixOf_iff_prefix]
  constructor
  · rintro ⟨⟨after, heq⟩, h⟩
    rw [← heq, List.drop_left] at h
    exact ⟨after, heq.symm, h⟩
  · rintro ⟨after, heq, h⟩
    rw [heq, List.drop_left]
    exact ⟨List.prefix_append literal after, h⟩

/-- A character that has been escaped is read as itself. -/
theorem pieces_escapeWildcard (c : Char) (rest : List Char) :
    pieces (escapeWildcard c ++ rest) = withLetter c (pieces rest) := by
  unfold escapeWildcard
  by_cases hspecial : c = '*' ∨ c = '?' ∨ c = '\\'
  · rw [if_pos hspecial]
    rfl
  · rw [if_neg hspecial]
    have hasterisk : c ≠ '*' := fun heq => hspecial (.inl heq)
    have hquestion : c ≠ '?' := fun heq => hspecial (.inr (.inl heq))
    have hbackslash : c ≠ '\\' := fun heq => hspecial (.inr (.inr heq))
    rw [List.singleton_append, pieces]
    · exact hasterisk
    · exact hquestion
    · intro d others heq
      exact absurd heq hbackslash

/-- An escaped text is one piece, if what comes after it does not begin with a text. An
    empty text is none. -/
theorem pieces_escaped (text rest : List Char)
    (hrest : ∀ literal others, pieces rest ≠ .literal literal :: others) :
    pieces (text.flatMap escapeWildcard ++ rest) =
      if text = [] then pieces rest else .literal text :: pieces rest := by
  induction text with
  | nil => rfl
  | cons c text ih =>
      rw [List.flatMap_cons, List.append_assoc, pieces_escapeWildcard, ih,
        if_neg (List.cons_ne_nil c text)]
      -- The character begins a text, or it joins the one that has been read after it.
      by_cases hempty : text = []
      · rw [if_pos hempty, hempty, withLetter]
        exact hrest
      · rw [if_neg hempty, withLetter]

/-- The pattern of an operator has the signs of the operator around an escaped text. -/
theorem toList_wildcardPattern (op : Operator) (needle : String) :
    (wildcardPattern op needle).toList =
      op.surround '*' (needle.toList.flatMap escapeWildcard) := by
  unfold wildcardPattern
  rw [String.toList_ofList]
  rfl

section Patterns

variable (fold : List Char → List Char) (hfold : fold [] = [])

include hfold in
/-- A text that has been escaped matches itself and nothing else. -/
theorem wildcardHolds_escaped (needle rest text : List Char)
    (hrest : ∀ literal others, pieces rest ≠ .literal literal :: others) :
    wildcardHolds fold (needle.flatMap escapeWildcard ++ rest) text = true ↔
      ∃ after, text = fold needle ++ after ∧ wildcardHolds fold rest after = true := by
  unfold wildcardHolds
  rw [pieces_escaped needle rest hrest]
  -- An empty text is no piece, and matches the empty text that a piece would match.
  by_cases hempty : needle = []
  · rw [if_pos hempty, hempty, hfold]
    simp only [List.nil_append, exists_eq_left']
  · rw [if_neg hempty, List.map_cons]
    exact piecesMatch_literal (fold needle) _ text

include hfold in
/-- The pattern of an operator matches the texts in which the given text stands where the
    operator asks for it. -/
theorem wildcardHolds_wildcardPattern (op : Operator) (hop : op.isPattern = true)
    (needle : String) (text : List Char) :
    wildcardHolds fold (wildcardPattern op needle).toList text =
      op.matchesText text (fold needle.toList) := by
  rw [toList_wildcardPattern]
  refine matches_surround (fun _ => rfl) (fun _ => piecesMatch_anything _) ?_ op hop text
  rintro pattern (rfl | rfl) text
  · exact wildcardHolds_escaped fold hfold needle.toList [] text (fun _ _ h => by cases h)
  · exact wildcardHolds_escaped fold hfold needle.toList ['*'] text (fun _ _ h => by cases h)

end Patterns

end Polyquery.Search
