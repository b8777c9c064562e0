import Polyquery.Proofs.Mongo.Regex
import Polyquery.Proofs.Search.Wildcard
import Polyquery.Proofs.Sql.Like
import Polyquery.Proofs.Text.Glob

/-!
# Patterns of the Backends

Three backends get a text to search for as a pattern in a language of their own, and each
language has signs that would mean something else in the text. The patterns say exactly
what the operator asks for: they can be read, what is read is the text with nothing but the
signs of the operator around it, and this is matched where the operator finds the text.

What a pattern matches is stated as a relation for each language, apart from the matchers
that conditions are evaluated with (`Sql.likeMatches_iff`, `Search.wildcardHolds_iff`,
`Mongo.foundIn_iff`).

Case is not the business of a pattern. The patterns of `LIKE` are in lower case because
they are for subjects in lower case, and what a subject is turned into before it gets here is
up to the statement. The other two keep the text as it is.

## Main definitions

* `Mongo.Pattern.FoundIn`: Whether a search for a regular expression succeeds.

## Theorems

* `Sql.likeMatches_iff`, `Search.wildcardHolds_iff`: The matchers agree with the relation.
* `Mongo.foundIn_iff`: A search with anchors is the search of the operator.
* `patterns_exact`: The patterns of all three backends are exact.
-/

namespace Polyquery

section Sql

open Sql

/-- The matcher of `LIKE` finds a match if there is one. -/
theorem Sql.likeMatches_iff (pattern : List Char) (symbols : List Glob.Symbol)
    (hread : Glob.read? Glob.like pattern = some symbols) (text : List Char) :
    likeMatches pattern text = true ↔ Glob.Matches symbols text := by
  -- What begins with a character is that character followed by a match.
  have hbegins : ∀ c passes text, beginsWith c passes text = true ↔
      ∃ rest, text = c :: rest ∧ passes rest = true := by
    intro c passes text
    cases text with
    | nil => simp [beginsWith]
    | cons d rest => simp [beginsWith, and_assoc]
  refine Glob.matcher_iff Glob.like likeMatches (fun _ => rfl) likeMatches_percent ?_ ?_ ?_
    pattern symbols hread text
  case refine_1 =>
    -- An underscore stands for any one character,
    intro pattern text
    cases text with
    | nil => simp [likeMatches, Glob.like]
    | cons d rest => simp [likeMatches, Glob.like]
  case refine_2 =>
    -- a backslash makes the character behind it stand for itself,
    intro c pattern text
    exact hbegins c _ text
  case refine_3 =>
    -- and every other character does so anyway.
    intro c pattern text hpercent hunderscore hbackslash
    rw [likeMatches]
    · exact hbegins c _ text
    · exact hpercent
    · exact hunderscore
    · exact fun _ _ heq => absurd heq hbackslash

/-- The pattern of an operator is read as the letters of the text in lower case. -/
theorem Sql.read?_likePattern (op : Operator) (text : String) :
    Glob.read? Glob.like (likePattern op text).toList =
      some (op.surround .any ((Text.lowerChars text.toList).map .letter)) := by
  rw [toList_likePattern]
  exact Glob.read?_surround Glob.like (fun _ => rfl) (by decide) op _

end Sql

section Search

open Search

/-- A letter joins the piece after it, which changes nothing about what is matched. -/
theorem Search.piecesMatch_withLetter (c : Char) (rest : List Piece) (text : List Char) :
    piecesMatch (withLetter c rest) text = true ↔
      ∃ after, text = c :: after ∧ piecesMatch rest after = true := by
  unfold withLetter
  split
  next literal others =>
    simp only [piecesMatch_literal, List.cons_append]
    constructor
    · rintro ⟨after, rfl, h⟩
      exact ⟨_, rfl, after, rfl, h⟩
    · rintro ⟨_, rfl, after, rfl, h⟩
      exact ⟨after, rfl, h⟩
  next =>
    exact piecesMatch_literal [c] rest text

/-- The matcher of wildcard patterns finds a match if there is one. -/
theorem Search.wildcardHolds_iff (pattern : List Char) (symbols : List Glob.Symbol)
    (hread : Glob.read? Glob.wildcard pattern = some symbols) (text : List Char) :
    wildcardHolds id pattern text = true ↔ Glob.Matches symbols text := by
  have hid : Piece.map id = id := by
    funext piece
    cases piece <;> rfl
  -- With nothing to replace, a text is matched by the pieces as they are read.
  rw [wildcardHolds, hid, List.map_id]
  refine Glob.matcher_iff Glob.wildcard (fun pattern => piecesMatch (pieces pattern))
    (fun _ => rfl) (fun _ => piecesMatch_anything _) ?_ (fun c _ => piecesMatch_withLetter c _) ?_
    pattern symbols hread text
  case refine_1 =>
    intro pattern text
    cases text with
    | nil => simp [pieces, piecesMatch, Glob.wildcard]
    | cons d rest => simp [pieces, piecesMatch, Glob.wildcard]
  case refine_2 =>
    intro c pattern text hasterisk hquestion hbackslash
    rw [pieces]
    · exact piecesMatch_withLetter c _ text
    · exact hasterisk
    · exact hquestion
    · exact fun _ _ heq => absurd heq hbackslash

/-- The pattern of an operator is read as the letters of the text. -/
theorem Search.read?_wildcardPattern (op : Operator) (text : String) :
    Glob.read? Glob.wildcard (wildcardPattern op text).toList =
      some (op.surround .any (text.toList.map .letter)) := by
  rw [toList_wildcardPattern]
  exact Glob.read?_surround Glob.wildcard (fun _ => rfl) (by decide) op _

end Search

section Mongo

open Mongo

/-- Whether a search for a pattern succeeds. What is searched for stands anywhere, except that
    nothing comes before it with an anchor at the start, or after it with one at the end. -/
def Mongo.Pattern.FoundIn (pattern : Pattern) (text : List Char) : Prop :=
  ∃ before after, text = before ++ pattern.literal ++ after ∧
    (pattern.fromStart = true → before = []) ∧ (pattern.toEnd = true → after = [])

/-- A search with the anchors of an operator is the search of the operator. -/
theorem Mongo.foundIn_iff (op : Operator) (hop : op.isPattern = true) (needle text : List Char) :
    Pattern.FoundIn ⟨op == .startsWith, needle, op == .endsWith⟩ text ↔
      op.matchesText text needle = true := by
  unfold Pattern.FoundIn
  -- The three operators of patterns differ in the ends that are bound.
  cases op <;> try exact absurd hop (by decide)
  case startsWith =>
    rw [matchesText_startsWith]
    constructor
    · rintro ⟨before, after, heq, hbefore, _⟩
      rw [hbefore rfl, List.nil_append] at heq
      exact ⟨after, heq.symm⟩
    · rintro ⟨after, heq⟩
      exact ⟨[], after, heq.symm, fun _ => rfl, fun h => absurd h Bool.false_ne_true⟩
  case endsWith =>
    rw [matchesText_endsWith]
    constructor
    · rintro ⟨before, after, heq, _, hafter⟩
      rw [hafter rfl, List.append_nil] at heq
      exact ⟨before, heq.symm⟩
    · rintro ⟨before, heq⟩
      refine ⟨before, [], ?_, fun h => absurd h Bool.false_ne_true, fun _ => rfl⟩
      rw [List.append_nil, heq]
  case contains =>
    rw [matchesText_contains]
    constructor
    · rintro ⟨before, after, heq, _, _⟩
      exact ⟨before, after, heq.symm⟩
    · rintro ⟨before, after, heq⟩
      exact ⟨before, after, heq.symm, fun h => absurd h Bool.false_ne_true,
        fun h => absurd h Bool.false_ne_true⟩

end Mongo

/-- The pattern of each backend can be read, has no sign in it but those that the operator puts
    around the text, and matches the subjects in which the operator finds the text. -/
theorem patterns_exact (op : Operator) (hop : op.isPattern = true) (text subject : String) :
    (∃ symbols, Glob.read? Glob.like (Sql.likePattern op text).toList = some symbols ∧
      symbols = op.surround .any ((Text.lowerChars text.toList).map .letter) ∧
      (Glob.Matches symbols subject.toList ↔
        op.matchesText subject.toList (Text.lowerChars text.toList) = true)) ∧
    (∃ symbols, Glob.read? Glob.wildcard (Search.wildcardPattern op text).toList = some symbols ∧
      symbols = op.surround .any (text.toList.map .letter) ∧
      (Glob.Matches symbols subject.toList ↔
        op.matchesText subject.toList text.toList = true)) ∧
    (∃ pattern, Mongo.pattern? (Mongo.regexPattern op text).toList = some pattern ∧
      pattern = ⟨op == .startsWith, text.toList, op == .endsWith⟩ ∧
      (pattern.FoundIn subject.toList ↔
        op.matchesText subject.toList text.toList = true)) := by
  refine ⟨⟨_, Sql.read?_likePattern op text, rfl, ?_⟩,
    ⟨_, Search.read?_wildcardPattern op text, rfl, ?_⟩,
    ⟨_, Mongo.pattern?_regexPattern op hop text, rfl, ?_⟩⟩
  case refine_1 =>
    rw [← Sql.likeMatches_iff _ _ (Sql.read?_likePattern op text),
      Sql.likeMatches_likePattern op hop]
  case refine_2 =>
    rw [← Search.wildcardHolds_iff _ _ (Search.read?_wildcardPattern op text),
      Search.wildcardHolds_wildcardPattern id rfl op hop]
    rfl
  case refine_3 => exact Mongo.foundIn_iff op hop text.toList subject.toList

/-- A text that ends in a backslash, after each of the signs, stands for itself. -/
theorem patterns_exact_signs :
    Operator.contains.isPattern = true ∧
    (∃ symbols, Glob.read? Glob.like (Sql.likePattern .contains "5%_*?$\\").toList = some symbols ∧
      Glob.Matches symbols "a5%_*?$\\b".toList) ∧
    (∃ symbols, Glob.read? Glob.wildcard (Search.wildcardPattern .contains "5%_*?$\\").toList =
        some symbols ∧ Glob.Matches symbols "a5%_*?$\\b".toList) ∧
    ∃ pattern, Mongo.pattern? (Mongo.regexPattern .contains "5%_*?$\\").toList = some pattern ∧
      pattern.FoundIn "a5%_*?$\\b".toList := by
  obtain ⟨⟨sql, hsql, _, hlike⟩, ⟨search, hsearch, _, hwild⟩, ⟨mongo, hmongo, _, hregex⟩⟩ :=
    patterns_exact .contains rfl "5%_*?$\\" "a5%_*?$\\b"
  exact ⟨rfl, ⟨sql, hsql, hlike.mpr (by decide +kernel)⟩,
    ⟨search, hsearch, hwild.mpr (by decide +kernel)⟩,
    ⟨mongo, hmongo, hregex.mpr (by decide +kernel)⟩⟩

end Polyquery
