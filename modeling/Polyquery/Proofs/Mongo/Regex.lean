import Polyquery.Mongo.Filter
import Polyquery.Proofs.Text.Search

/-!
# Regular Expressions for Texts

The regular expressions of pattern operators are texts with an anchor at the
start, at the end, or at neither. This module reads such an expression. What
is read is the fragment without any operator: every character stands for
itself or is escaped with a backslash, so a sign with a meaning that stands
bare leaves the expression without a reading. `regexPattern` escapes exactly
so much that a text is read back as it was, whatever signs it is made of.

Letters are matched whatever their case, by comparing texts in lower case, and
the sign for the end means the very end.

## Main definitions

* `Mongo.Pattern`: A text with its anchors.
* `Mongo.pattern?`: The reading of a regular expression.
* `Mongo.Pattern.holds`: Whether a text matches.

## Theorems

* `literal?_escapeRegex`, `literal?_escaped`: An escaped text is read back.
* `pattern?_regexPattern`: The reading of the expression of an operator.
* `regexMatches?_regexPattern`: It matches what the operator looks for.
-/

namespace Polyquery.Mongo

/-- A text to be found, at the start, at the end or anywhere. -/
structure Pattern where
  fromStart : Bool
  literal : List Char
  toEnd : Bool
  deriving Repr, DecidableEq

/-- The characters that do not stand for themselves outside of brackets. -/
def standsBare (c : Char) : Bool :=
  !("\\^$.|?*+()[]\x7b\x7d".toList.contains c)

/-- The text that begins a regular expression up to its end or its closing anchor, and
    whether there is one. -/
def literal? : List Char → Option (List Char × Bool)
  | [] => some ([], false)
  | ['$'] => some ([], true)
  | '\\' :: c :: rest =>
    -- Before a letter or a digit a backslash does something else.
    if c.isAlphanum then none else (literal? rest).map fun read => (c :: read.1, read.2)
  | c :: rest =>
    if standsBare c then (literal? rest).map fun read => (c :: read.1, read.2) else none

/-- The pattern of a regular expression. -/
def pattern? : List Char → Option Pattern
  | '^' :: rest => (literal? rest).map fun read => ⟨true, read.1, read.2⟩
  | cs => (literal? cs).map fun read => ⟨false, read.1, read.2⟩

/-- Whether a text matches a pattern, whatever the case of letters. -/
def Pattern.holds (pattern : Pattern) (text : List Char) : Bool :=
  let needle := Text.lowerChars pattern.literal
  let hay := Text.lowerChars text
  match pattern.fromStart, pattern.toEnd with
  | true, true => hay == needle
  | true, false => needle.isPrefixOf hay
  | false, true => needle.isSuffixOf hay
  | false, false => Text.contains needle hay

/-- Whether a text matches a regular expression, if it can be read. -/
def regexMatches? (regex text : String) : Option Bool :=
  (pattern? regex.toList).map fun pattern => pattern.holds text.toList

/-- Every character with a meaning of its own is escaped, and no other one. -/
theorem standsBare_eq (c : Char) : standsBare c = !regexMeta.contains c :=
  rfl

/-- A backslash before a character with a meaning of its own takes the meaning away. -/
theorem isAlphanum_of_meta (c : Char) (h : regexMeta.contains c = true) :
    c.isAlphanum = false := by
  have hall : regexMeta.all (fun c => !c.isAlphanum) = true := by decide
  rw [List.contains_iff_mem] at h
  exact Bool.not_eq_true' _ ▸ List.all_eq_true.mp hall c h

/-- A character that has been escaped is read as itself. -/
theorem literal?_escapeRegex (c : Char) (rest : List Char) :
    literal? (escapeRegex c ++ rest) =
      (literal? rest).map fun read => (c :: read.1, read.2) := by
  unfold escapeRegex
  by_cases hmeta : regexMeta.contains c = true
  · rw [if_pos hmeta, List.cons_append, List.singleton_append, literal?,
      isAlphanum_of_meta c hmeta]
    rfl
  · -- Neither the closing anchor nor a backslash stands bare, so the last case applies.
    have hbare : standsBare c = true := by
      rw [standsBare_eq, eq_false_of_ne_true hmeta]
      rfl
    rw [if_neg hmeta, List.singleton_append, literal?, if_pos hbare]
    · intro hend
      rw [hend] at hbare
      exact absurd hbare (by decide)
    · intro d others hescape
      rw [hescape] at hbare
      exact absurd hbare (by decide)

/-- An escaped text is read as the text. What comes after it is read on its own. -/
theorem literal?_escaped (text rest : List Char) :
    literal? (text.flatMap escapeRegex ++ rest) =
      (literal? rest).map fun read => (text ++ read.1, read.2) := by
  induction text with
  | nil =>
      rw [List.flatMap_nil, List.nil_append]
      cases literal? rest <;> rfl
  | cons c text ih =>
      rw [List.flatMap_cons, List.append_assoc, literal?_escapeRegex, ih, Option.map_map]
      rfl

/-- An escaped text does not begin with the anchor of the start. -/
theorem pattern?_escaped (text rest : List Char) (hrest : rest.head? ≠ some '^') :
    pattern? (text.flatMap escapeRegex ++ rest) =
      (literal? rest).map fun read => ⟨false, text ++ read.1, read.2⟩ := by
  -- The first character is a backslash, or one that needs none.
  have hhead : ∀ others, text.flatMap escapeRegex ++ rest ≠ '^' :: others := by
    intro others heq
    cases text with
    | nil =>
        rw [List.flatMap_nil, List.nil_append] at heq
        exact hrest (by rw [heq]; rfl)
    | cons c text =>
        rw [List.flatMap_cons, List.append_assoc] at heq
        unfold escapeRegex at heq
        by_cases hmeta : regexMeta.contains c = true
        · rw [if_pos hmeta] at heq
          exact absurd (List.cons.inj heq).1 (by decide)
        · rw [if_neg hmeta] at heq
          have hc : c = '^' := (List.cons.inj heq).1
          rw [hc] at hmeta
          exact hmeta (by decide)
  rw [pattern?, literal?_escaped, Option.map_map]
  · rfl
  · exact hhead

/-- The expression of an operator is read as the text with the anchors that the operator
    asks for. -/
theorem pattern?_regexPattern (op : Operator) (hop : op.isPattern = true) (text : String) :
    pattern? (regexPattern op text).toList =
      some ⟨op == .startsWith, text.toList, op == .endsWith⟩ := by
  unfold regexPattern
  rw [String.toList_ofList]
  -- The anchors stand at the ends that are bound, around the escaped text.
  cases op <;> try exact absurd hop (by decide)
  case startsWith =>
    have hliteral := literal?_escaped text.toList []
    rw [List.append_nil] at hliteral
    rw [pattern?, hliteral]
    simp only [literal?, Option.map_some, List.append_nil]
    rfl
  case endsWith =>
    rw [pattern?_escaped _ _ (by decide)]
    simp only [literal?, Option.map_some, List.append_nil]
    rfl
  case contains =>
    have hpattern := pattern?_escaped text.toList [] (by decide)
    rw [List.append_nil] at hpattern
    rw [hpattern]
    simp only [literal?, Option.map_some, List.append_nil]
    rfl

/-- The expression of an operator matches the texts in which the operator finds the given
    one. -/
theorem regexMatches?_regexPattern (op : Operator) (hop : op.isPattern = true)
    (needle text : String) :
    regexMatches? (regexPattern op needle) text =
      some (op.matchesText (Text.lowerChars text.toList) (Text.lowerChars needle.toList)) := by
  unfold regexMatches?
  rw [pattern?_regexPattern op hop]
  cases op <;> first | exact absurd hop (by decide) | rfl

end Polyquery.Mongo
