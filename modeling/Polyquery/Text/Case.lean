import Polyquery.Text.CaseTable

/-!
# Case of Text

Lower and upper casing by the full Unicode mappings, and the comparison of
names that looks at ASCII letters only.

A mapping may turn one character into several (`ß` becomes `SS`), so both
mappings are stated on lists of characters. Lower casing depends on the
surroundings in one place: a capital sigma is written `ς` at the end of a word
and `σ` elsewhere. The end of a word means that a cased character comes before
the sigma and none comes after it, where case-ignorable characters in between
do not count. This is why `lowerFrom` carries the characters it has passed.

## Main definitions

* `lowerFrom`: Lower casing of the rest of a text, given what came before.
* `toLower`, `toUpper`: The mappings on strings.
* `sameIgnoringAsciiCase`: Equality of names up to the case of ASCII letters.
-/

namespace Polyquery.Text

/-- The image of a character under a table of runs and a table of exceptions. A
    character that no table mentions is its own image. -/
def mapChar (runs : List CaseRun) (specials : List (Nat × List Nat)) (c : Char) : List Char :=
  match specials.lookup c.toNat with
  | some codes => codes.map Char.ofNat
  | none =>
    match runs.findSome? (·.image? c.toNat) with
    | some code => [Char.ofNat code]
    | none => [c]

/-- The lower case of a character on its own. -/
def lowerChar (c : Char) : List Char :=
  if c.toNat < 0x80 then [c.toLower] else mapChar lowerRuns lowerSpecials c

/-- The upper case of a character. -/
def upperChar (c : Char) : List Char :=
  if c.toNat < 0x80 then [c.toUpper] else mapChar upperRuns upperSpecials c

/-- Whether a character takes part in case distinctions. -/
def isCased (c : Char) : Bool :=
  inRanges casedRanges c.toNat

/-- Whether a character is passed over when the end of a word is looked for. -/
def isCaseIgnorable (c : Char) : Bool :=
  inRanges caseIgnorableRanges c.toNat

/-- Whether the first character that is not case-ignorable is a cased one. -/
def meetsCased (cs : List Char) : Bool :=
  match cs.dropWhile isCaseIgnorable with
  | c :: _ => isCased c
  | [] => false

/-- The small form of a capital sigma between the reversed text `before` and the text `after`. -/
def lowerSigma (before after : List Char) : Char :=
  if meetsCased before && !meetsCased after then 'ς' else 'σ'

/-- Lower casing of a text whose earlier part, last character first, is `before`. -/
def lowerFrom (before : List Char) : List Char → List Char
  | [] => []
  | c :: rest =>
    (if c = 'Σ' then [lowerSigma before rest] else lowerChar c) ++ lowerFrom (c :: before) rest

/-- Lower casing of a list of characters. -/
def lowerChars (cs : List Char) : List Char :=
  lowerFrom [] cs

/-- Upper casing of a list of characters. -/
def upperChars (cs : List Char) : List Char :=
  cs.flatMap upperChar

/-- Lower casing of a string. -/
def toLower (s : String) : String :=
  String.ofList (lowerChars s.toList)

/-- Upper casing of a string. -/
def toUpper (s : String) : String :=
  String.ofList (upperChars s.toList)

/-- Equality of two names up to the case of their ASCII letters. -/
def sameIgnoringAsciiCase (a b : String) : Bool :=
  a.toList.map Char.toLower == b.toList.map Char.toLower

end Polyquery.Text
