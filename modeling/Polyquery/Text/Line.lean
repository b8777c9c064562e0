import Polyquery.Text.Blank
import Polyquery.Text.Search

/-!
# Lines and Words

A line ends with a line feed, before which a carriage return may stand.
Neither belongs to the line. A backspace in a line takes back the character
before it.

## Main definitions

* `lineOf`: A line without its end, with backspaces carried out.
* `linesOf`: The lines of a text.
* `trim`, `words`: A text without white space around it, and its words.
-/

namespace Polyquery.Text

/-- A line without its end. A carriage return is part of the end only before a line feed. -/
def dropLineEnd (cs : List Char) : List Char :=
  match cs.reverse with
  | '\n' :: '\r' :: rest => rest.reverse
  | '\n' :: rest => rest.reverse
  | _ => cs

/-- The characters that are left when every backspace takes back the one before it. -/
def applyBackspaces (cs : List Char) : List Char :=
  (cs.foldl (fun left c => if c = '\x08' then left.tail else c :: left) []).reverse

/-- A line as it is read. -/
def lineOf (s : String) : String :=
  String.ofList (applyBackspaces (dropLineEnd s.toList))

/-- The pieces of a text with the line feeds that end them. -/
def withEnds : List (List Char) → List (List Char)
  | [] => []
  | [last] => if last.isEmpty then [] else [last]
  | piece :: rest => (piece ++ ['\n']) :: withEnds rest

/-- The lines of a text. The last one need not be ended. -/
def linesOf (s : String) : List String :=
  (withEnds (splitOn '\n' s.toList)).map fun piece => lineOf (String.ofList piece)

/-- A text without the white space around it. -/
def trim (s : String) : String :=
  String.ofList ((s.toList.dropWhile isWhiteSpace).reverse.dropWhile isWhiteSpace).reverse

/-- The words of a text from the one that is being read on. -/
def wordsFrom (word : List Char) : List Char → List (List Char)
  | [] => if word.isEmpty then [] else [word.reverse]
  | c :: rest =>
    if isWhiteSpace c then
      if word.isEmpty then wordsFrom [] rest else word.reverse :: wordsFrom [] rest
    else wordsFrom (c :: word) rest

/-- The pieces of a text between white space. -/
def words (s : String) : List String :=
  (wordsFrom [] s.toList).map String.ofList

end Polyquery.Text
