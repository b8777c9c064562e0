/-!
# Blank Text

A text is blank when every character has the Unicode property White_Space. A
path that names a property must not be blank.

## Main definitions

* `whiteSpaceRanges`: The characters with the property White_Space.
* `isWhiteSpace`, `isBlank`: The property of a character and of a text.
* `trimSpacesLeft`, `trimSpacesRight`: Removal of plain spaces, and of nothing
  else.
-/

namespace Polyquery.Text

/-- The 25 characters with the property White_Space, as closed ranges. -/
def whiteSpaceRanges : List (Nat × Nat) :=
  [(0x9, 0xd), (0x20, 0x20), (0x85, 0x85), (0xa0, 0xa0), (0x1680, 0x1680), (0x2000, 0x200a),
    (0x2028, 0x2029), (0x202f, 0x202f), (0x205f, 0x205f), (0x3000, 0x3000)]

/-- Whether a character has the property White_Space. -/
def isWhiteSpace (c : Char) : Bool :=
  whiteSpaceRanges.any fun range => range.1 ≤ c.toNat && c.toNat ≤ range.2

/-- Whether a text holds nothing but white space. -/
def isBlank (s : String) : Bool :=
  s.toList.all isWhiteSpace

/-- The text without the spaces it starts with. -/
def trimSpacesLeft (cs : List Char) : List Char :=
  cs.dropWhile (· == ' ')

/-- The text without the spaces it ends with. -/
def trimSpacesRight (cs : List Char) : List Char :=
  (trimSpacesLeft cs.reverse).reverse

example : whiteSpaceRanges.foldl (fun n range => n + (range.2 + 1 - range.1)) 0 = 25 := by decide

end Polyquery.Text
