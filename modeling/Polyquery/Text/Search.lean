/-!
# Text Within Text

Where one text occurs in another. Positions count characters from zero, so
that they agree with the length of a list of characters and not with an
encoding.

## Main definitions

* `position?`: The first position at which a text occurs.
* `contains`: Whether a text occurs at all.
* `splitOn`: The pieces of a text between the occurrences of a character.
* `joinWith`: Pieces put together with a separator.
-/

namespace Polyquery.Text

/-- The first position at which `needle` occurs, counted in characters from zero. -/
def position? (needle : List Char) : List Char → Option Nat
  | [] => if needle.isEmpty then some 0 else none
  | c :: rest =>
    if needle.isPrefixOf (c :: rest) then some 0 else (position? needle rest).map (· + 1)

/-- Whether `needle` occurs in `hay`. -/
def contains (needle hay : List Char) : Bool :=
  (position? needle hay).isSome

/-- The pieces between the occurrences of a separator, one more than there are separators. -/
def splitOn (separator : Char) : List Char → List (List Char)
  | [] => [[]]
  | c :: rest =>
    match splitOn separator rest with
    | [] => [[c]]
    | piece :: pieces => if c = separator then [] :: piece :: pieces else (c :: piece) :: pieces

/-- The segments of a dotted path. -/
def dotted (path : String) : List String :=
  (splitOn '.' path.toList).map String.ofList

/-- The strings one after the other, with a separator in between. -/
def joinWith (separator : String) (parts : List String) : String :=
  String.intercalate separator parts

end Polyquery.Text
