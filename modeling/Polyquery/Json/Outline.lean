import Polyquery.Json.Basic

/-!
# JSON Text as Far as It Can Be Read

A text that breaks off, or that has a mistake somewhere, can still be looked
at from its start: what matters to a caller is the first thing that is wrong,
and that may be a value of the wrong kind well before the mistake in the text.
An outline is the tree of a text up to the point where it stops making sense,
with the mistake at its place in the tree.

There are mistakes of two kinds. A *flaw* is a token whose end can be found
although it has no value: a number that is too large, or a string with half of
a surrogate pair. The text goes on behind it, and a caller that passes over
the value never notices. A *break* ends the text.

Which message a break deserves depends on who reads: a caller that reads the
next value, one that has read all the items it wanted and expects the closing
bracket, and one that passes over values without looking at them. An outline
records all that apply.

## Main definitions

* `Fault`: The mistakes in a text, with `Fault.message`.
* `Start`: What kind of token an unreadable value starts with.
* `Stop`: How a list of items or members ends.
* `Outline`: The tree.
* `Outline.ofJson`: The outline of a text without mistakes.
-/

namespace Polyquery

/-- A mistake in a JSON text. -/
inductive Fault where
  | eofInValue
  | eofInString
  | eofInList
  | eofInObject
  | expectedColon
  | expectedListCommaOrEnd
  | expectedObjectCommaOrEnd
  | expectedIdent
  | expectedValue
  | invalidEscape
  | invalidNumber
  | numberOutOfRange
  | controlCharacter
  | keyMustBeString
  | loneSurrogate
  | unexpectedEndOfEscape
  | trailingComma
  | trailingCharacters
  | recursionLimit
  deriving Repr, DecidableEq

/-- The wording of a mistake. -/
def Fault.message : Fault → String
  | .eofInValue => "EOF while parsing a value"
  | .eofInString => "EOF while parsing a string"
  | .eofInList => "EOF while parsing a list"
  | .eofInObject => "EOF while parsing an object"
  | .expectedColon => "expected `:`"
  | .expectedListCommaOrEnd => "expected `,` or `]`"
  | .expectedObjectCommaOrEnd => "expected `,` or `\x7d`"
  | .expectedIdent => "expected ident"
  | .expectedValue => "expected value"
  | .invalidEscape => "invalid escape"
  | .invalidNumber => "invalid number"
  | .numberOutOfRange => "number out of range"
  | .controlCharacter => "control character (\\u0000-\\u001F) found while parsing a string"
  | .keyMustBeString => "key must be a string"
  | .loneSurrogate => "lone leading surrogate in hex escape"
  | .unexpectedEndOfEscape => "unexpected end of hex escape"
  | .trailingComma => "trailing comma"
  | .trailingCharacters => "trailing characters"
  | .recursionLimit => "recursion limit exceeded"

/-- The kind of token that an unreadable value starts with. -/
inductive Start where
  /-- There is no token: the text ends, or something that must stand before the value is missing. -/
  | absent
  /-- A quotation mark. -/
  | quote
  /-- Any other character. -/
  | other
  deriving Repr, DecidableEq

/-- How the items of an array or the members of an object end. -/
inductive Stop where
  /-- With the closing bracket. -/
  | closed
  /-- With a break, told to a reader of the next part, to one that expects the closing
      bracket and to one that passes over. -/
  | broken (next last skipped : Fault)
  deriving Repr, DecidableEq

/-- The tree of a JSON text as far as it can be read. -/
inductive Outline where
  | null
  | bool (value : Bool)
  | number (value : Number)
  | string (value : String)
  /-- A token without a value, after which the text goes on. -/
  | flawed (start : Start) (fault : Fault)
  /-- A break where a value should be, told to a reader and to one that passes over. -/
  | broken (start : Start) (fault skipped : Fault)
  | array (items : List Outline) (stop : Stop)
  /-- The members of an object; a key may be flawed. -/
  | object (members : List (Except Fault String × Outline)) (stop : Stop)
  /-- A brace followed by something other than a key, which is outlined as if it were a value. -/
  | keyless (instead : Outline)
  deriving Repr, Inhabited

namespace Outline

mutual

/-- The outline of a value written out in full. -/
def ofJson : Json → Outline
  | .null => .null
  | .bool b => .bool b
  | .number n => .number n
  | .string s => .string s
  | .array items => .array (ofItems items) .closed
  | .object members => .object (ofMembers members) .closed

/-- The outlines of the items of an array. -/
def ofItems : List Json → List Outline
  | [] => []
  | item :: rest => ofJson item :: ofItems rest

/-- The outlines of the members of an object. -/
def ofMembers : List (String × Json) → List (Except Fault String × Outline)
  | [] => []
  | (key, value) :: rest => (.ok key, ofJson value) :: ofMembers rest

end

end Outline

end Polyquery
