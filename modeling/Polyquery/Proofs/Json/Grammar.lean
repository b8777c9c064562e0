import Polyquery.Json.Reader

/-!
# The Grammar of JSON Text

Which texts are JSON texts, without a reader: values with blanks between their tokens, strings
with their escapes, and numbers. The rules are those of the data format, one constructor for
each way to write something. All rules are in one family, so that an induction over a text
runs through values, items and members alike.

## Main definitions

* `Blank`: What may stand between tokens.
* `StringBody`, `Numeral`: What stands between quotes, and numbers.
* `Symbol`, `Derives`: The rules.
-/

namespace Polyquery.Grammar

/-- A character that may stand between tokens. -/
def isBlank (c : Char) : Bool :=
  c == ' ' || c == '\n' || c == '\t' || c == '\r'

/-- A text of blanks. -/
def Blank (cs : List Char) : Prop :=
  ∀ c ∈ cs, isBlank c = true

instance : DecidablePred Blank := fun cs =>
  decidable_of_iff (cs.all isBlank = true) List.all_eq_true

/-- What may stand between the quotation marks of a string. -/
inductive StringBody : List Char → Prop where
  | nil : StringBody []
  | plain (c : Char) (rest : List Char) (hquote : c ≠ '"') (hslash : c ≠ '\\')
    (hcontrol : 0x20 ≤ c.toNat) (hrest : StringBody rest) : StringBody (c :: rest)
  | escape (c : Char) (rest : List Char) (hc : (Reader.simpleEscape? c).isSome = true)
    (hrest : StringBody rest) : StringBody ('\\' :: c :: rest)
  | hex (digits rest : List Char) (hlength : digits.length = 4)
    (hdigits : ∀ d ∈ digits, (Reader.hexValue? d).isSome = true) (hrest : StringBody rest) :
    StringBody ('\\' :: 'u' :: (digits ++ rest))

/-- Digits, at least one. -/
def Digits (cs : List Char) : Prop :=
  cs ≠ [] ∧ ∀ c ∈ cs, c.isDigit = true

instance : DecidablePred Digits := fun cs =>
  decidable_of_iff (cs ≠ [] ∧ cs.all Char.isDigit = true)
    (and_congr_right fun _ => List.all_eq_true)

/-- The digits behind the point of a number, with the point. -/
inductive Fraction : List Char → Prop where
  | none : Fraction []
  | some (digits : List Char) (h : Digits digits) : Fraction ('.' :: digits)

/-- The power of ten of a number, with the letter. -/
inductive Exponent : List Char → Prop where
  | none : Exponent []
  | some (letter : Char) (sign digits : List Char) (hletter : letter = 'e' ∨ letter = 'E')
    (hsign : sign = [] ∨ sign = ['+'] ∨ sign = ['-']) (h : Digits digits) :
    Exponent (letter :: (sign ++ digits))

/-- A number. A zero in front stands alone. -/
inductive Numeral : List Char → Prop where
  | parts (sign whole fraction exponent : List Char) (hsign : sign = [] ∨ sign = ['-'])
    (hwhole : Digits whole) (hzero : whole.head? = some '0' → whole = ['0'])
    (hfraction : Fraction fraction) (hexponent : Exponent exponent) :
    Numeral (sign ++ (whole ++ (fraction ++ exponent)))

/-- The symbols of the grammar. -/
inductive Symbol where
  | value
  | object
  /-- A value with blanks around it. -/
  | item
  /-- The items of an array, one or more. -/
  | items
  /-- A key with its value and blanks around both. -/
  | member
  /-- The members of an object, one or more. -/
  | members
  deriving Repr, DecidableEq

/-- The rules of the grammar. -/
inductive Derives : Symbol → List Char → Prop where
  | null : Derives .value ['n', 'u', 'l', 'l']
  | yes : Derives .value ['t', 'r', 'u', 'e']
  | no : Derives .value ['f', 'a', 'l', 's', 'e']
  | number (cs : List Char) (h : Numeral cs) : Derives .value cs
  | string (body : List Char) (h : StringBody body) : Derives .value ('"' :: (body ++ ['"']))
  | emptyArray (blank : List Char) (h : Blank blank) : Derives .value ('[' :: (blank ++ [']']))
  | array (items : List Char) (h : Derives .items items) : Derives .value ('[' :: (items ++ [']']))
  | object (cs : List Char) (h : Derives .object cs) : Derives .value cs
  | emptyObject (blank : List Char) (h : Blank blank) :
    Derives .object ('\x7b' :: (blank ++ ['\x7d']))
  | fullObject (members : List Char) (h : Derives .members members) :
    Derives .object ('\x7b' :: (members ++ ['\x7d']))
  | item (before value after : List Char) (hbefore : Blank before) (h : Derives .value value)
    (hafter : Blank after) : Derives .item (before ++ (value ++ after))
  | lastItem (item : List Char) (h : Derives .item item) : Derives .items item
  | nextItem (item rest : List Char) (h : Derives .item item) (hrest : Derives .items rest) :
    Derives .items (item ++ ',' :: rest)
  | member (before key after item : List Char) (hbefore : Blank before) (hkey : StringBody key)
    (hafter : Blank after) (h : Derives .item item) :
    Derives .member (before ++ '"' :: (key ++ '"' :: (after ++ ':' :: item)))
  | lastMember (member : List Char) (h : Derives .member member) : Derives .members member
  | nextMember (member rest : List Char) (h : Derives .member member)
    (hrest : Derives .members rest) : Derives .members (member ++ ',' :: rest)

end Polyquery.Grammar
