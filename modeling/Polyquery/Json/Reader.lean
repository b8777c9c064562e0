import Polyquery.Decimal.Reading
import Polyquery.Json.Outline

/-!
# Reading JSON Text

From the characters of a text to its outline. Reading never fails: what cannot
be read becomes a break in the outline, and where the text goes on behind a
token without a value the token becomes a flaw.

A string is read character by character. The reader of a string remembers a
leading surrogate that still needs its second half, and it remembers the first
flaw but reads on, because a caller that passes over the string wants to know
where it ends.

Whole numbers are exact as long as they fit into 64 bits. Any other number
becomes a floating-point one from the first digits that fit into 64 bits;
digits after those only count as places.

The nesting of values is bounded by the length of the text, which is what the
counter of `readValue` starts from.

## Main definitions

* `StringState`, `StringToken`, `scanString`: Strings.
* `Numeral`, `scanNumeral`: The parts of a number.
* `Numeral.value?`: The number that the parts stand for.
* `readValue`, `readItems`, `readMembers`: Values.
* `JsonText.read`, `JsonText.ofJson`: A whole text.
-/

namespace Polyquery.Reader

/-- The characters after the blanks at the start. -/
def skipBlanks (cs : List Char) : List Char :=
  cs.dropWhile fun c => c == ' ' || c == '\n' || c == '\t' || c == '\r'

/-- The value of a hexadecimal digit. -/
def hexValue? (c : Char) : Option Nat :=
  if '0' ≤ c ∧ c ≤ '9' then some (c.toNat - '0'.toNat)
  else if 'a' ≤ c ∧ c ≤ 'f' then some (c.toNat - 'a'.toNat + 10)
  else if 'A' ≤ c ∧ c ≤ 'F' then some (c.toNat - 'A'.toNat + 10)
  else none

/-- Whether the encoding of a text has at least the given number of bytes. -/
def hasBytes : Nat → List Char → Bool
  | 0, _ => true
  | _ + 1, [] => false
  | n + 1, c :: rest => hasBytes (n + 1 - c.utf8Size) rest

/-- Where the reader of a string stands. A leading surrogate waits for its second half. -/
inductive StringState where
  /-- Between characters. -/
  | plain (leading : Option Nat)
  /-- Behind a backslash. -/
  | escape (leading : Option Nat)
  /-- Behind `\u` and the given number of digits with the given value. -/
  | hex (leading : Option Nat) (digits value : Nat)
  deriving Repr, DecidableEq

/-- A string as far as it can be read. -/
inductive StringToken where
  /-- The string ends; it has a value or a flaw. -/
  | ended (value : Except Fault String) (rest : List Char)
  /-- The text breaks inside the string. -/
  | broken (fault skipped : Fault)
  deriving Repr

/-- What has been read of a string: its characters, last one first, or its first flaw. -/
abbrev StringSoFar := Except Fault (List Char)

/-- The string so far with one more character. -/
def StringSoFar.push (soFar : StringSoFar) (c : Char) : StringSoFar :=
  soFar.map (c :: ·)

/-- The string so far with a flaw, unless it has one already. -/
def StringSoFar.flaw (soFar : StringSoFar) (fault : Fault) : StringSoFar :=
  match soFar with
  | .ok _ => .error fault
  | .error first => .error first

/-- The string so far with a flaw when a leading surrogate is left without its second half. -/
def StringSoFar.abandon (soFar : StringSoFar) (leading : Option Nat) : StringSoFar :=
  match leading with
  | some _ => soFar.flaw .unexpectedEndOfEscape
  | none => soFar

/-- The break of a string: a reader is told the flaw that came before it. -/
def StringSoFar.breakOff (soFar : StringSoFar) (fault : Fault) : StringToken :=
  match soFar with
  | .ok _ => .broken fault fault
  | .error first => .broken first fault

/-- The character that a letter behind a backslash stands for. -/
def simpleEscape? (c : Char) : Option Char :=
  if c = '"' then some '"'
  else if c = '\\' then some '\\'
  else if c = '/' then some '/'
  else if c = 'b' then some '\x08'
  else if c = 'f' then some '\x0c'
  else if c = 'n' then some '\n'
  else if c = 'r' then some '\r'
  else if c = 't' then some '\t'
  else none

/-- The effect of an escape with four hexadecimal digits. -/
def finishHex (soFar : StringSoFar) (leading : Option Nat) (code : Nat) :
    StringSoFar × StringState :=
  match leading with
  | some high =>
    if 0xdc00 ≤ code ∧ code ≤ 0xdfff then
      -- Each half of a pair carries ten bits.
      let full := 0x10000 + (high - 0xd800) * 0x400 + (code - 0xdc00)
      (soFar.push (Char.ofNat full), .plain none)
    else (soFar.flaw .loneSurrogate, .plain none)
  | none =>
    if 0xdc00 ≤ code ∧ code ≤ 0xdfff then (soFar.flaw .loneSurrogate, .plain none)
    else if 0xd800 ≤ code ∧ code ≤ 0xdbff then (soFar, .plain (some code))
    else (soFar.push (Char.ofNat code), .plain none)

/-- A string behind its opening quotation mark. -/
def scanString (soFar : StringSoFar) : StringState → List Char → StringToken
  | _, [] => soFar.breakOff .eofInString
  | .plain leading, c :: rest =>
    if c = '\\' then scanString soFar (.escape leading) rest
    else
      let soFar := soFar.abandon leading
      if c = '"' then .ended (soFar.map fun cs => String.ofList cs.reverse) rest
      else if c.toNat < 0x20 then soFar.breakOff .controlCharacter
      else scanString (soFar.push c) (.plain none) rest
  | .escape leading, c :: rest =>
    if c = 'u' then scanString soFar (.hex leading 0 0) rest
    else
      let soFar := soFar.abandon leading
      match simpleEscape? c with
      | some escaped => scanString (soFar.push escaped) (.plain none) rest
      | none => soFar.breakOff .invalidEscape
  | .hex leading digits value, c :: rest =>
    match hexValue? c with
    | some digit =>
      if digits = 3 then
        let (soFar, state) := finishHex soFar leading (16 * value + digit)
        scanString soFar state rest
      else scanString soFar (.hex leading (digits + 1) (16 * value + digit)) rest
    | none =>
      -- A short text ends inside the escape; a long one has a character that is no digit in it.
      if hasBytes (4 - digits) (c :: rest) then soFar.breakOff .invalidEscape
      else soFar.breakOff .eofInString

/-- The parts of a number as written. -/
structure Numeral where
  negative : Bool
  whole : List Char
  /-- The digits behind the point, if there is one. -/
  fraction : Option (List Char)
  /-- The sign and the digits behind the letter `e`, if there is one. -/
  exponent : Option (Bool × List Char)
  deriving Repr, DecidableEq

/-- The value of decimal digits. -/
def digitsValue (digits : List Char) : Nat :=
  digits.foldl (fun n c => 10 * n + (c.toNat - '0'.toNat)) 0

/-- The greatest significand. -/
def maxSignificand : Nat := 18446744073709551615

/-- The digits taken into a significand for as long as it fits, with the digits left over. -/
def takeDigits (significand : Nat) : List Char → Nat × List Char
  | [] => (significand, [])
  | c :: rest =>
    let next := 10 * significand + (c.toNat - '0'.toNat)
    if next ≤ maxSignificand then takeDigits next rest else (significand, c :: rest)

/-- The number that a numeral stands for, if it is finite. -/
def Numeral.value? (n : Numeral) : Option Number :=
  let (significand, wholeLeft) := takeDigits 0 n.whole
  let whole := digitsValue n.whole
  match n.fraction, n.exponent, wholeLeft with
  | none, none, [] =>
    if !n.negative then some (.int (Int.ofNat whole))
    -- A negative zero has no whole form, and neither has anything below 64 signed bits.
    else if whole = 0 ∨ 9223372036854775808 < whole then some (.float (-(Float.ofNat whole)))
    else some (.int (-Int.ofNat whole))
  | fraction, exponent, wholeLeft =>
    let fraction := fraction.getD []
    let (significand, fractionLeft) := takeDigits significand fraction
    -- Digits left over before the point raise the power, digits taken behind it lower it.
    let places := Int.ofNat wholeLeft.length - Int.ofNat (fraction.length - fractionLeft.length)
    let power : Int := match exponent with
      | none => 0
      | some (negative, digits) =>
        if negative then -Int.ofNat (digitsValue digits) else Int.ofNat (digitsValue digits)
    (Decimal.scaled? n.negative significand (places + power)).map .float

/-- A number whose exponent sign and digits are still to be read. -/
def scanExponent (n : Numeral) (cs : List Char) : Except Fault (Numeral × List Char) :=
  let (negative, cs) := match cs with
    | '+' :: rest => (false, rest)
    | '-' :: rest => (true, rest)
    | cs => (false, cs)
  match cs.takeWhile Char.isDigit, cs with
  | [], [] => .error .eofInValue
  | [], _ => .error .invalidNumber
  | digits, cs => .ok ({ n with exponent := some (negative, digits) }, cs.dropWhile Char.isDigit)

/-- A number that may still have an exponent. -/
def scanAfterDigits (n : Numeral) : List Char → Except Fault (Numeral × List Char)
  | 'e' :: rest => scanExponent n rest
  | 'E' :: rest => scanExponent n rest
  | cs => .ok (n, cs)

/-- The parts of a number behind its sign. A leading zero stands alone. -/
def scanNumeral (negative : Bool) (cs : List Char) : Except Fault (Numeral × List Char) :=
  let whole := cs.takeWhile Char.isDigit
  match whole, cs with
  | [], [] => .error .eofInValue
  | [], _ => .error .invalidNumber
  | '0' :: _ :: _, _ => .error .invalidNumber
  | whole, cs =>
    match cs.dropWhile Char.isDigit with
    | '.' :: rest =>
      match rest.takeWhile Char.isDigit, rest with
      | [], [] => .error .eofInValue
      | [], _ => .error .invalidNumber
      | fraction, rest =>
        scanAfterDigits ⟨negative, whole, some fraction, none⟩ (rest.dropWhile Char.isDigit)
    | rest => scanAfterDigits ⟨negative, whole, none, none⟩ rest

/-- The outline of a value together with the text behind it, or nothing behind a break. -/
abbrev Reading (α : Type) := α × Option (List Char)

/-- A number behind its sign. A caller that passes over it is told of any mistake that
    it is no number. -/
def readNumber (negative : Bool) (cs : List Char) : Reading Outline :=
  match scanNumeral negative cs with
  | .error fault => (.broken .other fault .invalidNumber, none)
  | .ok (numeral, rest) =>
    match numeral.value? with
    | some n => (.number n, some rest)
    | none => (.flawed .other .numberOutOfRange, some rest)

/-- One of the three words of the format, behind its first letter. -/
def readWord (value : Outline) : List Char → List Char → Reading Outline
  | [], rest => (value, some rest)
  | _ :: _, [] => (.broken .other .eofInValue .eofInValue, none)
  | w :: word, c :: rest =>
    if w = c then readWord value word rest
    else (.broken .other .expectedIdent .expectedIdent, none)

/-- A string behind its opening quotation mark. -/
def readString (cs : List Char) : Reading Outline :=
  match scanString (.ok []) (.plain none) cs with
  | .ended (.ok s) rest => (.string s, some rest)
  | .ended (.error fault) rest => (.flawed .quote fault, some rest)
  | .broken fault skipped => (.broken .quote fault skipped, none)

/-- Whether a value broken off inside ends the text for the brackets around it as
    well. The stop of such brackets is never looked at. -/
def unreached : Stop :=
  .broken .eofInValue .eofInValue .eofInValue

mutual

/-- A value. The counter bounds the nesting. -/
def readValue : (counter : Nat) → List Char → Reading Outline
  | 0, _ => (.broken .absent .eofInValue .eofInValue, none)
  | counter + 1, cs =>
    match skipBlanks cs with
    | [] => (.broken .absent .eofInValue .eofInValue, none)
    | c :: rest =>
      if c = 'n' then readWord .null ['u', 'l', 'l'] rest
      else if c = 't' then readWord (.bool true) ['r', 'u', 'e'] rest
      else if c = 'f' then readWord (.bool false) ['a', 'l', 's', 'e'] rest
      else if c = '-' then readNumber true rest
      else if c.isDigit then readNumber false (c :: rest)
      else if c = '"' then readString rest
      else if c = '[' then
        match skipBlanks rest with
        | [] => (.array [] (.broken .eofInList .eofInList .eofInList), none)
        | d :: behind =>
          if d = ']' then (.array [] .closed, some behind)
          else
            let ((items, stop), rest) := readItems counter (d :: behind)
            (.array items stop, rest)
      else if c = '\x7b' then
        match skipBlanks rest with
        | [] => (.object [] (.broken .eofInObject .eofInObject .eofInObject), none)
        | d :: behind =>
          if d = '\x7d' then (.object [] .closed, some behind)
          else if d = '"' then
            let ((members, stop), rest) := readMembers counter behind
            (.object members stop, rest)
          -- What stands in place of the key is kept for a reader that expects a word.
          else (.keyless (readValue counter (d :: behind)).1, none)
      else (.broken .other .expectedValue .expectedValue, none)

/-- The items of an array, starting with a value. -/
def readItems : (counter : Nat) → List Char → Reading (List Outline × Stop)
  | 0, _ => (([], unreached), none)
  | counter + 1, cs =>
    match readValue counter cs with
    | (item, none) => (([item], unreached), none)
    | (item, some rest) =>
      match skipBlanks rest with
      | [] => (([item], .broken .eofInList .eofInList .eofInList), none)
      | c :: rest =>
        if c = ']' then (([item], .closed), some rest)
        else if c = ',' then
          match skipBlanks rest with
          -- A reader that passes over looks for a value behind the comma and not for the end.
          | ']' :: _ => (([item], .broken .trailingComma .trailingComma .expectedValue), none)
          | rest =>
            let ((items, stop), rest) := readItems counter rest
            ((item :: items, stop), rest)
        else
          let comma := Fault.expectedListCommaOrEnd
          (([item], .broken comma .trailingCharacters comma), none)

/-- The members of an object, starting behind the opening quotation mark of a key. -/
def readMembers : (counter : Nat) → List Char →
    Reading (List (Except Fault String × Outline) × Stop)
  | 0, _ => (([], unreached), none)
  | counter + 1, cs =>
    match scanString (.ok []) (.plain none) cs with
    | .broken fault skipped => (([], .broken fault fault skipped), none)
    | .ended key rest =>
      match skipBlanks rest with
      | [] => (([(key, .broken .absent .eofInObject .eofInObject)], unreached), none)
      | ':' :: rest =>
        match readValue counter rest with
        | (value, none) => (([(key, value)], unreached), none)
        | (value, some rest) =>
          match skipBlanks rest with
          | [] =>
            (([(key, value)], .broken .eofInObject .eofInObject .eofInObject), none)
          | c :: rest =>
            if c = '\x7d' then (([(key, value)], .closed), some rest)
            else if c = ',' then
              match skipBlanks rest with
              | [] => (([(key, value)], .broken .eofInValue .eofInValue .eofInObject), none)
              | d :: rest =>
                if d = '"' then
                  let ((members, stop), rest) := readMembers counter rest
                  (((key, value) :: members, stop), rest)
                else
                  -- A closing brace behind a comma has a wording of its own.
                  let fault := if d = '\x7d' then Fault.trailingComma else .keyMustBeString
                  (([(key, value)], .broken fault fault .keyMustBeString), none)
            else
              let comma := Fault.expectedObjectCommaOrEnd
              (([(key, value)], .broken comma comma comma), none)
      | _ => (([(key, .broken .absent .expectedColon .expectedColon)], unreached), none)

end

/-- The counter that suffices for a text: every call passes a character. -/
def counterFor (cs : List Char) : Nat :=
  2 * cs.length + 2

end Reader

/-- A whole text: the outline of its value, and whether anything but blanks follows. -/
structure JsonText where
  outline : Outline
  trailing : Bool
  deriving Repr

/-- Reads a whole text. -/
def JsonText.read (s : String) : JsonText :=
  match Reader.readValue (Reader.counterFor s.toList) s.toList with
  | (outline, some rest) => ⟨outline, !(Reader.skipBlanks rest).isEmpty⟩
  | (outline, none) => ⟨outline, false⟩

/-- The text of a value written out. -/
def JsonText.ofJson (value : Json) : JsonText :=
  ⟨.ofJson value, false⟩

end Polyquery
