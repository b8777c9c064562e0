import Polyquery.Json.Printer
import Polyquery.Json.Reader
import Polyquery.Text.Unprintable

/-!
# Reading Records from JSON Text

Typed readers over the outline of a text. A reader reports the first thing
that is wrong in the order of the text, whether that is a mistake in the text
or a value of the wrong kind, so every reader looks at brackets, members and
items from left to right.

A record can be written as an object or as an array of its fields in order.
The fields are a list of `Field`s, each of which puts what it reads into the
record; what a field starts with is what it holds when it is not written. A
record is *strict* when a member that is none of its fields is a mistake, and
otherwise such a member is passed over.

The nesting of brackets is limited. A budget counts the brackets that may
still be opened, and the bracket that would use it up is refused. A value that
is passed over uses none of it.

## Main definitions

* `Found`, `DecodeError`: What went wrong, with `DecodeError.message`.
* `Decoder`: A reader of one value.
* `Outline.strict`: The plain value of an outline.
* `Outline.passOver`: A value that is passed over.
* `decodeString`, `decodeBool`, `decodeNatural`, `decodeOption`, `decodeList`:
  Simple readers.
* `Field`, `RecordShape`, `decodeRecord`: Records.
* `decodeMap`: Objects with free keys.
* `decodeChoice`: One of a few words.
* `decodeText`: A whole text.
-/

namespace Polyquery

/-- A value that was found in place of another. -/
inductive Found where
  | null
  | bool (value : Bool)
  | number (value : Number)
  | string (value : String)
  | array
  | object
  deriving Repr, DecidableEq

/-- A found value in words. -/
def Found.message : Found → String
  | .null => "null"
  | .bool b => "boolean `" ++ (if b then "true" else "false") ++ "`"
  | .number (.int n) => "integer `" ++ toString n ++ "`"
  | .number (.float x) => "floating point `" ++ (Number.float x).write ++ "`"
  | .string s => "string " ++ Text.displayed s
  | .array => "sequence"
  | .object => "map"

/-- What is wrong with a JSON text, or with a value in it. -/
inductive DecodeError where
  /-- The text cannot be read. -/
  | unreadable (fault : Fault)
  | invalidType (found : Found) (expected : String)
  | invalidValue (found : Found) (expected : String)
  | invalidLength (count : Nat) (expected : String)
  | missingField (name : String)
  | unknownField (name : String) (known : List String)
  | duplicateField (name : String)
  | unknownVariant (name : String) (known : List String)
  /-- The value has none of the forms that the type allows. -/
  | noForm (type : String)
  deriving Repr, DecidableEq

/-- A choice of names in words. -/
def oneOf (names : List String) : String :=
  match names.map fun name => "`" ++ name ++ "`" with
  | [a, b] => a ++ " or " ++ b
  | [a] => a
  | quotedNames => "one of " ++ String.intercalate ", " quotedNames

/-- The wording of a mistake. -/
def DecodeError.message : DecodeError → String
  | .unreadable fault => fault.message
  | .invalidType found expected => "invalid type: " ++ found.message ++ ", expected " ++ expected
  | .invalidValue found expected => "invalid value: " ++ found.message ++ ", expected " ++ expected
  | .invalidLength count expected =>
    "invalid length " ++ toString count ++ ", expected " ++ expected
  | .missingField name => "missing field `" ++ name ++ "`"
  | .unknownField name known => "unknown field `" ++ name ++ "`, expected " ++ oneOf known
  | .duplicateField name => "duplicate field `" ++ name ++ "`"
  | .unknownVariant name known => "unknown variant `" ++ name ++ "`, expected " ++ oneOf known
  | .noForm type => "data did not match any variant of untagged enum " ++ type

/-- The number of brackets that stops a reader: one fewer can be open at a time. -/
def bracketLimit : Nat := 128

/-- A reader of one value, given the budget of brackets. -/
abbrev Decoder (α : Type) := Nat → Outline → Except DecodeError α

/-- The budget inside another bracket, unless the bracket uses it up. -/
def enterBracket (budget : Nat) : Except Fault Nat :=
  if budget ≤ 1 then .error .recursionLimit else .ok (budget - 1)

/-- The end of items or members for a reader that looks for the next one. -/
def Stop.atNext : Stop → Except Fault Unit
  | .closed => .ok ()
  | .broken next _ _ => .error next

/-- The end of items for a reader that expects the closing bracket. -/
def Stop.atLast : Stop → Except Fault Unit
  | .closed => .ok ()
  | .broken _ last _ => .error last

/-- The end of items or members for a reader that passes over. -/
def Stop.atSkipped : Stop → Except Fault Unit
  | .closed => .ok ()
  | .broken _ _ skipped => .error skipped

/-- A mistake in the text as a mistake of a reader. -/
def readable {α : Type} (result : Except Fault α) : Except DecodeError α :=
  result.mapError .unreadable

namespace Outline

mutual

/-- The value of an outline, of which nothing may be wrong. Repeated keys are kept. -/
def strict (budget : Nat) : Outline → Except Fault Json
  | .null => .ok .null
  | .bool b => .ok (.bool b)
  | .number n => .ok (.number n)
  | .string s => .ok (.string s)
  | .flawed _ fault => .error fault
  | .broken _ fault _ => .error fault
  | .array items stop => do
    let inner ← enterBracket budget
    let values ← strictItems inner items
    stop.atNext
    return .array values
  | .object members stop => do
    let inner ← enterBracket budget
    let values ← strictMembers inner members
    stop.atNext
    return .object values
  | .keyless _ => do
    let _ ← enterBracket budget
    .error .keyMustBeString

/-- The values of the items of an array. -/
def strictItems (budget : Nat) : List Outline → Except Fault (List Json)
  | [] => .ok []
  | item :: rest => do
    let value ← strict budget item
    let values ← strictItems budget rest
    return value :: values

/-- The keys and values of the members of an object. -/
def strictMembers (budget : Nat) :
    List (Except Fault String × Outline) → Except Fault (List (String × Json))
  | [] => .ok []
  | (key, member) :: rest => do
    let name ← key
    let value ← strict budget member
    let values ← strictMembers budget rest
    return (name, value) :: values

end

mutual

/-- A value that is passed over. Flaws do not matter, breaks do. -/
def passOver : Outline → Except Fault Unit
  | .broken _ _ skipped => .error skipped
  | .array items stop => do
    passOverItems items
    stop.atSkipped
  | .object members stop => do
    passOverMembers members
    stop.atSkipped
  | .keyless _ => .error .keyMustBeString
  | _ => .ok ()

/-- Items that are passed over. -/
def passOverItems : List Outline → Except Fault Unit
  | [] => .ok ()
  | item :: rest => do
    passOver item
    passOverItems rest

/-- Members that are passed over, with their keys. -/
def passOverMembers : List (Except Fault String × Outline) → Except Fault Unit
  | [] => .ok ()
  | (_, value) :: rest => do
    passOver value
    passOverMembers rest

end

end Outline

/-- The mistake that a value of the wrong kind is. The text of the value has to be
    readable before its kind is known. -/
def mismatch (expected : String) : Outline → DecodeError
  | .null => .invalidType .null expected
  | .bool b => .invalidType (.bool b) expected
  | .number n => .invalidType (.number n) expected
  | .string s => .invalidType (.string s) expected
  | .flawed _ fault => .unreadable fault
  | .broken _ fault _ => .unreadable fault
  | .array _ _ => .invalidType .array expected
  | .object _ _ => .invalidType .object expected
  | .keyless _ => .invalidType .object expected

/-- A string. -/
def decodeString : Decoder String
  | _, .string s => .ok s
  | _, outline => .error (mismatch "a string" outline)

/-- A truth value. -/
def decodeBool : Decoder Bool
  | _, .bool b => .ok b
  | _, outline => .error (mismatch "a boolean" outline)

/-- A whole number that is not negative; the type is named in messages. -/
def decodeNatural (type : String) : Decoder Nat
  | _, .number (.int n) =>
    if n < 0 then .error (.invalidValue (.number (.int n)) type) else .ok n.toNat
  | _, outline => .error (mismatch type outline)

/-- A value or null. -/
def decodeOption {α : Type} (decode : Decoder α) : Decoder (Option α)
  | _, .null => .ok none
  | budget, outline => (decode budget outline).map some

/-- The items of an array, one after the other. -/
def decodeItems {α : Type} (decode : Decoder α) (budget : Nat) (stop : Stop) :
    List Outline → Except DecodeError (List α)
  | [] => do
    readable stop.atNext
    return []
  | item :: rest => do
    let value ← decode budget item
    let values ← decodeItems decode budget stop rest
    return value :: values

/-- An array of values of one type. -/
def decodeList {α : Type} (decode : Decoder α) : Decoder (List α)
  | budget, .array items stop => do
    let inner ← readable (enterBracket budget)
    decodeItems decode inner stop items
  | _, outline => .error (mismatch "a sequence" outline)

/-- Any value. -/
def decodeValue : Decoder Json := fun budget outline =>
  readable (outline.strict budget)

/-- Whether a field has to be written. -/
inductive Presence where
  /-- Always. -/
  | required
  /-- Not in an object, but in an array. -/
  | nullable
  /-- Never: the record starts with its value. -/
  | defaulted
  deriving Repr, DecidableEq

/-- A field of a record. -/
structure Field (ρ : Type) where
  name : String
  presence : Presence
  /-- Reads the value of the field and puts it into the record. -/
  read : Nat → Outline → ρ → Except DecodeError ρ

/-- A field whose value is read by `decode` and stored by `put`. -/
def Field.of {ρ α : Type} (name : String) (presence : Presence) (decode : Decoder α)
    (put : α → ρ → ρ) : Field ρ :=
  ⟨name, presence, fun budget outline record =>
    (decode budget outline).map fun value => put value record⟩

/-- How a record is read. -/
structure RecordShape (ρ : Type) where
  /-- The name of the record in messages. -/
  name : String
  /-- Whether a member that is no field is a mistake. -/
  strict : Bool
  fields : List (Field ρ)
  /-- The record of which nothing has been read. -/
  start : ρ

/-- The record as messages speak of it. -/
def RecordShape.expected {ρ : Type} (shape : RecordShape ρ) : String :=
  "struct " ++ shape.name

/-- The members of an object put into a record; `seen` holds the names of the fields so far. -/
def RecordShape.decodeMembers {ρ : Type} (shape : RecordShape ρ) (budget : Nat) (stop : Stop) :
    (seen : List String) → ρ → List (Except Fault String × Outline) →
      Except DecodeError (ρ × List String)
  | seen, record, [] => do
    readable stop.atNext
    return (record, seen)
  | seen, record, (key, value) :: rest => do
    let name ← readable key
    match shape.fields.find? fun field => field.name == name with
    | some field =>
      -- A repeated field is reported before its value is looked at.
      if seen.contains name then throw (.duplicateField name)
      let record ← field.read budget value record
      shape.decodeMembers budget stop (name :: seen) record rest
    | none =>
      if shape.strict then throw (.unknownField name (shape.fields.map (·.name)))
      -- The value of an unknown member need not be readable as a value.
      readable value.passOver
      shape.decodeMembers budget stop seen record rest

/-- The items of an array put into the fields of a record in order; `count` items came before. -/
def RecordShape.decodeInOrder {ρ : Type} (shape : RecordShape ρ) (budget : Nat) (stop : Stop) :
    (count : Nat) → ρ → List (Field ρ) → List Outline → Except DecodeError ρ
  | _, record, [], [] => do
    readable stop.atLast
    return record
  | _, _, [], _ :: _ => .error (.unreadable .trailingCharacters)
  | count, record, field :: fields, item :: items => do
    let record ← field.read budget item record
    shape.decodeInOrder budget stop (count + 1) record fields items
  | count, record, field :: fields, [] => do
    readable stop.atNext
    -- Only fields with a value to start with can be left out of an array.
    if field.presence = .defaulted then
      shape.decodeInOrder budget stop count record fields []
    else
      let plural := if shape.fields.length = 1 then " element" else " elements"
      throw (.invalidLength count
        (shape.expected ++ " with " ++ toString shape.fields.length ++ plural))

/-- A record, written as an object or as an array. -/
def decodeRecord {ρ : Type} (shape : RecordShape ρ) : Decoder ρ
  | budget, .array items stop => do
    let inner ← readable (enterBracket budget)
    shape.decodeInOrder inner stop 0 shape.start shape.fields items
  | budget, .object members stop => do
    let inner ← readable (enterBracket budget)
    let (record, seen) ← shape.decodeMembers inner stop [] shape.start members
    let missing := shape.fields.find? fun field =>
      field.presence = .required && !seen.contains field.name
    match missing with
    | some field => throw (.missingField field.name)
    | none => return record
  | budget, .keyless _ => do
    let _ ← readable (enterBracket budget)
    throw (.unreadable .keyMustBeString)
  | _, outline => .error (mismatch shape.expected outline)

/-- The members of an object with free keys. -/
def decodeEntries {α : Type} (decode : Decoder α) (budget : Nat) (stop : Stop) :
    List (Except Fault String × Outline) → Except DecodeError (List (String × α))
  | [] => do
    readable stop.atNext
    return []
  | (key, value) :: rest => do
    let name ← readable key
    let value ← decode budget value
    let entries ← decodeEntries decode budget stop rest
    return (name, value) :: entries

/-- An object with free keys. Of the members with one key the last one counts. -/
def decodeMap {α : Type} (decode : Decoder α) : Decoder (List (String × α))
  | budget, .object members stop => do
    let inner ← readable (enterBracket budget)
    (decodeEntries decode inner stop members).map insertAll
  | budget, .keyless _ => do
    let _ ← readable (enterBracket budget)
    throw (.unreadable .keyMustBeString)
  | _, outline => .error (mismatch "a map" outline)

/-- The value that a word stands for. -/
def chooseWord {α : Type} (choices : List (String × α)) (word : String) : Except DecodeError α :=
  match choices.lookup word with
  | some value => .ok value
  | none => .error (.unknownVariant word (choices.map (·.1)))

/-- What follows the member of an object that holds a word. -/
def closeChoice (rest : List (Except Fault String × Outline)) (stop : Stop) : Except Fault Unit :=
  match rest, stop with
  | [], .closed => .ok ()
  | [], .broken .eofInObject _ _ => .error .eofInObject
  | _, _ => .error .expectedValue

/-- One of a few words, written as a string or as the key of an object whose value is null. -/
def decodeChoice {α : Type} (choices : List (String × α)) : Decoder α
  | _, .string word => chooseWord choices word
  | _, .flawed .quote fault => .error (.unreadable fault)
  | _, .broken .quote fault _ => .error (.unreadable fault)
  | _, .broken .absent fault _ => .error (.unreadable fault)
  | budget, .object members stop => do
    let _ ← readable (enterBracket budget)
    match members with
    | [] =>
      match stop with
      | .closed => throw (.unreadable .expectedValue)
      -- A text that ends here ends before the word.
      | .broken .eofInObject _ _ => throw (.unreadable .eofInValue)
      | .broken fault _ _ => throw (.unreadable fault)
    | (key, value) :: rest =>
      let word ← readable key
      let choice ← chooseWord choices word
      match value with
      | .null => readable (closeChoice rest stop)
      | value => throw (mismatch "unit" value)
      return choice
  | budget, .keyless instead => do
    let _ ← readable (enterBracket budget)
    throw (mismatch "variant identifier" instead)
  | _, _ => .error (.unreadable .expectedValue)

/-- A whole text. Nothing but blanks may follow the value. -/
def decodeText {α : Type} (decode : Decoder α) (text : JsonText) : Except DecodeError α := do
  let value ← decode bracketLimit text.outline
  if text.trailing then throw (.unreadable .trailingCharacters)
  return value

/-- The value of a whole text, with repeated keys resolved. -/
def Json.parse (s : String) : Except DecodeError Json :=
  (decodeText decodeValue (.read s)).map Json.settle

end Polyquery
