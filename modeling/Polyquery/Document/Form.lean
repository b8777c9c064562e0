import Polyquery.Direction
import Polyquery.Json.Decode

/-!
# The Shape of a Query Document

What a JSON document says, before any rule of queries is applied to it.
Operators and functions are still names, and nothing has been checked but that
every value has the right kind. The whole document takes its shape first, so a
value of the wrong kind is reported before a rule that is broken earlier in
the text.

Conditions, and the arguments of calls, can have several forms that no key
tells apart. Their values are read whole and then tried against the forms in
turn; the first one that fits is taken. The forms of a condition are an object
with the key `and`, one with `or`, one with `not`, and a comparison. The first
three pay no attention to other keys, the last one allows none.

## Main definitions

* `ExpressionForm`, `ArgumentForm`: Expressions as written.
* `SimpleForm`, `ConditionForm`: Conditions as written.
* `SortForm`, `PaginationForm`, `ListForm`: The other parts of a query.
* `QueryForm`: A whole document.
* `ExpressionForm.ofJson?`, `ConditionForm.ofJson?`: The form of a value.
* `QueryForm.decode`: The form of a text.
-/

namespace Polyquery

mutual

/-- An expression as written. -/
structure ExpressionForm where
  name : Option String
  function : Option String
  arguments : List ArgumentForm
  label : Option String

/-- An argument as written. -/
inductive ArgumentForm where
  | expression (form : ExpressionForm)
  | literal (value : Json)

end

/-- The expression of which nothing has been read. -/
def ExpressionForm.blank : ExpressionForm :=
  ⟨none, none, [], none⟩

/-- A comparison as written. -/
structure SimpleForm where
  name : Option String
  expression : Option ExpressionForm
  operator : Option String
  value : Option Json

/-- The comparison of which nothing has been read. -/
def SimpleForm.blank : SimpleForm :=
  ⟨none, none, none, none⟩

/-- A condition as written. -/
inductive ConditionForm where
  | and (children : List ConditionForm)
  | or (children : List ConditionForm)
  | not (child : ConditionForm)
  | simple (form : SimpleForm)

/-- A sort key as written. -/
structure SortForm where
  name : Option String
  expression : Option ExpressionForm
  direction : Direction

/-- A page as written. -/
structure PaginationForm where
  page : Nat
  size : Nat

/-- A select or group-by as written. -/
structure ListForm where
  names : List String
  expressions : List ExpressionForm

/-- A document as written. -/
structure QueryForm where
  filter : Option ConditionForm
  sorts : List SortForm
  pagination : Option PaginationForm
  distinct : Bool
  select : Option ListForm
  groupBy : Option ListForm
  having : Option ConditionForm

/-- A string or null. -/
def stringOrNull? : Json → Option (Option String)
  | .null => some none
  | .string s => some (some s)
  | _ => none

/-- A value or nothing, for null. -/
def valueOrNull : Json → Option Json
  | .null => none
  | value => some value.settle

mutual

/-- The expression that a value has the form of. -/
def ExpressionForm.ofJson? : Json → Option ExpressionForm
  | .object members => ExpressionForm.ofMembers? [] .blank members
  | .array items => ExpressionForm.ofItems? items
  | _ => none

/-- The expression whose members are given; `seen` holds the keys that came before. -/
def ExpressionForm.ofMembers? (seen : List String) (form : ExpressionForm) :
    List (String × Json) → Option ExpressionForm
  | [] => some form
  | (key, value) :: rest =>
    if seen.contains key then none
    else if key = "propertyName" then
      match stringOrNull? value with
      | some name => ExpressionForm.ofMembers? (key :: seen) { form with name := name } rest
      | none => none
    else if key = "function" then
      match stringOrNull? value with
      | some function =>
        ExpressionForm.ofMembers? (key :: seen) { form with function := function } rest
      | none => none
    else if key = "arguments" then
      match ArgumentForm.ofArray? value with
      | some arguments =>
        ExpressionForm.ofMembers? (key :: seen) { form with arguments := arguments } rest
      | none => none
    else if key = "alias" then
      match stringOrNull? value with
      | some label => ExpressionForm.ofMembers? (key :: seen) { form with label := label } rest
      | none => none
    else none

/-- The expression whose fields are given in order. -/
def ExpressionForm.ofItems? : List Json → Option ExpressionForm
  | [name, function, arguments, label] =>
    match stringOrNull? name, stringOrNull? function, ArgumentForm.ofArray? arguments,
      stringOrNull? label with
    | some name, some function, some arguments, some label =>
      some ⟨name, function, arguments, label⟩
    | _, _, _, _ => none
  | _ => none

/-- The arguments that an array holds. -/
def ArgumentForm.ofArray? : Json → Option (List ArgumentForm)
  | .array items => some (ArgumentForm.ofItems items)
  | _ => none

/-- The arguments that values stand for. A value that is no expression is a literal. -/
def ArgumentForm.ofItems : List Json → List ArgumentForm
  | [] => []
  | item :: rest =>
    match ExpressionForm.ofJson? item with
    | some form => .expression form :: ArgumentForm.ofItems rest
    | none => .literal item.settle :: ArgumentForm.ofItems rest

end

/-- The argument that a value stands for. -/
def ArgumentForm.ofJson (value : Json) : ArgumentForm :=
  match ExpressionForm.ofJson? value with
  | some form => .expression form
  | none => .literal value.settle

/-- An expression or null. -/
def expressionOrNull? : Json → Option (Option ExpressionForm)
  | .null => some none
  | value => (ExpressionForm.ofJson? value).map some

/-- The comparison whose members are given; `seen` holds the keys that came before. -/
def SimpleForm.ofMembers? (seen : List String) (form : SimpleForm) :
    List (String × Json) → Option SimpleForm
  | [] => some form
  | (key, value) :: rest =>
    if seen.contains key then none
    else if key = "propertyName" then
      match stringOrNull? value with
      | some name => SimpleForm.ofMembers? (key :: seen) { form with name := name } rest
      | none => none
    else if key = "propertyExpression" then
      match expressionOrNull? value with
      | some expression =>
        SimpleForm.ofMembers? (key :: seen) { form with expression := expression } rest
      | none => none
    else if key = "operator" then
      match stringOrNull? value with
      | some operator =>
        SimpleForm.ofMembers? (key :: seen) { form with operator := operator } rest
      | none => none
    else if key = "value" then
      SimpleForm.ofMembers? (key :: seen) { form with value := valueOrNull value } rest
    else none

/-- The comparison whose fields are given in order. -/
def SimpleForm.ofItems? : List Json → Option SimpleForm
  | [name, expression, operator, value] =>
    match stringOrNull? name, expressionOrNull? expression, stringOrNull? operator with
    | some name, some expression, some operator =>
      some ⟨name, expression, operator, valueOrNull value⟩
    | _, _, _ => none
  | _ => none

/-- Whether a key stands among members. -/
def hasKey (key : String) (members : List (String × Json)) : Bool :=
  members.any fun member => member.1 == key

mutual

/-- The condition that a value has the form of. -/
def ConditionForm.ofJson? : Json → Option ConditionForm
  | .object members =>
    match ConditionForm.listUnder? "and" members with
    | some children => some (.and children)
    | none =>
      match ConditionForm.listUnder? "or" members with
      | some children => some (.or children)
      | none =>
        match ConditionForm.childUnder? "not" members with
        | some child => some (.not child)
        | none => (SimpleForm.ofMembers? [] .blank members).map .simple
  | .array items => (SimpleForm.ofItems? items).map .simple
  | _ => none

/-- The conditions in the array under a key that stands among the members exactly once. -/
def ConditionForm.listUnder? (key : String) :
    List (String × Json) → Option (List ConditionForm)
  | [] => none
  | (k, value) :: rest =>
    if k = key then
      if hasKey key rest then none else ConditionForm.ofArray? value
    else ConditionForm.listUnder? key rest

/-- The condition under a key that stands among the members exactly once. -/
def ConditionForm.childUnder? (key : String) : List (String × Json) → Option ConditionForm
  | [] => none
  | (k, value) :: rest =>
    if k = key then
      if hasKey key rest then none else ConditionForm.ofJson? value
    else ConditionForm.childUnder? key rest

/-- The conditions that an array holds. -/
def ConditionForm.ofArray? : Json → Option (List ConditionForm)
  | .array items => ConditionForm.ofItems? items
  | _ => none

/-- The conditions that values have the form of. -/
def ConditionForm.ofItems? : List Json → Option (List ConditionForm)
  | [] => some []
  | item :: rest =>
    match ConditionForm.ofJson? item with
    | some child => (ConditionForm.ofItems? rest).map (child :: ·)
    | none => none

end

/-- Reads a condition. -/
def ConditionForm.decode : Decoder ConditionForm := fun budget outline => do
  let value ← decodeValue budget outline
  match ConditionForm.ofJson? value with
  | some form => return form
  | none => throw (.noForm "ConditionDto")

/-- Reads an argument. -/
def ArgumentForm.decode : Decoder ArgumentForm := fun budget outline =>
  (decodeValue budget outline).map ArgumentForm.ofJson

/-- How an expression is read. -/
def ExpressionForm.shape : RecordShape ExpressionForm where
  name := "ExpressionDto"
  strict := true
  fields := [
    .of "propertyName" .nullable (decodeOption decodeString) fun v form => { form with name := v },
    .of "function" .nullable (decodeOption decodeString) fun v form => { form with function := v },
    .of "arguments" .defaulted (decodeList ArgumentForm.decode)
      fun v form => { form with arguments := v },
    .of "alias" .nullable (decodeOption decodeString) fun v form => { form with label := v }]
  start := .blank

/-- How a sort key is read. -/
def SortForm.shape : RecordShape SortForm where
  name := "SortDto"
  strict := true
  fields := [
    .of "propertyName" .nullable (decodeOption decodeString) fun v form => { form with name := v },
    .of "propertyExpression" .nullable (decodeOption (decodeRecord ExpressionForm.shape))
      fun v form => { form with expression := v },
    .of "direction" .defaulted (decodeChoice Direction.choices)
      fun v form => { form with direction := v }]
  start := ⟨none, none, .ascending⟩

/-- How a page is read. -/
def PaginationForm.shape : RecordShape PaginationForm where
  name := "PaginationDto"
  strict := true
  fields := [
    .of "page" .required (decodeNatural "u64") fun v form => { form with page := v },
    .of "pageSize" .required (decodeNatural "u64") fun v form => { form with size := v }]
  start := ⟨0, 0⟩

/-- How a list of columns is read. -/
def ListForm.shape : RecordShape ListForm where
  name := "ListDto"
  strict := true
  fields := [
    .of "propertyNames" .defaulted (decodeList decodeString) fun v form => { form with names := v },
    .of "propertyExpressions" .defaulted (decodeList (decodeRecord ExpressionForm.shape))
      fun v form => { form with expressions := v }]
  start := ⟨[], []⟩

/-- How a document is read. -/
def QueryForm.shape : RecordShape QueryForm where
  name := "QueryDto"
  strict := true
  fields := [
    .of "filter" .nullable (decodeOption ConditionForm.decode)
      fun v form => { form with filter := v },
    .of "sort" .defaulted (decodeList (decodeRecord SortForm.shape))
      fun v form => { form with sorts := v },
    .of "pagination" .nullable (decodeOption (decodeRecord PaginationForm.shape))
      fun v form => { form with pagination := v },
    .of "distinct" .defaulted decodeBool fun v form => { form with distinct := v },
    .of "select" .nullable (decodeOption (decodeRecord ListForm.shape))
      fun v form => { form with select := v },
    .of "groupBy" .nullable (decodeOption (decodeRecord ListForm.shape))
      fun v form => { form with groupBy := v },
    .of "having" .nullable (decodeOption ConditionForm.decode)
      fun v form => { form with having := v }]
  start := ⟨none, [], none, false, none, none, none⟩

/-- Reads a document. -/
def QueryForm.decode (text : JsonText) : Except DecodeError QueryForm :=
  decodeText (decodeRecord QueryForm.shape) text

end Polyquery
