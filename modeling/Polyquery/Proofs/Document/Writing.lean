import Polyquery.Document.Form
import Polyquery.Proofs.Json.Written
import Polyquery.Proofs.Query.Components

/-!
# Queries as Documents

How a query is written as a document, and that the document takes the form of
the query. A property without an alias is written as its name and every other
expression as an object; whatever is not there, is empty, or is what a reader
assumes anyway, is left out.

The document of a query is read in two ways. From the top down, fields are read
one after the other, and what is written for one of them cannot be taken for
another. Conditions and the arguments of calls are read as values first and
then tried against one form after the other, so a form that is tried early must
not fit what was written as a later one. Connectives have a key of their own
that no comparison has, and constants are neither objects nor arrays.

Not everything in a query can be written: native pieces, preprocessors and
customizers mean something to a program only, and not every floating-point
constant has a notation.

## Main definitions

* `Expression.bareName?`, `Expression.compound?`: Whether a name is enough.
* `Expression.toJson`, `Condition.toJson`, `AdvancedQuery.toJson` and their
  siblings: Queries and their parts written out.
* `Expression.form`, `Condition.form`, `AdvancedQuery.form` and their siblings:
  The forms that are written.
* `Literal.Writable`, `Component.Writable`: What a document has a place for.

## Theorems

* `expression_form`, `arguments_form`, `condition_form`: Values that are tried
  against forms.
* `reads_expression`, `reads_condition`, `reads_sort`, `reads_page`,
  `reads_selection`: The parts of a document.
* `reads_query`: A document.
-/

namespace Polyquery

section Writing

/-- The path of a property without an alias, which a name is enough for. -/
def Expression.bareName? : Expression → Option String
  | .property path none => some path
  | _ => none

/-- The expression itself, where a name is not enough. -/
def Expression.compound? : Expression → Option Expression
  | .property _ none => none
  | x => some x

mutual

/-- An expression written out. -/
def Expression.toJson : Expression → Json
  | .property path label => .record [
      ("propertyName", some (.string path)),
      ("function", none),
      ("arguments", none),
      ("alias", label.map .string)]
  | .call function arguments label => .record [
      ("propertyName", none),
      ("function", some (.string function.name)),
      ("arguments", Json.unlessEmpty (Argument.toJsons arguments)),
      ("alias", label.map .string)]

/-- An argument written out. -/
def Argument.toJson : Argument → Json
  | .expression value => value.toJson
  | .literal value => value.toJson

/-- Arguments written out. -/
def Argument.toJsons : List Argument → List Json
  | [] => []
  | argument :: rest => argument.toJson :: Argument.toJsons rest

end

mutual

/-- The form of an expression that is written out. -/
def Expression.form : Expression → ExpressionForm
  | .property path label => ⟨some path, none, [], label⟩
  | .call function arguments label => ⟨none, some function.name, Argument.forms arguments, label⟩

/-- The form of an argument that is written out. -/
def Argument.form : Argument → ArgumentForm
  | .expression value => .expression value.form
  | .literal value => .literal value.toJson

/-- The forms of arguments. -/
def Argument.forms : List Argument → List ArgumentForm
  | [] => []
  | argument :: rest => argument.form :: Argument.forms rest

end

/-- A value written out: an array for a list, an object for another property. -/
def ConditionValue.toJson : ConditionValue → Json
  | .scalar value => value.toJson
  | .list values => .array (values.map Literal.toJson)
  | .field path => .object [("field", .string path)]

/-- A comparison written out. -/
def SimpleCondition.toJson (leaf : SimpleCondition) : Json :=
  .record [
    ("propertyName", leaf.left.bareName?.map .string),
    ("propertyExpression", leaf.left.compound?.map Expression.toJson),
    ("operator", some (.string leaf.operator.name)),
    ("value", leaf.value.map ConditionValue.toJson)]

/-- The form of a comparison. -/
def SimpleCondition.form (leaf : SimpleCondition) : SimpleForm :=
  ⟨leaf.left.bareName?, leaf.left.compound?.map Expression.form, some leaf.operator.name,
    leaf.value.map ConditionValue.toJson⟩

mutual

/-- A condition written out. A native piece cannot be written, and null takes its place. -/
def Condition.toJson : Condition → Json
  | .simple leaf => leaf.toJson
  | .and children => .object [("and", .array (Condition.toJsons children))]
  | .or children => .object [("or", .array (Condition.toJsons children))]
  | .not child => .object [("not", child.toJson)]
  | .native _ => .null

/-- Conditions written out. -/
def Condition.toJsons : List Condition → List Json
  | [] => []
  | condition :: rest => condition.toJson :: Condition.toJsons rest

end

mutual

/-- The form of a condition. A native piece has none, and that of the empty condition takes
    its place. -/
def Condition.form : Condition → ConditionForm
  | .simple leaf => .simple leaf.form
  | .and children => .and (Condition.forms children)
  | .or children => .or (Condition.forms children)
  | .not child => .not child.form
  | .native _ => .and []

/-- The forms of conditions. -/
def Condition.forms : List Condition → List ConditionForm
  | [] => []
  | condition :: rest => condition.form :: Condition.forms rest

end

/-- A sort key written out, or null for a native piece. -/
def SortKey.toJson : SortKey → Json
  | .simple key => .record [
      ("propertyName", key.expression.bareName?.map .string),
      ("propertyExpression", key.expression.compound?.map Expression.toJson),
      ("direction", some (.string key.direction.name))]
  | .native _ => .null

/-- The form of a sort key. -/
def SortKey.form : SortKey → SortForm
  | .simple key =>
    ⟨key.expression.bareName?, key.expression.compound?.map Expression.form, key.direction⟩
  | .native _ => SortForm.shape.start

/-- A page written out. -/
def Pagination.toJson (p : Pagination) : Json :=
  .record [("page", some (.ofNat p.page)), ("pageSize", some (.ofNat p.size))]

/-- The form of a page. -/
def Pagination.form (p : Pagination) : PaginationForm :=
  ⟨p.page, p.size⟩

/-- Columns written out, or null for a native piece. -/
def Selection.toJson : Selection → Json
  | .items list => .record [
      ("propertyNames", Json.unlessEmpty (list.names.map .string)),
      ("propertyExpressions", Json.unlessEmpty (list.expressions.map Expression.toJson))]
  | .native _ => .null

/-- The form of columns. -/
def Selection.form : Selection → ListForm
  | .items list => ⟨list.names, list.expressions.map Expression.form⟩
  | .native _ => ListForm.shape.start

/-- An advanced query written out. -/
def AdvancedQuery.toJson (q : AdvancedQuery) : Json :=
  .record [
    ("filter", q.filter.map Condition.toJson),
    ("sort", Json.unlessEmpty (q.sorts.map SortKey.toJson)),
    ("pagination", q.pagination.map Pagination.toJson),
    ("distinct", Json.unlessFalse q.distinct),
    ("select", q.select.map Selection.toJson),
    ("groupBy", q.groupBy.map Selection.toJson),
    ("having", q.having.map Condition.toJson)]

/-- The form of an advanced query. -/
def AdvancedQuery.form (q : AdvancedQuery) : QueryForm :=
  ⟨q.filter.map Condition.form, q.sorts.map SortKey.form, q.pagination.map Pagination.form,
    q.distinct, q.select.map Selection.form, q.groupBy.map Selection.form,
    q.having.map Condition.form⟩

/-- A plain query written out: it is written like the advanced one that says the same. -/
def Query.toJson (q : Query) : Json :=
  (AdvancedQuery.ofQuery q).toJson

end Writing

section Writable

/-- The constants that every document can hold. Whole numbers fit into 64 signed bits, and
    floating-point numbers are left out, because JSON has no notation for some of them. -/
def Literal.Writable : Literal → Prop
  | .string _ => True
  | .integer n => minInt64 ≤ n ∧ n ≤ maxInt64
  | .float _ => False
  | .boolean _ => True

/-- Whether a document has a place for a value, apart from the parts of the value. There is none
    for native pieces, preprocessors and customizers. -/
def Component.Writable : Component → Prop
  | .argument (.literal value) => value.Writable
  | .operand (.scalar value) => value.Writable
  | .operand (.list values) => ∀ value ∈ values, value.Writable
  | .condition (.native _) => False
  | .sortKey (.native _) => False
  | .selection (.native _) => False
  | .preprocessor _ => False
  | .query (.plain q) => q.customizers = []
  | .query (.advanced q) => q.customizers = []
  | _ => True

end Writable

open Component

section Expressions

theorem toJsons_eq_map (arguments : List Argument) :
    Argument.toJsons arguments = arguments.map Argument.toJson := by
  induction arguments with
  | nil => simp only [Argument.toJsons, List.map_nil]
  | cons argument rest ih => rw [Argument.toJsons, ih, List.map_cons]

theorem forms_eq_map (arguments : List Argument) :
    Argument.forms arguments = arguments.map Argument.form := by
  induction arguments with
  | nil => simp only [Argument.forms, List.map_nil]
  | cons argument rest ih => rw [Argument.forms, ih, List.map_cons]

/-- A floating-point number is written as a number or as null. -/
theorem ofFloat_cases (x : Float) :
    Json.ofFloat x = .number (.float x) ∨ Json.ofFloat x = .null := by
  unfold Json.ofFloat
  split
  · exact .inl rfl
  · exact .inr rfl

/-- No constant is written like an expression, and all are written without keys to repeat. -/
theorem literal_form (l : Literal) :
    ExpressionForm.ofJson? l.toJson = none ∧ l.toJson.settle = l.toJson := by
  cases l with
  | string s => exact ⟨rfl, rfl⟩
  | integer n => exact ⟨rfl, rfl⟩
  | boolean b => exact ⟨rfl, rfl⟩
  | float x =>
      -- The only constant for which the kind of value depends on the constant.
      have hjson : (Literal.float x).toJson = Json.ofFloat x := rfl
      rw [hjson]
      rcases ofFloat_cases x with h | h <;> rw [h] <;> exact ⟨rfl, rfl⟩

theorem property_form (path : String) (label : Option String) :
    ExpressionForm.ofJson? (.record [("propertyName", some (.string path)), ("function", none),
      ("arguments", none), ("alias", label.map .string)]) = some ⟨some path, none, [], label⟩ := by
  cases label <;> rfl

theorem call_form (name : String) (arguments : List Json) (label : Option String) :
    ExpressionForm.ofJson? (.record [("propertyName", none), ("function", some (.string name)),
      ("arguments", Json.unlessEmpty arguments), ("alias", label.map .string)]) =
      some ⟨none, some name, ArgumentForm.ofItems arguments, label⟩ := by
  cases arguments <;> cases label <;> rfl

mutual

/-- An expression that is written out has its form. -/
theorem expression_form : ∀ x : Expression, ExpressionForm.ofJson? x.toJson = some x.form
  | .property path label => by
      rw [Expression.toJson, property_form, Expression.form]
  | .call function arguments label => by
      rw [Expression.toJson, call_form, arguments_form arguments, Expression.form]

theorem arguments_form : ∀ arguments : List Argument,
    ArgumentForm.ofItems (Argument.toJsons arguments) = Argument.forms arguments
  | [] => by
      simp only [Argument.toJsons, Argument.forms, ArgumentForm.ofItems]
  | .expression x :: rest => by
      simp only [Argument.toJsons, Argument.toJson, Argument.forms, Argument.form,
        ArgumentForm.ofItems, expression_form x, arguments_form rest]
  | .literal l :: rest => by
      simp only [Argument.toJsons, Argument.toJson, Argument.forms, Argument.form,
        ArgumentForm.ofItems, literal_form l, arguments_form rest]

end

theorem argument_form (a : Argument) : ArgumentForm.ofJson a.toJson = a.form := by
  cases a with
  | expression x =>
      simp only [Argument.toJson, Argument.form, ArgumentForm.ofJson, expression_form x]
  | literal l => simp only [Argument.toJson, Argument.form, ArgumentForm.ofJson, literal_form l]

theorem toJson_ne_null (x : Expression) : x.toJson ≠ .null := by
  cases x <;> exact Json.record_ne_null _

theorem reads_argument (a : Argument) : Reads ArgumentForm.decode a.toJson a.form := by
  intro budget h
  unfold ArgumentForm.decode
  rw [reads_value a.toJson budget h, ← argument_form a]
  rfl

/-- Where an expression is read field by field, what is written is read as well. -/
theorem reads_expression (x : Expression) :
    Reads (decodeRecord ExpressionForm.shape) x.toJson x.form := by
  cases x with
  | property path label =>
      rw [Expression.toJson, Expression.form]
      refine reads_record ExpressionForm.shape (by decide) ?_
      refine .text (by decide) (some path) rfl ?_
      refine .absent (by decide) (.absent (by decide) ?_)
      exact .text (by decide) label rfl (.done _)
  | call function arguments label =>
      rw [Expression.toJson, Expression.form, toJsons_eq_map, forms_eq_map]
      refine reads_record ExpressionForm.shape (by decide) ?_
      refine .absent (by decide) (.text (by decide) (some function.name) rfl ?_)
      refine .list (by decide) arguments _ _ (fun a _ => reads_argument a) rfl ?_
      exact .text (by decide) label rfl (.done _)

end Expressions

section Conditions

theorem valueOrNull_of_ne_null {value : Json} (h : value ≠ .null) :
    valueOrNull value = some value.settle := by
  cases value with
  | null => exact absurd rfl h
  | _ => rfl

theorem literal_ne_null (l : Literal) (h : l.Writable) : l.toJson ≠ .null := by
  cases l with
  | float _ => exact h.elim
  | _ => simp only [Literal.toJson, Json.ofInt, ne_eq, reduceCtorEq, not_false_eq_true]

theorem settleItems_literals (values : List Literal) :
    Json.settleItems (values.map Literal.toJson) = values.map Literal.toJson := by
  induction values with
  | nil => rfl
  | cons l rest ih => rw [List.map_cons, Json.settleItems, (literal_form l).2, ih]

/-- A value that is written out is kept as it is until it is looked at. -/
theorem value_form (v : ConditionValue) (h : (operand v).Writable) :
    valueOrNull v.toJson = some v.toJson := by
  cases v with
  | scalar l =>
      exact (valueOrNull_of_ne_null (literal_ne_null l h)).trans (congrArg some (literal_form l).2)
  | list values =>
      simp only [ConditionValue.toJson, valueOrNull, Json.settle, settleItems_literals values]
  | field path => rfl

theorem expressionOrNull?_toJson (x : Expression) :
    expressionOrNull? x.toJson = some (some x.form) := by
  unfold expressionOrNull?
  split
  · rename_i hnull
    exact absurd hnull (toJson_ne_null x)
  · rw [expression_form x]
    rfl

/-- A comparison has none of the keys that other conditions go by. -/
theorem comparison_members (name : Option String) (x : Option Expression) (operator : String)
    (value : Option Json) (hvalue : ∀ v, value = some v → valueOrNull v = some v) :
    ConditionForm.ofJson? (.record [("propertyName", name.map .string),
      ("propertyExpression", x.map Expression.toJson), ("operator", some (.string operator)),
      ("value", value)]) =
      some (.simple ⟨name, x.map Expression.form, some operator, value⟩) := by
  -- All keys are known, so it only matters which of the members are there.
  cases name <;> cases x <;> cases value <;>
    simp [Json.record, Json.presentMembers, ConditionForm.ofJson?, ConditionForm.listUnder?,
      ConditionForm.childUnder?, SimpleForm.ofMembers?, expressionOrNull?_toJson, stringOrNull?,
      SimpleForm.blank, hvalue]

theorem simple_form (leaf : SimpleCondition)
    (h : ∀ v, leaf.value = some v → (operand v).Writable) :
    ConditionForm.ofJson? leaf.toJson = some (.simple leaf.form) := by
  refine comparison_members leaf.left.bareName? leaf.left.compound? leaf.operator.name
    (leaf.value.map ConditionValue.toJson) ?_
  intro written hwritten
  rcases Option.map_eq_some_iff.mp hwritten with ⟨v, hv, rfl⟩
  exact value_form v (h v hv)

mutual

/-- A condition that is written out has its form: a connective stands alone with its key, and no
    other kind of condition is tried before that which was written. -/
theorem condition_form : ∀ c : Condition, (condition c).Everywhere Writable →
    ConditionForm.ofJson? c.toJson = some c.form
  | .simple leaf, h => by
      rw [Condition.toJson, Condition.form]
      refine simple_form leaf fun v hv => ?_
      have hleaf : (comparison leaf).Everywhere Writable := h.part List.mem_cons_self
      exact (hleaf.part (List.mem_cons_of_mem _
        (List.mem_map_of_mem (Option.mem_toList.mpr hv)))).self
  | .and children, h => by
      -- There is one member, so its key is not repeated.
      have hchildren := conditions_form children fun c hc => h.part (List.mem_map_of_mem hc)
      simp [Condition.toJson, Condition.form, ConditionForm.ofJson?, ConditionForm.listUnder?,
        ConditionForm.ofArray?, hasKey, hchildren]
  | .or children, h => by
      have hchildren := conditions_form children fun c hc => h.part (List.mem_map_of_mem hc)
      simp [Condition.toJson, Condition.form, ConditionForm.ofJson?, ConditionForm.listUnder?,
        ConditionForm.ofArray?, hasKey, hchildren]
  | .not child, h => by
      have hchild := condition_form child (h.part List.mem_cons_self)
      simp [Condition.toJson, Condition.form, ConditionForm.ofJson?, ConditionForm.listUnder?,
        ConditionForm.childUnder?, hasKey, hchild]
  | .native _, h => h.self.elim

theorem conditions_form : ∀ cs : List Condition,
    (∀ c ∈ cs, (condition c).Everywhere Writable) →
    ConditionForm.ofItems? (Condition.toJsons cs) = some (Condition.forms cs)
  | [], _ => by simp only [Condition.toJsons, Condition.forms, ConditionForm.ofItems?]
  | c :: rest, h => by
      rw [List.forall_mem_cons] at h
      simp only [Condition.toJsons, Condition.forms, ConditionForm.ofItems?,
        condition_form c h.1, conditions_form rest h.2, Option.map_some]

end

theorem reads_condition (c : Condition) (h : (condition c).Everywhere Writable) :
    Reads ConditionForm.decode c.toJson c.form ∧ c.toJson ≠ .null := by
  have hform := condition_form c h
  constructor
  · intro budget hdepth
    unfold ConditionForm.decode
    rw [reads_value c.toJson budget hdepth, ok_bind, hform]
    rfl
  · intro hnull
    rw [hnull] at hform
    exact absurd hform (by simp only [ConditionForm.ofJson?, reduceCtorEq, not_false_eq_true])

end Conditions

section Queries

theorem reads_sort (key : SortKey) (h : (sortKey key).Everywhere Writable) :
    Reads (decodeRecord SortForm.shape) key.toJson key.form := by
  cases key with
  | native piece => exact h.self.elim
  | simple key =>
      refine reads_record SortForm.shape (by decide) ?_
      refine .text (by decide) key.expression.bareName? rfl ?_
      refine .option (by decide) key.expression.compound? _ _ (fun x _ =>
        ⟨reads_expression x, toJson_ne_null x⟩) rfl ?_
      refine .present (reads_choice _ _ key.direction ?_) ?_
      · cases key.direction <;> rfl
      · exact .done _

theorem reads_page (p : Pagination) :
    Reads (decodeRecord PaginationForm.shape) p.toJson p.form ∧ p.toJson ≠ .null := by
  refine ⟨reads_record PaginationForm.shape (by decide) ?_, Json.record_ne_null _⟩
  exact .present (reads_natural _ _) (.present (reads_natural _ _) (.done _))

theorem reads_selection (columns : Selection) (h : (selection columns).Everywhere Writable) :
    Reads (decodeRecord ListForm.shape) columns.toJson columns.form ∧ columns.toJson ≠ .null := by
  cases columns with
  | native piece => exact h.self.elim
  | items list =>
      refine ⟨reads_record ListForm.shape (by decide) ?_, Json.record_ne_null _⟩
      refine .list (by decide) list.names .string id (fun s _ => reads_string s) rfl ?_
      refine .list (by decide) list.expressions _ _ (fun x _ => reads_expression x) rfl ?_
      rw [List.map_id]
      exact .done _

/-- A query that is written out is read field by field. -/
theorem reads_query (q : AdvancedQuery) (h : (query (.advanced q)).Everywhere Writable) :
    Reads (decodeRecord QueryForm.shape) q.toJson q.form := by
  have hparts := q.forall_parts.mp fun p hp => h.part hp
  -- The fields in the order of the shape, each read as what it was written for.
  refine reads_record QueryForm.shape (by decide) ?_
  refine .option (by decide) q.filter _ Condition.form (fun c hc => ?filter) rfl ?_
  case filter => exact reads_condition c (hparts.query.filter c hc)
  refine .list (by decide) q.sorts _ SortKey.form (fun key hkey => ?sort) rfl ?_
  case sort => exact reads_sort key (hparts.query.sorts key hkey)
  refine .option (by decide) q.pagination _ Pagination.form (fun p _ => ?page) rfl ?_
  case page => exact reads_page p
  refine .flag (by decide) q.distinct rfl ?_
  refine .option (by decide) q.select _ Selection.form (fun columns hcolumns => ?select) rfl ?_
  case select => exact reads_selection columns (hparts.query.select columns hcolumns)
  refine .option (by decide) q.groupBy _ Selection.form (fun columns hcolumns => ?groupBy) rfl ?_
  case groupBy => exact reads_selection columns (hparts.groupBy columns hcolumns)
  refine .option (by decide) q.having _ Condition.form (fun c hc => ?having) rfl ?_
  case having => exact reads_condition c (hparts.having c hc)
  exact .done _

end Queries

end Polyquery
