import Mathlib.Data.List.Forall2
import Polyquery.Memory.Record
import Polyquery.Mongo.Printer
import Polyquery.Proofs.Condition.Comparison
import Polyquery.Proofs.Mongo.Regex

/-!
# The Meaning of Filters in Mongo

Filters are read from the documents that are sent to the server, not from the
syntax trees they are written from, so the names of operators and the way in
which they are nested are part of what is read. The two languages in a filter
are read each in its own way. A clause is a test of the value at a path, where
a missing value counts as null, and an ordering holds only of values of one
kind. An expression compares operands in an order in which what is missing
comes first, null second, and every other value after them.

The order of expressions puts values of different kinds one after the other
in a way of its own. It is a parameter here, `mixed`, since no filter that is
looked at depends on it.

A clause looks into arrays, which a record in memory does not. Records with
arrays are not read.

## Main definitions

* `Mongo.plainPath`: A path that names a field.
* `Mongo.clause?`, `Mongo.condition?`, `Mongo.filter?`: The readings of a
  clause, of an expression and of a filter.
* `Mongo.matches?`: Whether a record matches a filter.
* `Mongo.FilterReads`: What a filter is read as.

## Theorems

* `comparisonNamed?_name`: Comparisons are read by their names.
* `clause?_isIn`, `clause?_compare`, `clause?_regex`, `clause?_exceptNull`: The
  readings of clauses.
* `condition?_compare`, `condition?_present`, `operandOrder_of_comparable`: The
  readings of expressions.
* `filter?_field`, `filter?_expr`, `filter?_and`, `filter?_or`: The readings of
  filters.
-/

namespace Polyquery

namespace Mongo

/-- Whether a path names a field: no segment is empty or begins with a dollar sign. -/
def plainPath (path : String) : Bool :=
  (Text.dotted path).all fun segment =>
    match segment.toList with
    | [] => false
    | c :: _ => c != '$'

/-- The comparison with a name. -/
def comparisonNamed? (name : String) : Option Comparison :=
  if name = "$eq" then some .equal
  else if name = "$ne" then some .notEqual
  else if name = "$gt" then some .greater
  else if name = "$gte" then some .greaterEqual
  else if name = "$lt" then some .less
  else if name = "$lte" then some .lessEqual
  else none

/-- Whether a comparison holds of values in an order, if they have one. -/
def Comparison.holds : Comparison → Option Ordering → Bool
  | .equal, ordering => ordering == some .eq
  | .notEqual, ordering => ordering != some .eq
  | .less, ordering => ordering == some .lt
  | .lessEqual, ordering => ordering == some .lt || ordering == some .eq
  | .greater, ordering => ordering == some .gt
  | .greaterEqual, ordering => ordering == some .gt || ordering == some .eq

/-- Whether the value of a field equals a constant. Null equals null. -/
def equalTo (value constant : Json) : Bool :=
  (value.isNull && constant.isNull) || equalValues value constant

/-- Whether a comparison holds of the value of a field and a constant. -/
def Comparison.holdsOfField (comparison : Comparison) (value constant : Json) : Bool :=
  match comparison with
  | .equal => equalTo value constant
  | .notEqual => !equalTo value constant
  | comparison => comparison.holds (compareValues value constant)

/-- The items of an array. -/
def items? : Json → Option (List Json)
  | .array items => some items
  | _ => none

/-- Whether the value of a field matches a regular expression whatever the case of
    letters. What is no text matches none. -/
def regexHolds? (value regex : Json) (options : Option Json) : Option Bool :=
  match regex, options, value with
  | .string regex, some (.string "i"), .string s => regexMatches? regex s
  | .string _, some (.string "i"), _ => some false
  | _, _, _ => none

/-- The test of the value of a field by one member of a clause. The members after it may
    hold its options, which test nothing by themselves. -/
def test? (value : Json) (name : String) (operand : Json) (others : List (String × Json)) :
    Option Bool :=
  if name = "$in" then (items? operand).map fun items => items.any (equalTo value)
  else if name = "$nin" then (items? operand).map fun items => !items.any (equalTo value)
  else if name = "$regex" then regexHolds? value operand (others.lookup "$options")
  else if name = "$options" then some true
  else (comparisonNamed? name).map fun comparison => comparison.holdsOfField value operand

mutual

/-- Whether the value of a field passes a clause. An object without members is no clause. -/
def clause? (value : Json) : Json → Option Bool
  | .object [] => none
  | .object members => tests? value members
  | _ => none

/-- Whether the value of a field passes all members of a clause. -/
def tests? (value : Json) : List (String × Json) → Option Bool
  | [] => some true
  | (name, operand) :: rest => do
    let first ← if name = "$not" then (clause? value operand).map not
      else test? value name operand rest
    let others ← tests? value rest
    return first && others

end

/-- The value of an operand of an expression. A field may be missing. -/
def operand? (record : Record) : Json → Option (Option Json)
  | .string s =>
    match s.toList with
    | '$' :: path =>
      let path := String.ofList path
      if plainPath path then some ((Json.object record).follow? (Text.dotted path)) else none
    | _ => some (some (.string s))
  | .array _ | .object _ => none
  | value => some (some value)

/-- The order of two operands. What is missing comes before null, and null before every
    other value; values of one kind are in their own order. -/
def operandOrder (mixed : Json → Json → Ordering) : Option Json → Option Json → Option Ordering
  | none, none => some .eq
  | none, some _ => some .lt
  | some _, none => some .gt
  | some a, some b =>
    match a.isNull, b.isNull with
    | true, true => some .eq
    | true, false => some .lt
    | false, true => some .gt
    | false, false => if a.sameKind b then compareValues a b else some (mixed a b)

mutual

/-- Whether an expression is true of a record. -/
def condition? (mixed : Json → Json → Ordering) (record : Record) : Json → Option Bool
  | .object [(name, .array operands)] =>
    if name = "$and" then (conditions? mixed record operands).map fun answers => answers.all id
    else if name = "$not" then
      match conditions? mixed record operands with
      | some [answer] => some !answer
      | _ => none
    else match operands with
      | [left, right] => do
        let comparison ← comparisonNamed? name
        let a ← operand? record left
        let b ← operand? record right
        return comparison.holds (operandOrder mixed a b)
      | _ => none
  | _ => none

/-- Whether each of several expressions is true of a record. -/
def conditions? (mixed : Json → Json → Ordering) (record : Record) :
    List Json → Option (List Bool)
  | [] => some []
  | e :: rest => do
    let first ← condition? mixed record e
    let others ← conditions? mixed record rest
    return first :: others

end

mutual

/-- Whether a record passes a filter. -/
def filter? (mixed : Json → Json → Ordering) (record : Record) : Json → Option Bool
  | .object members => filterMembers? mixed record members
  | _ => none

/-- Whether a record passes all members of a filter. -/
def filterMembers? (mixed : Json → Json → Ordering) (record : Record) :
    List (String × Json) → Option Bool
  | [] => some true
  | (key, value) :: rest => do
    let first ←
      if key = "$and" then (branches? mixed record value).map fun answers => answers.all id
      else if key = "$or" then (branches? mixed record value).map fun answers => answers.any id
      else if key = "$expr" then condition? mixed record value
      else if plainPath key then clause? (record.lookup key) value
      else none
    let others ← filterMembers? mixed record rest
    return first && others

/-- Which of the filters in an array a record passes. There has to be one. -/
def branches? (mixed : Json → Json → Ordering) (record : Record) : Json → Option (List Bool)
  | .array [] => none
  | .array items => filters? mixed record items
  | _ => none

/-- Which of several filters a record passes. -/
def filters? (mixed : Json → Json → Ordering) (record : Record) : List Json → Option (List Bool)
  | [] => some []
  | item :: rest => do
    let first ← filter? mixed record item
    let others ← filters? mixed record rest
    return first :: others

end

/-- Whether a record matches a filter. Records with arrays are not read. -/
def matches? (mixed : Json → Json → Ordering) (record : Record) (document : Json) : Option Bool :=
  if (Json.object record).arrayFree then filter? mixed record document else none

/-- Comparisons are read by their names. -/
theorem comparisonNamed?_name (comparison : Comparison) :
    comparisonNamed? comparison.name = some comparison := by
  cases comparison <;> decide

/-- An ordering holds of values in the orders that its operator admits. -/
theorem holds_comparisonOf (op : Operator) (h : op.isOrdering = true) (a b : Json) :
    (comparisonOf op).holds (compareValues a b) = op.relates a b := by
  unfold Operator.relates
  cases op <;> try exact absurd h (by decide)
  all_goals
    cases compareValues a b with
    | none => rfl
    | some ordering => cases ordering <;> rfl

theorem holds_equal (a b : Json) :
    Comparison.equal.holds (compareValues a b) = Operator.equals.relates a b :=
  (relates_equals a b).symm

section Clauses

variable (value : Json)

/-- A clause with one test. -/
theorem clause?_test (name : String) (operand : Json) (hname : name ≠ "$not") :
    clause? value (.object [(name, operand)]) = test? value name operand [] := by
  simp only [clause?, tests?, if_neg hname]
  cases test? value name operand [] with
  | none => rfl
  | some answer => exact congrArg some (Bool.and_true answer)

theorem clause?_isNull : clause? value (.object Clause.isNull.members) = some value.isNull := by
  unfold Clause.members
  rw [clause?_test value "$eq" .null (by decide)]
  have hequal : equalTo value .null = value.isNull := by
    cases value <;> rfl
  exact congrArg some hequal

theorem clause?_isNotNull :
    clause? value (.object Clause.isNotNull.members) = some (!value.isNull) := by
  unfold Clause.members
  rw [clause?_test value "$ne" .null (by decide)]
  have hequal : equalTo value .null = value.isNull := by
    cases value <;> rfl
  exact congrArg (fun answer => some !answer) hequal

/-- A value equals a constant that is not null when an equality relates the two. -/
theorem equalTo_literal (literal : Literal) (hfinite : literal.isFinite = true) :
    equalTo value literal.toJson = Operator.equals.relates value literal.toJson := by
  unfold equalTo
  rw [isNull_toJson literal hfinite, Bool.and_false, Bool.false_or, relates_equals]

theorem any_equalTo (items : List Literal) (hfinite : items.all Literal.isFinite = true) :
    (items.map Literal.toJson).any (equalTo value) =
      items.any fun item => Operator.equals.relates value item.toJson := by
  induction items with
  | nil => rfl
  | cons item rest ih =>
      rw [List.all_cons, Bool.and_eq_true] at hfinite
      rw [List.map_cons, List.any_cons, List.any_cons, ih hfinite.2,
        equalTo_literal value item hfinite.1]

theorem clause?_isIn (items : List Literal) (hfinite : items.all Literal.isFinite = true) :
    clause? value (.object (Clause.isIn items).members) =
      some (items.any fun item => Operator.equals.relates value item.toJson) := by
  unfold Clause.members
  rw [clause?_test value "$in" _ (by decide), ← any_equalTo value items hfinite]
  rfl

theorem clause?_notIn (items : List Literal) (hfinite : items.all Literal.isFinite = true) :
    clause? value (.object (Clause.notIn items).members) =
      some (!items.any fun item => Operator.equals.relates value item.toJson) := by
  unfold Clause.members
  rw [clause?_test value "$nin" _ (by decide), ← any_equalTo value items hfinite]
  rfl

theorem clause?_compare (comparison : Comparison) (literal : Literal) :
    clause? value (.object (Clause.compare comparison literal).members) =
      some (comparison.holdsOfField value literal.toJson) := by
  unfold Clause.members
  cases comparison <;> rw [clause?_test value _ _ (by decide)] <;> rfl

/-- A regular expression matches the values in which the operator finds its text. -/
theorem clause?_regex (op : Operator) (hop : op.isPattern = true) (needle : String) :
    clause? value (.object (Clause.regex (regexPattern op needle)).members) =
      some (op.finds needle value) := by
  have htest : test? value "$regex" (.string (regexPattern op needle))
      [("$options", .string "i")] = some (op.finds needle value) := by
    cases value with
    | string s => exact regexMatches?_regexPattern op hop needle s
    | _ => rfl
  unfold Clause.members
  simp only [clause?, tests?]
  rw [if_neg (by decide), htest]
  exact congrArg some (Bool.and_true _)

/-- The contrary of a clause, with null kept out. -/
theorem clause?_exceptNull (clause : Clause) (answer : Bool)
    (h : clause? value (.object clause.members) = some answer) :
    clause? value (.object (Clause.exceptNull clause).members) =
      some (!answer && !value.isNull) := by
  have hpresent : tests? value [("$ne", .null)] = some (!value.isNull) :=
    clause?_isNotNull value
  unfold Clause.members
  rw [clause?, tests?, if_pos rfl, h, hpresent]
  · rfl
  · exact List.cons_ne_nil _ _

end Clauses

section Expressions

variable {mixed : Json → Json → Ordering} {record : Record} {e left right : Expr}

/-- A field of the record as an operand. -/
theorem operand?_field (path : String) (hpath : plainPath path = true) :
    operand? record (Expr.field path).toJson =
      some ((Json.object record).follow? (Text.dotted path)) := by
  have hchars : ("$" ++ path).toList = '$' :: path.toList := by
    rw [String.toList_append]
    rfl
  simp only [Expr.toJson, operand?, hchars, String.ofList_toList, hpath, if_true]

theorem condition?_not {answer : Bool} (h : condition? mixed record e.toJson = some answer) :
    condition? mixed record (Expr.not e).toJson = some (!answer) := by
  simp only [Expr.toJson, notJson, single, condition?, conditions?, h]
  rfl

theorem condition?_and {answers : List Bool} {operands : List Expr}
    (h : conditions? mixed record (Expr.toJsons operands) = some answers) :
    condition? mixed record (Expr.and operands).toJson = some (answers.all id) := by
  simp only [Expr.toJson, single, condition?, h, if_true, Option.map_some]

theorem conditions?_pair {f : Expr} {x y : Bool} (he : condition? mixed record e.toJson = some x)
    (hf : condition? mixed record f.toJson = some y) :
    conditions? mixed record (Expr.toJsons [e, f]) = some [x, y] := by
  simp only [Expr.toJsons, conditions?, he, hf]
  rfl

/-- A conjunction of two conditions. -/
theorem condition?_both {f : Expr} {x y : Bool} (he : condition? mixed record e.toJson = some x)
    (hf : condition? mixed record f.toJson = some y) :
    condition? mixed record (Expr.and [e, f]).toJson = some (x && y) := by
  rw [condition?_and (conditions?_pair he hf)]
  simp only [List.all_cons, List.all_nil, id, Bool.and_true]

theorem condition?_compare (comparison : Comparison) {a b : Option Json}
    (ha : operand? record left.toJson = some a) (hb : operand? record right.toJson = some b) :
    condition? mixed record (Expr.compare comparison left right).toJson =
      some (comparison.holds (operandOrder mixed a b)) := by
  have hand : comparison.name ≠ "$and" := by
    cases comparison <;> decide
  have hnot : comparison.name ≠ "$not" := by
    cases comparison <;> decide
  simp only [Expr.toJson, single, condition?, if_neg hand, if_neg hnot, comparisonNamed?_name,
    ha, hb]
  rfl

/-- The guard against null: every value but null lies above null. -/
theorem condition?_present {a : Option Json} (ha : operand? record e.toJson = some a) :
    condition? mixed record (present e).toJson = some (!(a.getD .null).isNull) := by
  have hnull : operand? record Expr.null.toJson = some (some .null) := rfl
  unfold present
  rw [condition?_compare .greater ha hnull]
  cases a with
  | none => rfl
  | some value => cases value <;> rfl

/-- Operands that are present and of one kind are in the order of their values. -/
theorem operandOrder_of_comparable {a b : Option Json}
    (hkinds : Comparable (a.getD .null) (b.getD .null))
    (hpresent : (!(a.getD .null).isNull && !(b.getD .null).isNull) = true) :
    operandOrder mixed a b = compareValues (a.getD .null) (b.getD .null) := by
  rw [Bool.and_eq_true, Bool.not_eq_true', Bool.not_eq_true'] at hpresent
  rcases hpresent with ⟨ha, hb⟩
  cases a with
  | none => exact absurd ha (by decide)
  | some a =>
      cases b with
      | none => exact absurd hb (by decide)
      | some b =>
          simp only [Option.getD_some] at ha hb hkinds ⊢
          -- Neither of the two is null, so the kinds have to be the same.
          have hsame : a.sameKind b = true := by
            rcases hkinds with hnull | hnull | hsame
            · rw [ha] at hnull
              exact absurd hnull Bool.false_ne_true
            · rw [hb] at hnull
              exact absurd hnull Bool.false_ne_true
            · exact hsame
          simp only [operandOrder, ha, hb, hsame, if_true]

end Expressions

/-- What a filter is read as on a record. -/
def FilterReads (mixed : Json → Json → Ordering) (record : Record) (f : Filter)
    (answer : Bool) : Prop :=
  filter? mixed record f.toJson = some answer

section Filters

variable {mixed : Json → Json → Ordering} {record : Record}

theorem filter?_field (path : String) (hpath : plainPath path = true) (clause : Clause)
    {answer : Bool} (h : clause? (record.lookup path) (.object clause.members) = some answer) :
    FilterReads mixed record (.field path clause) answer := by
  -- No path of a field is the name of an operator.
  have hkey : ∀ key : String, plainPath key = false → path ≠ key := by
    intro key hkey heq
    rw [heq, hkey] at hpath
    exact absurd hpath Bool.false_ne_true
  unfold FilterReads
  simp only [Filter.toJson, single, filter?, filterMembers?, if_neg (hkey "$and" (by decide)),
    if_neg (hkey "$or" (by decide)), if_neg (hkey "$expr" (by decide)), hpath, if_true, h]
  exact congrArg some (Bool.and_true answer)

theorem filter?_expr {e : Expr} {answer : Bool}
    (h : condition? mixed record e.toJson = some answer) :
    FilterReads mixed record (.expr e) answer := by
  unfold FilterReads
  have hand : "$expr" ≠ "$and" := by decide
  have hor : "$expr" ≠ "$or" := by decide
  simp only [Filter.toJson, single, filter?, filterMembers?, if_neg hand, if_neg hor, if_true, h]
  exact congrArg some (Bool.and_true answer)

/-- Filters are read one by one. -/
theorem filters?_of_forall₂ {parts : List Filter} {answers : List Bool}
    (h : List.Forall₂ (FilterReads mixed record) parts answers) :
    filters? mixed record (Filter.toJsons parts) = some answers := by
  induction h with
  | nil => rfl
  | cons hfirst _ ih =>
      unfold FilterReads at hfirst
      simp only [Filter.toJsons, filters?, hfirst, ih]
      rfl

theorem branches?_of_forall₂ {parts : List Filter} {answers : List Bool}
    (h : List.Forall₂ (FilterReads mixed record) parts answers) (hne : parts ≠ []) :
    branches? mixed record (.array (Filter.toJsons parts)) = some answers := by
  have hfilters := filters?_of_forall₂ h
  cases parts with
  | nil => exact absurd rfl hne
  | cons part rest =>
      simp only [Filter.toJsons] at hfilters ⊢
      exact hfilters

theorem filter?_and {parts : List Filter} {answers : List Bool}
    (h : branches? mixed record (.array (Filter.toJsons parts)) = some answers) :
    FilterReads mixed record (.and parts) (answers.all id) := by
  unfold FilterReads
  simp only [Filter.toJson, single, filter?, filterMembers?, if_true, h, Option.map_some]
  exact congrArg some (Bool.and_true _)

theorem filter?_or {parts : List Filter} {answers : List Bool}
    (h : branches? mixed record (.array (Filter.toJsons parts)) = some answers) :
    FilterReads mixed record (.or parts) (answers.any id) := by
  unfold FilterReads
  have hand : "$or" ≠ "$and" := by decide
  simp only [Filter.toJson, single, filter?, filterMembers?, if_neg hand, if_true, h,
    Option.map_some]
  exact congrArg some (Bool.and_true _)

end Filters

end Mongo

end Polyquery
