import Mathlib.Data.List.Forall2
import Polyquery.Memory.Record
import Polyquery.Proofs.Condition.Comparison
import Polyquery.Proofs.Search.Wildcard

/-!
# The Meaning of Clauses in a Search Engine

Clauses are read from the documents that are sent, not from the syntax trees
they are written from, so the names of the queries and the way in which they
are nested are part of what is read. A document either matches a clause or
does not; there is no third answer. A query on a field matches values that can
be compared with the constant and compare as it asks, so it does not match
null and it does not match a value of another kind.

A query that combines others lists them by the part they have in it. All of
those that must match have to, and none of those that must not; of those that
should match, one has to, if the query says that one is the minimum. A query
that does not say so means something else and is not read.

The fields of documents are those of records, where a value that is missing
cannot be told from null. An engine takes an array for all of its items, which
memory does not, so records with arrays are not read.

## Main definitions

* `Search.fieldTest?`: The reading of a query on a field.
* `Search.clause?`: The reading of a clause.
* `Search.matches?`: Whether a record matches a clause.
* `Search.ClauseReads`: What a clause is read as.

## Theorems

* `boundNamed?_name`, `holds_boundOf`: Bounds are read by their names, and hold
  as their operators do.
* `reads_present`, `reads_term`, `reads_terms`, `reads_range`,
  `reads_wildcard`: Queries on fields.
* `reads_not`, `reads_presentExcept`, `reads_every`, `reads_any`: Queries that
  combine others.
-/

namespace Polyquery.Search

/-- The bound with a name. -/
def boundNamed? (name : String) : Option Bound :=
  if name = "gt" then some .above
  else if name = "gte" then some .atLeast
  else if name = "lt" then some .below
  else if name = "lte" then some .atMost
  else none

/-- Whether a value in some order with the limit is within the bound. -/
def Bound.holds : Bound → Ordering → Bool
  | .above, ordering => ordering == .gt
  | .atLeast, ordering => ordering == .gt || ordering == .eq
  | .below, ordering => ordering == .lt
  | .atMost, ordering => ordering == .lt || ordering == .eq

/-- A constant that fields can be compared with. -/
def constant? : Json → Option Json
  | .null | .array _ | .object _ => none
  | value => some value

/-- The constants in an array. -/
def constants? : Json → Option (List Json)
  | .array items => items.mapM constant?
  | _ => none

/-- Whether a value is within the only bound of a range. -/
def range? (value : Json) : Json → Option Bool
  | .object [(name, limit)] => do
    let bound ← boundNamed? name
    let constant ← constant? limit
    return (compareValues value constant).any bound.holds
  | _ => none

/-- Whether a value matches a pattern whatever the case of letters. What is no text
    matches none. -/
def wildcard? (value : Json) : Json → Option Bool
  | .object members =>
    match members.lookup "value", members.lookup "case_insensitive" with
    | some (.string pattern), some (.bool true) =>
      some (match value with
        | .string s =>
          wildcardHolds Text.lowerChars pattern.toList (Text.lowerChars s.toList)
        | _ => false)
    | _, _ => none
  | _ => none

/-- Whether the value of a field matches what a query asks of it. -/
def fieldTest? (value : Json) (query : String) (asked : Json) : Option Bool :=
  if query = "term" then (constant? asked).map (equalValues value)
  else if query = "terms" then
    (constants? asked).map fun constants => constants.any (equalValues value)
  else if query = "range" then range? value asked
  else if query = "wildcard" then wildcard? value asked
  else none

/-- Whether a record matches a query that combines no others. -/
def test? (record : Record) (query : String) : List (String × Json) → Option Bool
  | [] => if query = "match_all" then some true else none
  | [(key, asked)] =>
    if query = "exists" then
      match key, asked with
      | "field", .string field => some (!(record.lookup field).isNull)
      | _, _ => none
    else fieldTest? (record.lookup key) query asked
  | _ => none

/-- Whether one is given as the least number of clauses that should match. -/
def minimumIsOne (members : List (String × Json)) : Bool :=
  match members.lookup "minimum_should_match" with
  | some minimum => minimum.toInt64? == some 1
  | none => false

/-- Whether the clauses with a part in a combined query match as they have to. -/
def partHolds? (members : List (String × Json)) (part : String) (answers : List Bool) :
    Option Bool :=
  if part = "must" ∨ part = "filter" then some (answers.all id)
  else if part = "must_not" then some (!answers.any id)
  else if part = "should" ∧ minimumIsOne members = true then some (answers.any id)
  else none

mutual

/-- Whether a record matches a clause. -/
def clause? (record : Record) : Json → Option Bool
  | .object [(query, .object members)] =>
    if query = "bool" then parts? record members members else test? record query members
  | _ => none

/-- Whether a record matches some of the parts of a combined query, whose members are all
    given. -/
def parts? (record : Record) (members : List (String × Json)) :
    List (String × Json) → Option Bool
  | [] => some true
  | (part, .array clauses) :: rest => do
    let answers ← clauses? record clauses
    let first ← partHolds? members part answers
    let others ← parts? record members rest
    return first && others
  | (option, _) :: rest =>
    if option = "minimum_should_match" then parts? record members rest else none

/-- Which of several clauses a record matches. -/
def clauses? (record : Record) : List Json → Option (List Bool)
  | [] => some []
  | clause :: rest => do
    let first ← clause? record clause
    let others ← clauses? record rest
    return first :: others

end

/-- Whether a record matches a clause. Records with arrays are not read. -/
def matches? (record : Record) (document : Json) : Option Bool :=
  if (Json.object record).arrayFree then clause? record document else none

/-- What a clause is read as on a record. -/
def ClauseReads (record : Record) (clause : Clause) (answer : Bool) : Prop :=
  clause? record clause.toJson = some answer

/-- Bounds are read by their names. -/
theorem boundNamed?_name (bound : Bound) : boundNamed? bound.name = some bound := by
  cases bound <;> decide

/-- The bound of an ordering holds where the ordering does. -/
theorem holds_boundOf (op : Operator) (h : op.isOrdering = true) (value limit : Json) :
    (compareValues value limit).any (boundOf op).holds = op.relates value limit := by
  unfold Operator.relates
  cases compareValues value limit with
  | none => rfl
  | some ordering =>
      cases op <;> try exact absurd h (by decide)
      all_goals cases ordering <;> rfl

/-- A constant of a query has a value that fields can be compared with. -/
theorem constant?_toJson (literal : Literal) (h : literal.isFinite = true) :
    constant? literal.toJson = some literal.toJson := by
  cases literal with
  | string s => rfl
  | integer n => rfl
  | boolean b => rfl
  | float x =>
      simp only [Literal.isFinite] at h
      simp only [Literal.toJson, Json.ofFloat, h, if_true]
      rfl

theorem constants?_toJson (items : List Literal) (h : items.all Literal.isFinite = true) :
    constants? (.array (items.map Literal.toJson)) = some (items.map Literal.toJson) := by
  unfold constants?
  induction items with
  | nil => rfl
  | cons item rest ih =>
      rw [List.all_cons, Bool.and_eq_true] at h
      simp only [List.map_cons, List.mapM_cons, constant?_toJson item h.1, ih h.2]
      rfl

section Clauses

variable {record : Record} (field : String)

/-- A query on a field is a test of the value of the field. -/
theorem clause?_fieldTest (query : String) (hbool : query ≠ "bool") (hexists : query ≠ "exists")
    (asked : Json) :
    clause? record (single query (single field asked)) =
      fieldTest? (record.lookup field) query asked := by
  simp only [single, clause?, if_neg hbool, test?, if_neg hexists]

theorem clause?_presentJson :
    clause? record (presentJson field) = some (!(record.lookup field).isNull) :=
  rfl

/-- A record matches the test for presence when the field is not null. -/
theorem reads_present : ClauseReads record (.present field) (!(record.lookup field).isNull) :=
  clause?_presentJson field

theorem reads_term (literal : Literal) (hfinite : literal.isFinite = true) :
    ClauseReads record (.term field literal)
      (Operator.equals.relates (record.lookup field) literal.toJson) := by
  unfold ClauseReads Clause.toJson
  rw [clause?_fieldTest field "term" (by decide) (by decide), relates_equals]
  simp only [fieldTest?, if_true, constant?_toJson literal hfinite, Option.map_some]

theorem reads_terms (items : List Literal) (hfinite : items.all Literal.isFinite = true) :
    ClauseReads record (.terms field items)
      (items.any fun item => Operator.equals.relates (record.lookup field) item.toJson) := by
  unfold ClauseReads Clause.toJson
  rw [clause?_fieldTest field "terms" (by decide) (by decide), fieldTest?, if_neg (by decide),
    if_pos rfl, constants?_toJson items hfinite, Option.map_some, List.any_map]
  simp only [Function.comp_def, relates_equals]

theorem reads_range (op : Operator) (h : op.isOrdering = true) (literal : Literal)
    (hfinite : literal.isFinite = true) :
    ClauseReads record (.range field (boundOf op) literal)
      (op.relates (record.lookup field) literal.toJson) := by
  unfold ClauseReads Clause.toJson
  rw [clause?_fieldTest field "range" (by decide) (by decide), fieldTest?, if_neg (by decide),
    if_neg (by decide), if_pos rfl]
  simp only [single, range?, boundNamed?_name, constant?_toJson literal hfinite,
    ← holds_boundOf op h]
  rfl

/-- A record matches the pattern of an operator when the operator finds the text in the
    field. -/
theorem reads_wildcard (op : Operator) (h : op.isPattern = true) (needle : String) :
    ClauseReads record (.wildcard field (wildcardPattern op needle))
      (op.finds needle (record.lookup field)) := by
  unfold ClauseReads Clause.toJson
  rw [clause?_fieldTest field "wildcard" (by decide) (by decide), fieldTest?, if_neg (by decide),
    if_neg (by decide), if_neg (by decide), if_pos rfl]
  -- On both sides only a text can match, so the other kinds of value come down to `false`.
  cases record.lookup field with
  | string s =>
      have hmatch := wildcardHolds_wildcardPattern Text.lowerChars rfl op h needle
        (Text.lowerChars s.toList)
      exact congrArg some hmatch
  | _ => rfl

/-- Clauses are read one by one. -/
theorem clauses?_of_forall₂ {parts : List Clause} {answers : List Bool}
    (h : List.Forall₂ (ClauseReads record) parts answers) :
    clauses? record (Clause.toJsons parts) = some answers := by
  induction h with
  | nil => rfl
  | cons hfirst _ ih =>
      unfold ClauseReads at hfirst
      simp only [Clause.toJsons, clauses?, hfirst, ih]
      rfl

theorem reads_not {clause : Clause} {answer : Bool} (h : ClauseReads record clause answer) :
    ClauseReads record (.not clause) (!answer) := by
  unfold ClauseReads at h ⊢
  simp only [Clause.toJson, combined, single, clause?, parts?, clauses?, h, if_true]
  cases answer <;> rfl

/-- The contrary of a clause, with null kept out. -/
theorem reads_presentExcept {clause : Clause} {answer : Bool}
    (h : ClauseReads record clause answer) :
    ClauseReads record (.presentExcept field clause)
      (!(record.lookup field).isNull && !answer) := by
  unfold ClauseReads at h ⊢
  -- The field is listed among the clauses that have to match, as a filter.
  simp only [Clause.toJson, combined, single, clause?, parts?, clauses?, clause?_presentJson, h,
    if_true]
  cases (record.lookup field).isNull <;> cases answer <;> rfl

theorem reads_every {parts : List Clause} {answers : List Bool}
    (h : List.Forall₂ (ClauseReads record) parts answers) :
    ClauseReads record (.every parts) (answers.all id) := by
  unfold ClauseReads
  simp only [Clause.toJson, combined, single, clause?, parts?, clauses?_of_forall₂ h, if_true]
  exact congrArg some (Bool.and_true _)

theorem reads_any {parts : List Clause} {answers : List Bool}
    (h : List.Forall₂ (ClauseReads record) parts answers) :
    ClauseReads record (.any parts) (answers.any id) := by
  unfold ClauseReads
  simp only [Clause.toJson, combined, single, clause?, parts?, clauses?_of_forall₂ h, if_true]
  exact congrArg some (Bool.and_true _)

end Clauses

end Polyquery.Search
