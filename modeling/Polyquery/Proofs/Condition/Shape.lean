import Polyquery.Proofs.Outcome
import Polyquery.Query.Prepare

/-!
# Conditions that Reach a Backend

What is known of a condition by the time a backend compiles it. The types of
conditions leave room for more than can be made: a null test with a value, a
call with too few arguments, a membership test against a single constant. Two
gates shut these out. The functions that make conditions check the number of
arguments, the number of values and the kind of value; preparing a query then
checks that lists and strings stand where an operator needs them.

`Shape` is what both gates together leave of a comparison: five forms, one for
each way in which an operator goes with its value. Every backend treats each
of them on its own, so a statement about a backend is proved form by form, and
`shape_of_checked` is the only place where the two gates are opened.

`Condition.height` is the depth that the walk over a condition reaches.
Children that are empty do not count, because the walk leaves them out.

## Main definitions

* `Expression.valid`, `SimpleCondition.Valid`, `Condition.Valid`: What the
  functions that make conditions guarantee.
* `Shape`: The forms of a comparison in a prepared query.
* `Condition.nativeFree`: No native piece is in a condition.
* `Condition.height`: The depth of a condition.

## Theorems

* `of_made`: What making a comparison checks.
* `shape_of_checked`: The form of a comparison that passes both gates.
* `check_of_prepare`, `checkValue_of_check`: What a prepared query guarantees.
-/

namespace Polyquery

mutual

/-- Whether an expression can be made: paths are not blank, and every call has as many
    arguments as its function takes. -/
def Expression.valid : Expression → Bool
  | .property path _ => !Text.isBlank path
  | .call function arguments _ =>
    function.arity.accepts arguments.length && Expression.validArguments arguments

/-- Whether the arguments of a call can be made. -/
def Expression.validArguments : List Argument → Bool
  | [] => true
  | .expression value :: rest => value.valid && Expression.validArguments rest
  | .literal _ :: rest => Expression.validArguments rest

end

/-- Whether a value can be made: the path of a property is not blank. -/
def ConditionValue.valid : ConditionValue → Bool
  | .field path => !Text.isBlank path
  | _ => true

/-- A comparison that can be made. -/
structure SimpleCondition.Valid (leaf : SimpleCondition) : Prop where
  left : leaf.left.valid = true
  value : ∀ v, leaf.value = some v → v.valid = true
  /-- The operator takes the value. -/
  suits : SimpleCondition.of leaf.left leaf.operator leaf.value = .ok leaf

/-- A condition in which every comparison can be made. -/
def Condition.Valid (c : Condition) : Prop :=
  ∀ leaf ∈ c.leaves, leaf.Valid

/-- Making a comparison leaves its parts as they are, and the operator takes the value. -/
theorem of_made (left : Expression) (op : Operator) (value : Option ConditionValue)
    (leaf : SimpleCondition) (h : SimpleCondition.of left op value = .ok leaf) :
    leaf = ⟨left, op, value⟩ ∧ op.valueCount = (if value.isSome then 1 else 0) ∧
      (∀ path, value = some (.field path) → op.takesField = true) ∧
      (∀ items, value = some (.list items) → op.takesList = true) := by
  unfold SimpleCondition.of at h
  -- With the wrong number of values nothing is made.
  by_cases hcount : (if value.isSome then 1 else 0) = op.valueCount
  · simp only [hcount, ne_eq, not_true_eq_false, if_false] at h
    refine ⟨?_, hcount.symm, ?_, ?_⟩
    · split at h
      · split at h
        · exact (Except.ok.inj h).symm
        · exact absurd h (by simp only [reduceCtorEq, not_false_eq_true])
      · split at h
        · exact (Except.ok.inj h).symm
        · exact absurd h (by simp only [reduceCtorEq, not_false_eq_true])
      · exact (Except.ok.inj h).symm
    · intro path hpath
      rw [hpath] at h
      by_cases hfield : op.takesField = true
      · exact hfield
      · simp only [hfield, Bool.false_eq_true, if_false, reduceCtorEq] at h
    · intro items hitems
      rw [hitems] at h
      by_cases hlist : op.takesList = true
      · exact hlist
      · simp only [hlist, Bool.false_eq_true, if_false, reduceCtorEq] at h
  · simp only [hcount, ne_eq, not_false_eq_true, if_true, reduceCtorEq] at h

/-- The forms of a comparison in a prepared query: an operator with a value that it can
    be compared with. -/
inductive Shape : Operator → Option ConditionValue → Prop where
  | nullTest (op : Operator) (h : op.valueCount = 0) : Shape op none
  | listTest (op : Operator) (h : op.takesList = true) (items : List Literal) :
    Shape op (some (.list items))
  | pattern (op : Operator) (h : op.isPattern = true) (text : String) :
    Shape op (some (.scalar (.string text)))
  | scalar (op : Operator) (h : op.takesField = true) (literal : Literal) :
    Shape op (some (.scalar literal))
  | field (op : Operator) (h : op.takesField = true) (path : String) :
    Shape op (some (.field path))

/-- The form of a comparison with a constant. Of the operators that take one value,
    those that take a list are shut out by the check, and a pattern has a string. -/
theorem shape_of_scalar (leaf : SimpleCondition) (literal : Literal)
    (hvalue : leaf.value = some (.scalar literal)) (hcount : leaf.operator.valueCount = 1)
    (hcheck : checkValue leaf = .ok ()) : Shape leaf.operator (some (.scalar literal)) := by
  simp only [checkValue, hvalue] at hcheck
  by_cases hlist : leaf.operator.takesList = true
  · simp only [hlist, if_true, reduceCtorEq] at hcheck
  · simp only [hlist, Bool.false_eq_true, if_false] at hcheck
    by_cases hpattern : leaf.operator.isPattern = true
    · cases literal with
      | string text => exact .pattern _ hpattern text
      | integer n => simp [hpattern, Literal.asString?] at hcheck
      | float x => simp [hpattern, Literal.asString?] at hcheck
      | boolean b => simp [hpattern, Literal.asString?] at hcheck
    · -- What is neither a null test nor a list nor a pattern is a plain comparison.
      have hfield : leaf.operator.takesField = true := by
        revert hcount hlist hpattern
        cases leaf.operator <;> decide
      exact .scalar _ hfield literal

/-- A comparison that can be made and whose value passes the check of a prepared query
    has one of the five forms. -/
theorem shape_of_checked (leaf : SimpleCondition) (hvalid : leaf.Valid)
    (hcheck : checkValue leaf = .ok ()) : Shape leaf.operator leaf.value := by
  rcases of_made _ _ _ _ hvalid.suits with ⟨_, hcount, hfield, hlist⟩
  cases hvalue : leaf.value with
  | none =>
      rw [hvalue] at hcount
      exact .nullTest _ hcount
  | some value =>
      rw [hvalue] at hcount
      cases value with
      | scalar literal => exact shape_of_scalar leaf literal hvalue hcount hcheck
      | list items => exact .listTest _ (hlist items hvalue) items
      | field path => exact .field _ (hfield path hvalue) path

/-- A prepared query has passed the check. -/
theorem check_of_prepare (q p : Query) (h : q.prepare = .ok p) : p.check = .ok () := by
  unfold Query.prepare at h
  rcases bind_eq_ok.mp h with ⟨_, hcheck, hp⟩
  have hp : q.preprocess = p := Except.ok.inj hp
  rw [← hp]
  exact hcheck

/-- A check of all comparisons is a check of each. -/
theorem checkValue_of_checkValues (leaves : List SimpleCondition)
    (h : checkValues leaves = .ok ()) : ∀ leaf ∈ leaves, checkValue leaf = .ok () := by
  induction leaves with
  | nil =>
      intro leaf hmem
      exact absurd hmem (List.not_mem_nil)
  | cons first rest ih =>
      rcases bind_eq_ok.mp h with ⟨_, hfirst, hrest⟩
      intro leaf hmem
      rcases List.mem_cons.mp hmem with heq | htail
      · rw [heq]
        exact hfirst
      · exact ih hrest leaf htail

/-- In a prepared query the value of every comparison suits its operator. -/
theorem checkValue_of_check (p : Query) (c : Condition) (hfilter : p.filter = some c)
    (h : p.check = .ok ()) : ∀ leaf ∈ c.leaves, checkValue leaf = .ok () := by
  unfold Query.check at h
  rcases bind_eq_ok.mp h with ⟨_, _, h⟩
  rcases bind_eq_ok.mp h with ⟨_, hvalues, _⟩
  have hleaves : leavesOf p.filter = c.leaves := by
    rw [hfilter, leavesOf_some]
  rw [hleaves] at hvalues
  exact checkValue_of_checkValues c.leaves hvalues

namespace Condition

mutual

/-- Whether no native piece is in a condition. -/
def nativeFree : Condition → Bool
  | .simple _ => true
  | .and children => allNativeFree children
  | .or children => allNativeFree children
  | .not child => child.nativeFree
  | .native _ => false

/-- Whether no native piece is in several conditions. -/
def allNativeFree : List Condition → Bool
  | [] => true
  | child :: rest => child.nativeFree && allNativeFree rest

end

mutual

/-- The number of nodes on the longest way that the walk takes into a condition. -/
def height : Condition → Nat
  | .simple _ => 1
  | .and children => heightAll children + 1
  | .or children => heightAll children + 1
  | .not child => child.height + 1
  | .native _ => 1

/-- The greatest height of those conditions that are not empty. -/
def heightAll : List Condition → Nat
  | [] => 0
  | child :: rest => if child.isEmpty then heightAll rest else max child.height (heightAll rest)

end

end Condition

/-- A condition with comparisons of all forms, negations and an empty part. The statements
    on all conditions are tried out on it. -/
def sampleCondition : Condition :=
  .and [
    .or [],
    .not (.or [
      .simple ⟨.property "age" none, .lesserThan, some (.scalar (.integer 18))⟩,
      .simple ⟨.property "nick" none, .isNull, none⟩]),
    .or [
      .not (.simple ⟨.property "name" none, .startsWith, some (.scalar (.string "a"))⟩),
      .simple ⟨.property "team" none, .isIn, some (.list [.integer 1, .integer 2])⟩],
    .simple ⟨.property "nick" none, .notEquals, some (.field "name")⟩]

theorem sampleCondition_valid : sampleCondition.Valid := by
  intro leaf hmem
  simp only [sampleCondition, Condition.leaves, Condition.leavesAll, List.append_nil,
    List.nil_append, List.cons_append, List.mem_cons, List.not_mem_nil, or_false] at hmem
  rcases hmem with rfl | rfl | rfl | rfl | rfl
  all_goals exact ⟨by decide, by rintro v ⟨⟩ <;> rfl, rfl⟩

end Polyquery
