import Polyquery.Proofs.Condition.Shape

/-!
# Parts of Expressions

An expression has parts: itself, and the parts of its arguments. Whatever an
expression reads, its parts read no more, and a part of an expression that can
be made can be made. The outermost aggregate calls of an expression are parts
of it, and it has some exactly when it has an aggregate function at all.

## Main definitions

* `Function.readsClock`, `Expression.readsClock`, `Expression.literals`: What an
  expression holds besides its paths.
* `Expression.PartOf`: The parts of an expression.

## Theorems

* `PartOf.valid`, `PartOf.paths`, `PartOf.literals`: What holds of the parts of
  an expression.
* `aggregateCalls_partOf`, `aggregateCalls_aggregate`: Aggregate calls.
* `aggregateCalls_eq_nil_iff`: Expressions without them.
-/

namespace Polyquery

/-- Whether a function reads the clock. -/
def Function.readsClock (function : Function) : Bool :=
  function.category == .dateTime

namespace Expression

mutual

/-- Whether the clock is read in an expression. -/
def readsClock : Expression → Bool
  | .property _ _ => false
  | .call function arguments _ => function.readsClock || argumentsReadClock arguments

/-- Whether the clock is read in the arguments of a call. -/
def argumentsReadClock : List Argument → Bool
  | [] => false
  | .expression value :: rest => value.readsClock || argumentsReadClock rest
  | .literal _ :: rest => argumentsReadClock rest

end

mutual

/-- The constants in an expression. -/
def literals : Expression → List Literal
  | .property _ _ => []
  | .call _ arguments _ => argumentLiterals arguments

/-- The constants in the arguments of a call. -/
def argumentLiterals : List Argument → List Literal
  | [] => []
  | .expression value :: rest => value.literals ++ argumentLiterals rest
  | .literal value :: rest => value :: argumentLiterals rest

end

/-- The parts of an expression. -/
inductive PartOf (part : Expression) : Expression → Prop where
  | self : PartOf part part
  | argument (function : Function) (arguments : List Argument) (label : Option String)
    (value : Expression) (hmem : .expression value ∈ arguments) (h : PartOf part value) :
    PartOf part (.call function arguments label)

theorem valid_argument (arguments : List Argument) (value : Expression)
    (h : validArguments arguments = true) (hmem : .expression value ∈ arguments) :
    value.valid = true := by
  induction arguments with
  | nil => exact absurd hmem List.not_mem_nil
  | cons argument rest ih =>
      cases argument with
      | expression first =>
          simp only [validArguments, Bool.and_eq_true] at h
          rcases List.mem_cons.mp hmem with heq | htail
          · rw [Argument.expression.inj heq]
            exact h.1
          · exact ih h.2 htail
      | literal first =>
          simp only [validArguments] at h
          rcases List.mem_cons.mp hmem with heq | htail
          · exact absurd heq (by simp only [reduceCtorEq, not_false_eq_true])
          · exact ih h htail

theorem paths_argument (arguments : List Argument) (value : Expression)
    (hmem : .expression value ∈ arguments) : value.paths ⊆ argumentPaths arguments := by
  induction arguments with
  | nil => exact absurd hmem List.not_mem_nil
  | cons argument rest ih =>
      rcases List.mem_cons.mp hmem with heq | htail
      · rw [← heq]
        exact List.subset_append_left _ _
      · cases argument with
        | expression first => exact fun path hpath => List.mem_append_right _ (ih htail hpath)
        | literal first => exact ih htail

theorem literals_argument (arguments : List Argument) (value : Expression)
    (hmem : .expression value ∈ arguments) : value.literals ⊆ argumentLiterals arguments := by
  induction arguments with
  | nil => exact absurd hmem List.not_mem_nil
  | cons argument rest ih =>
      rcases List.mem_cons.mp hmem with heq | htail
      · rw [← heq]
        exact List.subset_append_left _ _
      · cases argument with
        | expression first => exact fun l hl => List.mem_append_right _ (ih htail hl)
        | literal first => exact fun l hl => List.mem_cons_of_mem _ (ih htail hl)

namespace PartOf

variable {part x : Expression} (h : PartOf part x)

include h

/-- A part of an expression that can be made can be made. -/
theorem valid (hx : x.valid = true) : part.valid = true := by
  induction h with
  | self => exact hx
  | argument function arguments label value hmem _ ih =>
      simp only [Expression.valid, Bool.and_eq_true] at hx
      exact ih (valid_argument arguments value hx.2 hmem)

/-- A part of an expression reads no other properties. -/
theorem paths : part.paths ⊆ x.paths := by
  induction h with
  | self => exact List.Subset.refl _
  | argument function arguments label value hmem _ ih =>
      exact List.Subset.trans ih (paths_argument arguments value hmem)

/-- A part of an expression has no other constants. -/
theorem literals : part.literals ⊆ x.literals := by
  induction h with
  | self => exact List.Subset.refl _
  | argument function arguments label value hmem _ ih =>
      exact List.Subset.trans ih (literals_argument arguments value hmem)

end PartOf

mutual

/-- The aggregate calls of an expression are parts of it. -/
theorem aggregateCalls_partOf :
    ∀ (x found : Expression), found ∈ x.aggregateCalls → PartOf found x
  | .property _ _, _, hmem => absurd hmem List.not_mem_nil
  | .call function arguments label, found, hmem => by
      simp only [aggregateCalls] at hmem
      split at hmem
      · rw [List.mem_singleton.mp hmem]
        exact .self
      · rcases argumentAggregateCalls_partOf arguments found hmem with ⟨value, hvalue, hpart⟩
        exact .argument function arguments label value hvalue hpart

/-- The aggregate calls of the arguments of a call are parts of an argument. -/
theorem argumentAggregateCalls_partOf :
    ∀ (arguments : List Argument) (found : Expression),
      found ∈ argumentAggregateCalls arguments →
      ∃ value, .expression value ∈ arguments ∧ PartOf found value
  | [], _, hmem => absurd hmem List.not_mem_nil
  | .expression value :: rest, found, hmem => by
      rcases List.mem_append.mp hmem with hfirst | hrest
      · exact ⟨value, List.mem_cons_self, aggregateCalls_partOf value found hfirst⟩
      · rcases argumentAggregateCalls_partOf rest found hrest with ⟨other, hother, hpart⟩
        exact ⟨other, List.mem_cons_of_mem _ hother, hpart⟩
  | .literal value :: rest, found, hmem => by
      rcases argumentAggregateCalls_partOf rest found hmem with ⟨other, hother, hpart⟩
      exact ⟨other, List.mem_cons_of_mem _ hother, hpart⟩

end

mutual

/-- An aggregate call calls an aggregate function. -/
theorem aggregateCalls_aggregate :
    ∀ (x found : Expression), found ∈ x.aggregateCalls →
      ∃ function arguments label, found = .call function arguments label ∧
        function.isAggregate = true
  | .property _ _, _, hmem => absurd hmem List.not_mem_nil
  | .call function arguments label, found, hmem => by
      simp only [aggregateCalls] at hmem
      split at hmem
      · rename_i haggregate
        exact ⟨function, arguments, label, List.mem_singleton.mp hmem, haggregate⟩
      · exact argumentAggregateCalls_aggregate arguments found hmem

/-- So does an aggregate call in the arguments of a call. -/
theorem argumentAggregateCalls_aggregate :
    ∀ (arguments : List Argument) (found : Expression),
      found ∈ argumentAggregateCalls arguments →
      ∃ function arguments label, found = .call function arguments label ∧
        function.isAggregate = true
  | [], _, hmem => absurd hmem List.not_mem_nil
  | .expression value :: rest, found, hmem => by
      rcases List.mem_append.mp hmem with hfirst | hrest
      · exact aggregateCalls_aggregate value found hfirst
      · exact argumentAggregateCalls_aggregate rest found hrest
  | .literal value :: rest, found, hmem => argumentAggregateCalls_aggregate rest found hmem

end

mutual

/-- An expression without aggregate calls has no aggregate function in it. -/
theorem aggregateCalls_eq_nil_iff :
    ∀ x : Expression, x.aggregateCalls = [] ↔ x.aggregate? = none
  | .property _ _ => by simp only [aggregateCalls, aggregate?]
  | .call function arguments label => by
      simp only [aggregateCalls, aggregate?]
      split
      · simp only [List.cons_ne_self, reduceCtorEq]
      · exact argumentAggregateCalls_eq_nil_iff arguments

/-- Arguments without aggregate calls have no aggregate function in them. -/
theorem argumentAggregateCalls_eq_nil_iff :
    ∀ arguments : List Argument,
      argumentAggregateCalls arguments = [] ↔ argumentAggregate? arguments = none
  | [] => by simp only [argumentAggregateCalls, argumentAggregate?]
  | .expression value :: rest => by
      simp only [argumentAggregateCalls, argumentAggregate?, List.append_eq_nil_iff,
        aggregateCalls_eq_nil_iff value, argumentAggregateCalls_eq_nil_iff rest]
      cases value.aggregate? with
      | none => simp only [true_and]
      | some function => simp only [reduceCtorEq, false_and]
  | .literal value :: rest => by
      simp only [argumentAggregateCalls, argumentAggregate?]
      exact argumentAggregateCalls_eq_nil_iff rest

end

end Expression

end Polyquery
