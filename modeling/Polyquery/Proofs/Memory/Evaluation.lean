import Polyquery.Memory.Evaluation
import Polyquery.Proofs.Backend.Functions
import Polyquery.Proofs.Expression.Text

/-!
# Evaluation of Valid Expressions

Every expression that can be made has an evaluator. The memory backend knows
all functions, so a call can only fail on the number of its arguments, and
that number is what the making of a call has checked. What has to be seen is
that the two places agree: each handler of the table takes exactly the numbers
of arguments that the function allows. `Takes` says so of one handler, and
`evaluation_takes` goes through the table.

## Main definitions

* `Expression.valueOn`, `Argument.valueOn`: The value of an expression on a group of
  records.
* `Argument.presentOn`: What an aggregate ranges over.
* `FunctionHandler.Computes`: A handler that computes a function of values.
* `Evaluator.Hereditary`: A property of evaluators that calls keep.

## Theorems

* `evaluation_takes`: Every function has a handler that takes its arguments.
* `evaluator_of_valid`: An expression that can be made has an evaluator.
* `valueOn_eq`: The evaluator yields the value of the expression.
* `presentOn_perm`: An aggregate ranges over the same in any order.
* `valueOn_aggregate`: The value of an aggregate.
* `valueOn_call`: The value of a call is computed from the values of its arguments.
* `evaluation_cases`: All functions but the aggregates compute a function of values.
* `evaluator_has`: A hereditary property of the evaluator of an expression.
-/

namespace Polyquery

theorem unary_takes (f : Json → Json) : (Evaluator.unary f).Takes (.exactly 1) :=
  takes_one fun _ _ => ⟨_, rfl⟩

theorem binary_takes (f : Json → Json → Json) : (Evaluator.binary f).Takes (.exactly 2) :=
  takes_two fun _ _ _ => ⟨_, rfl⟩

theorem ternary_takes (f : Json → Json → Json → Json) :
    (Evaluator.ternary f).Takes (.exactly 3) :=
  takes_three fun _ _ _ _ => ⟨_, rfl⟩

theorem variadic_takes (f : List Json → Json) (arity : Arity) :
    (Evaluator.variadic f).Takes arity :=
  fun _ _ _ => ⟨_, rfl⟩

theorem fixed_takes (value : String) (arity : Arity) : (Evaluator.fixed value).Takes arity :=
  fun _ _ _ => ⟨_, rfl⟩

theorem aggregate_takes (reduce : List Json → Json) :
    (Evaluator.aggregate reduce).Takes (.exactly 1) :=
  takes_one fun _ _ => ⟨_, rfl⟩

/-- Every function has a handler, and the handler takes the arguments of the function. -/
theorem evaluation_takes (clock : Clock) (function : Function) :
    ∃ handler, (evaluationTable clock).handlers.lookup function = some handler ∧
      handler.Takes function.arity := by
  cases function with
  | abs => exact ⟨_, rfl, unary_takes _⟩
  | sqrt => exact ⟨_, rfl, unary_takes _⟩
  | mod => exact ⟨_, rfl, binary_takes _⟩
  | concat => exact ⟨_, rfl, variadic_takes _ _⟩
  | substring => exact ⟨_, rfl, ternary_takes _⟩
  | trim => exact ⟨_, rfl, unary_takes _⟩
  | ltrim => exact ⟨_, rfl, unary_takes _⟩
  | rtrim => exact ⟨_, rfl, unary_takes _⟩
  | length => exact ⟨_, rfl, unary_takes _⟩
  | locate => exact ⟨_, rfl, binary_takes _⟩
  | lower => exact ⟨_, rfl, unary_takes _⟩
  | upper => exact ⟨_, rfl, unary_takes _⟩
  | currentDate => exact ⟨_, rfl, fixed_takes _ _⟩
  | currentTime => exact ⟨_, rfl, fixed_takes _ _⟩
  | currentTimestamp => exact ⟨_, rfl, fixed_takes _ _⟩
  | coalesce => exact ⟨_, rfl, variadic_takes _ _⟩
  | nullif => exact ⟨_, rfl, binary_takes _⟩
  | count => exact ⟨_, rfl, aggregate_takes _⟩
  | sum => exact ⟨_, rfl, aggregate_takes _⟩
  | avg => exact ⟨_, rfl, aggregate_takes _⟩
  | min => exact ⟨_, rfl, aggregate_takes _⟩
  | max => exact ⟨_, rfl, aggregate_takes _⟩

/-- A call with an allowed number of arguments has an evaluator. -/
theorem apply_of_accepts (clock : Clock) (function : Function) (arguments : List Evaluator)
    (h : function.arity.accepts arguments.length = true) :
    ∃ f, (evaluationTable clock).apply function arguments = .ok f :=
  apply_of_takes (evaluation_takes clock) function arguments h

namespace Expression

mutual

/-- An expression that can be made has an evaluator. -/
theorem evaluator_of_valid (clock : Clock) :
    ∀ e : Expression, e.valid = true → ∃ f, e.evaluator clock = .ok f
  | .property path label, _ => by
      exact ⟨_, by simp only [evaluator]; rfl⟩
  | .call function arguments label, h => by
      simp only [valid, Bool.and_eq_true] at h
      rcases h with ⟨haccepts, harguments⟩
      rcases argumentEvaluators_of_valid clock arguments harguments with ⟨fs, hfs, hlength⟩
      rw [← hlength] at haccepts
      rcases apply_of_accepts clock function fs haccepts with ⟨f, hf⟩
      refine ⟨f, ?_⟩
      simp only [evaluator, hfs, ok_bind]
      exact hf

/-- The arguments of a call that can be made have evaluators, one each. -/
theorem argumentEvaluators_of_valid (clock : Clock) :
    ∀ arguments : List Argument, validArguments arguments = true →
      ∃ fs, argumentEvaluators clock arguments = .ok fs ∧ fs.length = arguments.length
  | [], _ => by
      exact ⟨[], by simp only [argumentEvaluators], rfl⟩
  | .expression value :: rest, h => by
      simp only [validArguments, Bool.and_eq_true] at h
      rcases evaluator_of_valid clock value h.1 with ⟨f, hf⟩
      rcases argumentEvaluators_of_valid clock rest h.2 with ⟨fs, hfs, hlength⟩
      refine ⟨f :: fs, ?_, ?_⟩
      · simp only [argumentEvaluators, hf, hfs, ok_bind]
        rfl
      · rw [List.length_cons, List.length_cons, hlength]
  | .literal value :: rest, h => by
      simp only [validArguments] at h
      rcases argumentEvaluators_of_valid clock rest h with ⟨fs, hfs, hlength⟩
      refine ⟨.constant value.toJson :: fs, ?_, ?_⟩
      · simp only [argumentEvaluators, hfs, ok_bind]
        rfl
      · rw [List.length_cons, List.length_cons, hlength]

end

/-- The value of an expression on a group of records. An expression that cannot be made
    has none, for which null stands. -/
def valueOn (clock : Clock) (rows : Rows) (e : Expression) : Json :=
  match e.evaluator clock with
  | .ok f => f rows
  | .error _ => .null

/-- The evaluator of an expression yields its value. -/
theorem valueOn_eq (clock : Clock) (rows : Rows) (e : Expression) (f : Evaluator)
    (h : e.evaluator clock = .ok f) : f rows = e.valueOn clock rows := by
  unfold valueOn
  rw [h]

/-- The value of a property is the value at its path. -/
theorem valueOn_property (clock : Clock) (rows : Rows) (path : String) (label : Option String) :
    (Expression.property path label).valueOn clock rows = rows.current.lookup path := by
  simp only [valueOn, evaluator]

end Expression

namespace Argument

/-- The value of an argument on a group of records. -/
def valueOn (clock : Clock) (rows : Rows) : Argument → Json
  | .expression value => value.valueOn clock rows
  | .literal value => value.toJson

/-- The values of an argument on the records of a group, each by itself, without nulls. -/
def presentOn (clock : Clock) (argument : Argument) (group : List Record) : List Json :=
  (group.map fun record => argument.valueOn clock (.single record)).filter fun value =>
    !value.isNull

/-- The records of a group in another order have the same values in another order. -/
theorem presentOn_perm (clock : Clock) (argument : Argument) {group others : List Record}
    (h : others.Perm group) :
    (argument.presentOn clock others).Perm (argument.presentOn clock group) :=
  (h.map _).filter _

theorem presentOn_present (clock : Clock) (argument : Argument) (group : List Record) :
    ∀ value ∈ argument.presentOn clock group, value.isNull = false := by
  intro value hvalue
  rw [← Bool.not_eq_true']
  exact (List.mem_filter.mp hvalue).2

/-- An argument that can be made has an evaluator, which yields its value. -/
theorem evaluators_of_valid (clock : Clock) (argument : Argument)
    (h : Expression.validArguments [argument] = true) :
    ∃ f, Expression.argumentEvaluators clock [argument] = .ok [f] ∧
      ∀ rows, f rows = argument.valueOn clock rows := by
  cases argument with
  | expression value =>
      simp only [Expression.validArguments, Bool.and_eq_true, and_true] at h
      rcases Expression.evaluator_of_valid clock value h with ⟨f, hf⟩
      refine ⟨f, ?_, fun rows => Expression.valueOn_eq clock rows value f hf⟩
      simp only [Expression.argumentEvaluators, hf, ok_bind]
      rfl
  | literal value => exact ⟨.constant value.toJson, rfl, fun _ => rfl⟩

end Argument

/-- An aggregate reduces the values of its argument on the group. -/
theorem Expression.valueOn_aggregate (clock : Clock) (function : Function)
    (reduce : List Json → Json)
    (hhandler : (evaluationTable clock).handlers.lookup function =
      some (Evaluator.aggregate reduce))
    (argument : Argument) (hvalid : Expression.validArguments [argument] = true)
    (label : Option String) (on : Rows) :
    (Expression.call function [argument] label).valueOn clock on =
      reduce (argument.presentOn clock on.group) := by
  rcases Argument.evaluators_of_valid clock argument hvalid with ⟨f, hf, hvalue⟩
  have hevaluator : (Expression.call function [argument] label).evaluator clock =
      .ok fun rows => reduce (f.valuesOn rows.group) := by
    rw [Expression.evaluator, hf, ok_bind, FunctionTable.apply, hhandler]
    rfl
  rw [← Expression.valueOn_eq clock on _ _ hevaluator, Argument.presentOn, Evaluator.valuesOn]
  simp only [hvalue]

/-- A handler computes a function of the values of its arguments. -/
def FunctionHandler.Computes (handler : FunctionHandler Evaluator) (f : List Json → Json) : Prop :=
  ∀ function arguments e, handler function arguments = .ok e →
    ∀ rows, e rows = f (arguments.map fun a => a rows)

theorem unary_computes (f : Json → Json) : (Evaluator.unary f).Computes fun
    | [a] => f a
    | _ => .null := by
  intro function arguments e h rows
  rcases bind_eq_ok.mp h with ⟨a, harguments, he⟩
  rw [one_eq_ok.mp harguments, ← Except.ok.inj he]
  rfl

theorem binary_computes (f : Json → Json → Json) : (Evaluator.binary f).Computes fun
    | [a, b] => f a b
    | _ => .null := by
  intro function arguments e h rows
  rcases bind_eq_ok.mp h with ⟨⟨a, b⟩, harguments, he⟩
  rw [two_eq_ok.mp harguments, ← Except.ok.inj he]
  rfl

theorem ternary_computes (f : Json → Json → Json → Json) : (Evaluator.ternary f).Computes fun
    | [a, b, c] => f a b c
    | _ => .null := by
  intro function arguments e h rows
  rcases bind_eq_ok.mp h with ⟨⟨a, b, c⟩, harguments, he⟩
  rw [three_eq_ok.mp harguments, ← Except.ok.inj he]
  rfl

theorem variadic_computes (f : List Json → Json) : (Evaluator.variadic f).Computes f := by
  intro function arguments e h rows
  rw [← Except.ok.inj h]

theorem fixed_computes (value : String) :
    (Evaluator.fixed value).Computes fun _ => .string value := by
  intro function arguments e h rows
  rw [← Except.ok.inj h]
  rfl

/-- A function computes its value from the values of its arguments, or it is an aggregate. -/
theorem evaluation_cases (clock : Clock) :
    ∀ entry ∈ (evaluationTable clock).handlers,
      (entry.1.isAggregate = false ∧ ∃ f, FunctionHandler.Computes entry.2 f) ∨
      (entry.1.isAggregate = true ∧ ∃ reduce, entry.2 = Evaluator.aggregate reduce) := by
  intro entry hmem
  replace hmem := List.mem_reverse.mp hmem
  revert entry
  simp only [List.forall_mem_cons]
  -- The five aggregates are at the end of the table; the others compute value by value.
  refine ⟨?_, ?_, ?_, ?_, ?_, ?_, ?_, ?_, ?_, ?_, ?_, ?_, ?_, ?_, ?_, ?_, ?_, .inr ⟨rfl, _, rfl⟩,
    .inr ⟨rfl, _, rfl⟩, .inr ⟨rfl, _, rfl⟩, .inr ⟨rfl, _, rfl⟩, .inr ⟨rfl, _, rfl⟩,
    fun entry hentry => absurd hentry List.not_mem_nil⟩
  · exact .inl ⟨rfl, _, unary_computes _⟩
  · exact .inl ⟨rfl, _, unary_computes _⟩
  · exact .inl ⟨rfl, _, binary_computes _⟩
  · exact .inl ⟨rfl, _, variadic_computes _⟩
  · exact .inl ⟨rfl, _, ternary_computes _⟩
  · exact .inl ⟨rfl, _, unary_computes _⟩
  · exact .inl ⟨rfl, _, unary_computes _⟩
  · exact .inl ⟨rfl, _, unary_computes _⟩
  · exact .inl ⟨rfl, _, unary_computes _⟩
  · exact .inl ⟨rfl, _, binary_computes _⟩
  · exact .inl ⟨rfl, _, unary_computes _⟩
  · exact .inl ⟨rfl, _, unary_computes _⟩
  · exact .inl ⟨rfl, _, fixed_computes _⟩
  · exact .inl ⟨rfl, _, fixed_computes _⟩
  · exact .inl ⟨rfl, _, fixed_computes _⟩
  · exact .inl ⟨rfl, _, variadic_computes _⟩
  · exact .inl ⟨rfl, _, binary_computes _⟩

/-- A property of evaluators that constants have and that the calls of some functions keep. -/
structure Evaluator.Hereditary (clock : Clock) (allowed : Function → Prop)
    (P : Evaluator → Prop) : Prop where
  constant : ∀ literal : Literal, P (.constant literal.toJson)
  call : ∀ entry ∈ (evaluationTable clock).handlers, allowed entry.1 →
    FunctionHandler.Keeps entry.2 P

/-- Arguments can be made when each of them can. -/
theorem validArguments_cons {first : Argument} {rest : List Argument} :
    Expression.validArguments (first :: rest) = true ↔
      Expression.validArguments [first] = true ∧ Expression.validArguments rest = true := by
  cases first with
  | expression value => simp only [Expression.validArguments, Bool.and_true, Bool.and_eq_true]
  | literal value => simp only [Expression.validArguments, true_and]

namespace Expression

/-- The evaluators of arguments that can be made yield the values of the arguments. -/
theorem argumentEvaluators_yield (clock : Clock) (rows : Rows) :
    ∀ (arguments : List Argument) (fs : List Evaluator),
      argumentEvaluators clock arguments = .ok fs →
      (fs.map fun f => f rows) = arguments.map (Argument.valueOn clock rows)
  | [], fs, h => by
      rw [argumentEvaluators, Except.ok.injEq] at h
      rw [← h]
      rfl
  | .expression value :: rest, fs, h => by
      rw [argumentEvaluators] at h
      rcases bind_eq_ok.mp h with ⟨f, hf, hrest⟩
      rcases bind_eq_ok.mp hrest with ⟨others, hothers, hfs⟩
      rw [← Except.ok.inj hfs, List.map_cons, List.map_cons, valueOn_eq clock rows value f hf,
        argumentEvaluators_yield clock rows rest others hothers]
      rfl
  | .literal value :: rest, fs, h => by
      rw [argumentEvaluators] at h
      rcases bind_eq_ok.mp h with ⟨others, hothers, hfs⟩
      rw [← Except.ok.inj hfs, List.map_cons, List.map_cons,
        argumentEvaluators_yield clock rows rest others hothers]
      rfl

/-- The value of a call that can be made is computed from the values of its arguments. -/
theorem valueOn_call (clock : Clock) {function : Function} {handler : FunctionHandler Evaluator}
    {f : List Json → Json}
    (hhandler : (evaluationTable clock).handlers.lookup function = some handler)
    (hcomputes : handler.Computes f) (arguments : List Argument) (label : Option String)
    (hvalid : (Expression.call function arguments label).valid = true) (rows : Rows) :
    (Expression.call function arguments label).valueOn clock rows =
      f (arguments.map (Argument.valueOn clock rows)) := by
  rcases evaluator_of_valid clock _ hvalid with ⟨e, he⟩
  rw [← valueOn_eq clock rows _ e he]
  rw [evaluator] at he
  rcases bind_eq_ok.mp he with ⟨fs, hfs, happly⟩
  rw [FunctionTable.apply, hhandler] at happly
  rw [hcomputes function fs e happly rows, argumentEvaluators_yield clock rows arguments fs hfs]

section Properties

variable {clock : Clock} {allowed : Function → Prop} {P : Evaluator → Prop}
  (hereditary : Evaluator.Hereditary clock allowed P)

include hereditary

mutual

/-- The evaluator of an expression has a hereditary property if those of its paths have it and its
    functions are allowed. -/
theorem evaluator_has : ∀ (x : Expression) (f : Evaluator),
    (∀ path ∈ x.paths, P fun rows => rows.current.lookup path) →
    (∀ function ∈ x.functions, allowed function) → x.evaluator clock = .ok f → P f
  | .property path label, f, hpaths, _, h => by
      rw [evaluator] at h
      rw [← Except.ok.inj h]
      exact hpaths path (List.mem_singleton.mpr rfl)
  | .call function arguments label, f, hpaths, hfunctions, h => by
      rw [evaluator] at h
      rw [functions, List.forall_mem_cons] at hfunctions
      rcases bind_eq_ok.mp h with ⟨fs, hfs, happly⟩
      rcases apply_entry happly with ⟨entry, hmem, hentry, hhandler⟩
      refine hereditary.call entry hmem (hentry ▸ hfunctions.1) entry.1 fs f ?_ hhandler
      exact argumentEvaluators_have arguments fs hpaths hfunctions.2 hfs

theorem argumentEvaluators_have : ∀ (arguments : List Argument) (fs : List Evaluator),
    (∀ path ∈ argumentPaths arguments, P fun rows => rows.current.lookup path) →
    (∀ function ∈ argumentFunctions arguments, allowed function) →
    argumentEvaluators clock arguments = .ok fs → ∀ f ∈ fs, P f
  | [], fs, _, _, h => by
      rw [← Except.ok.inj h]
      exact fun f hf => absurd hf List.not_mem_nil
  | .expression value :: rest, fs, hpaths, hfunctions, h => by
      rw [argumentEvaluators] at h
      rw [argumentPaths, List.forall_mem_append] at hpaths
      rw [argumentFunctions, List.forall_mem_append] at hfunctions
      rcases bind_eq_ok.mp h with ⟨first, hfirst, h⟩
      rcases bind_eq_ok.mp h with ⟨others, hothers, h⟩
      rw [← Except.ok.inj h, List.forall_mem_cons]
      exact ⟨evaluator_has value first hpaths.1 hfunctions.1 hfirst,
        argumentEvaluators_have rest others hpaths.2 hfunctions.2 hothers⟩
  | .literal value :: rest, fs, hpaths, hfunctions, h => by
      rw [argumentEvaluators] at h
      rcases bind_eq_ok.mp h with ⟨others, hothers, h⟩
      rw [← Except.ok.inj h, List.forall_mem_cons]
      exact ⟨hereditary.constant value,
        argumentEvaluators_have rest others hpaths hfunctions hothers⟩

end

end Properties

end Expression

end Polyquery
