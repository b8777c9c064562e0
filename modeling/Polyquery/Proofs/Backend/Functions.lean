import Polyquery.Backend.FunctionTable
import Polyquery.Proofs.Outcome

/-!
# What Holds of a Compiled Call

A property of compiled expressions that every handler of a backend carries from
the arguments of a call to the call is a property of every compiled call. A
table of functions is looked through handler by handler; which function a
handler belongs to makes no difference.

## Main definitions

* `FunctionHandler.Keeps`, `FunctionTable.Keeps`: A property that calls keep.
* `FunctionHandler.Takes`: A handler that takes the arguments of its function.

## Theorems

* `takes_one`, `takes_two`, `takes_three`: Handlers by the number of arguments.
* `one_eq_ok`, `two_eq_ok`, `three_eq_ok`: The arguments of a function that
  takes that many.
* `lookup_mem`, `apply_entry`: The handler of a call.
* `apply_of_takes`: A call that compiles.
* `apply_keeps`: A property of a call.
-/

namespace Polyquery

variable {ε : Type}

/-- A call has a property when its arguments have it. -/
def FunctionHandler.Keeps (handler : FunctionHandler ε) (P : ε → Prop) : Prop :=
  ∀ function arguments e, (∀ a ∈ arguments, P a) → handler function arguments = .ok e → P e

/-- All calls have a property when their arguments have it. -/
def FunctionTable.Keeps (table : FunctionTable ε) (P : ε → Prop) : Prop :=
  ∀ entry ∈ table.handlers, FunctionHandler.Keeps entry.2 P

/-- A handler that fails on no number of arguments that a rule allows. -/
def FunctionHandler.Takes {ε : Type} (handler : FunctionHandler ε) (arity : Arity) : Prop :=
  ∀ function arguments, arity.accepts arguments.length = true →
    ∃ result, handler function arguments = .ok result

section Takes

variable {handler : FunctionHandler ε}

theorem takes_one (h : ∀ function a, ∃ e, handler function [a] = .ok e) :
    handler.Takes (.exactly 1) := by
  intro function arguments haccepts
  simp only [Arity.accepts, beq_iff_eq] at haccepts
  match arguments, haccepts with
  | [a], _ => exact h function a

theorem takes_two (h : ∀ function a b, ∃ e, handler function [a, b] = .ok e) :
    handler.Takes (.exactly 2) := by
  intro function arguments haccepts
  simp only [Arity.accepts, beq_iff_eq] at haccepts
  match arguments, haccepts with
  | [a, b], _ => exact h function a b

theorem takes_three (h : ∀ function a b c, ∃ e, handler function [a, b, c] = .ok e) :
    handler.Takes (.exactly 3) := by
  intro function arguments haccepts
  simp only [Arity.accepts, beq_iff_eq] at haccepts
  match arguments, haccepts with
  | [a, b, c], _ => exact h function a b c

end Takes

theorem one_eq_ok {function : Function} {arguments : List ε} {a : ε} :
    one function arguments = .ok a ↔ arguments = [a] := by
  unfold one
  split
  · simp only [Except.ok.injEq, List.cons.injEq, and_true]
  · rename_i hother
    simp only [reduceCtorEq, false_iff]
    exact hother a

theorem two_eq_ok {function : Function} {arguments : List ε} {a b : ε} :
    two function arguments = .ok (a, b) ↔ arguments = [a, b] := by
  unfold two
  split
  · simp only [Except.ok.injEq, Prod.mk.injEq, List.cons.injEq, and_true]
  · rename_i hother
    simp only [reduceCtorEq, false_iff]
    exact hother a b

theorem three_eq_ok {function : Function} {arguments : List ε} {a b c : ε} :
    three function arguments = .ok (a, b, c) ↔ arguments = [a, b, c] := by
  unfold three
  split
  · simp only [Except.ok.injEq, Prod.mk.injEq, List.cons.injEq, and_true]
  · rename_i hother
    simp only [reduceCtorEq, false_iff]
    exact hother a b c

/-- The order of entries makes no difference. -/
theorem keeps_of (backend : String) (entries : List (Function × FunctionHandler ε))
    (P : ε → Prop) (h : ∀ entry ∈ entries, FunctionHandler.Keeps entry.2 P) :
    (FunctionTable.of backend entries).Keeps P := by
  intro entry hmem
  exact h entry (List.mem_reverse.mp hmem)

theorem lookup_mem {table : FunctionTable ε} {function : Function} {handler : FunctionHandler ε}
    (h : table.handlers.lookup function = some handler) : (function, handler) ∈ table.handlers := by
  rcases List.lookup_eq_some_iff.mp h with ⟨before, after, hhandlers, _⟩
  rw [hhandlers]
  exact List.mem_append_right before List.mem_cons_self

/-- A call that compiles is compiled by the handler of its function. -/
theorem apply_entry {table : FunctionTable ε} {function : Function} {arguments : List ε} {e : ε}
    (h : table.apply function arguments = .ok e) :
    ∃ entry ∈ table.handlers, entry.1 = function ∧ entry.2 entry.1 arguments = .ok e := by
  unfold FunctionTable.apply at h
  cases hlookup : table.handlers.lookup function with
  | none =>
      rw [hlookup] at h
      exact absurd h (by simp only [reduceCtorEq, not_false_eq_true])
  | some handler =>
      rw [hlookup] at h
      exact ⟨(function, handler), lookup_mem hlookup, rfl, h⟩

/-- Where every function has a handler that takes the arguments of the function, a call with an
    allowed number of arguments compiles. -/
theorem apply_of_takes {table : FunctionTable ε}
    (h : ∀ function : Function, ∃ handler, table.handlers.lookup function = some handler ∧
      handler.Takes function.arity)
    (function : Function) (arguments : List ε)
    (haccepts : function.arity.accepts arguments.length = true) :
    ∃ e, table.apply function arguments = .ok e := by
  rcases h function with ⟨handler, hlookup, htakes⟩
  rcases htakes function arguments haccepts with ⟨e, he⟩
  refine ⟨e, ?_⟩
  simp only [FunctionTable.apply, hlookup]
  exact he

theorem apply_keeps {table : FunctionTable ε} {P : ε → Prop} (h : table.Keeps P)
    (function : Function) (arguments : List ε) (e : ε) (harguments : ∀ a ∈ arguments, P a)
    (happly : table.apply function arguments = .ok e) : P e := by
  rcases apply_entry happly with ⟨entry, hmem, _, hentry⟩
  exact h entry hmem entry.1 arguments e harguments hentry

end Polyquery
