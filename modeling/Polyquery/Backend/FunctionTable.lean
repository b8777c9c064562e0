import Polyquery.Error

/-!
# Functions of a Backend

A backend lists once which functions it can compile and how. A function that
is not on the list is reported by name and never left out. The handler of a
function gets its arguments compiled.

## Main definitions

* `FunctionHandler`, `FunctionTable`: The list of a backend.
* `FunctionTable.apply`: The compiled form of a call.
* `one`, `two`, `three`: The arguments of a function that takes that many.
-/

namespace Polyquery

/-- How a call is compiled, given its compiled arguments. -/
abbrev FunctionHandler (ε : Type) := Function → List ε → Except CompileError ε

/-- The functions a backend can compile. -/
structure FunctionTable (ε : Type) where
  backend : String
  handlers : List (Function × FunctionHandler ε)

namespace FunctionTable

variable {ε : Type}

/-- A table with no function. -/
def empty (backend : String) : FunctionTable ε :=
  ⟨backend, []⟩

/-- A table with a function added. What is added later replaces what was there. -/
def insert (table : FunctionTable ε) (function : Function) (handler : FunctionHandler ε) :
    FunctionTable ε :=
  { table with handlers := (function, handler) :: table.handlers }

/-- A table of several functions, of which a later one replaces an earlier one. -/
def of (backend : String) (entries : List (Function × FunctionHandler ε)) : FunctionTable ε :=
  ⟨backend, entries.reverse⟩

/-- Whether a function is on the table. -/
def supports (table : FunctionTable ε) (function : Function) : Bool :=
  (table.handlers.lookup function).isSome

/-- The compiled form of a call. -/
def apply (table : FunctionTable ε) (function : Function) (arguments : List ε) :
    Except CompileError ε :=
  match table.handlers.lookup function with
  | some handler => handler function arguments
  | none => .error (.unsupportedFunction table.backend function)

end FunctionTable

/-- The error of a call with another number of arguments than a handler takes. -/
def wrongCount (function : Function) (expected actual : Nat) : CompileError :=
  .typeMismatch (.argumentCount function expected actual)

/-- The argument of a function that takes one. -/
def one {ε : Type} (function : Function) : List ε → Except CompileError ε
  | [a] => .ok a
  | arguments => .error (wrongCount function 1 arguments.length)

/-- The arguments of a function that takes two. -/
def two {ε : Type} (function : Function) : List ε → Except CompileError (ε × ε)
  | [a, b] => .ok (a, b)
  | arguments => .error (wrongCount function 2 arguments.length)

/-- The arguments of a function that takes three. -/
def three {ε : Type} (function : Function) : List ε → Except CompileError (ε × ε × ε)
  | [a, b, c] => .ok (a, b, c)
  | arguments => .error (wrongCount function 3 arguments.length)

end Polyquery
