import Polyquery.Error
import Polyquery.Text.Blank

/-!
# Property Expressions

The left side of a condition, the key of a sort, and an item of a select or
group-by list: a property named by a dotted path, or a call of a function
whose arguments are expressions and literals. Either may carry an alias, which
names the result and has no bearing on the value.

Expressions are made by `Expression.property` and `Expression.call?`, which
keep two rules: a path is not blank, and a call has as many arguments as its
function takes.

## Main definitions

* `Expression`, `Argument`: The expressions.
* `Expression.ofPath`, `Expression.ofCall`: Making them.
* `Expression.text`: The expression string, by which expressions are told
  apart.
* `Expression.aggregate?`: The first aggregate function in an expression.
* `Expression.aggregateCalls`: The outermost aggregate calls.
* `Expression.paths`: The properties an expression reads.
* `Expression.same`: Equality, aliases included.
-/

namespace Polyquery

mutual

/-- A property or the call of a function. -/
inductive Expression where
  | property (path : String) (label : Option String)
  | call (function : Function) (arguments : List Argument) (label : Option String)
  deriving Repr

/-- An argument of a call. -/
inductive Argument where
  | expression (value : Expression)
  | literal (value : Literal)
  deriving Repr

end

instance : Inhabited Expression := ⟨.property "" none⟩

namespace Expression

/-- A path that names a property, unless it is blank. -/
def checkPath (path : String) : Except ValidationError String :=
  if Text.isBlank path then .error .emptyPropertyPath else .ok path

/-- The property with a path. -/
def ofPath (path : String) : Except ValidationError Expression :=
  (checkPath path).map fun path => .property path none

/-- The call of a function, unless the function takes another number of arguments. -/
def ofCall (function : Function) (arguments : List Argument) : Except ValidationError Expression :=
  if function.arity.accepts arguments.length then .ok (.call function arguments none)
  else .error (.functionArity function arguments.length)

/-- The expression of a place that takes either a property name or an expression. -/
def ofEither (site : Site) (name : Option String) (expression : Option Expression) :
    Except ValidationError Expression :=
  match name, expression with
  | some _, some _ => .error (.nameAndExpression site)
  | none, none => .error (.missingNameOrExpression site)
  | some path, none => ofPath path
  | none, some expression => .ok expression

/-- The expression under another alias. -/
def withAlias (label : String) : Expression → Expression
  | .property path _ => .property path (some label)
  | .call function arguments _ => .call function arguments (some label)

/-- The alias of an expression. -/
def alias? : Expression → Option String
  | .property _ label => label
  | .call _ _ label => label

/-- The path of a bare property. -/
def path? : Expression → Option String
  | .property path _ => some path
  | .call _ _ _ => none

mutual

/-- The expression string: a property is its path, a call is the name with the
    arguments in parentheses. -/
def text : Expression → String
  | .property path _ => path
  | .call function arguments _ =>
    function.name ++ "(" ++ String.intercalate ", " (argumentTexts arguments) ++ ")"

/-- The expression strings of the arguments of a call. -/
def argumentTexts : List Argument → List String
  | [] => []
  | .expression value :: rest => value.text :: argumentTexts rest
  | .literal value :: rest => value.text :: argumentTexts rest

end

mutual

/-- The first aggregate function in an expression, the outermost one first. -/
def aggregate? : Expression → Option Function
  | .property _ _ => none
  | .call function arguments _ =>
    if function.isAggregate then some function else argumentAggregate? arguments

/-- The first aggregate function in the arguments of a call. -/
def argumentAggregate? : List Argument → Option Function
  | [] => none
  | .expression value :: rest =>
    match value.aggregate? with
    | some function => some function
    | none => argumentAggregate? rest
  | .literal _ :: rest => argumentAggregate? rest

end

mutual

/-- The outermost aggregate calls in order of appearance. -/
def aggregateCalls : Expression → List Expression
  | .property _ _ => []
  | .call function arguments label =>
    if function.isAggregate then [.call function arguments label]
    else argumentAggregateCalls arguments

/-- The outermost aggregate calls in the arguments of a call. -/
def argumentAggregateCalls : List Argument → List Expression
  | [] => []
  | .expression value :: rest => value.aggregateCalls ++ argumentAggregateCalls rest
  | .literal _ :: rest => argumentAggregateCalls rest

end

mutual

/-- The paths of all properties in an expression in order of appearance. -/
def paths : Expression → List String
  | .property path _ => [path]
  | .call _ arguments _ => argumentPaths arguments

/-- The paths of all properties in the arguments of a call. -/
def argumentPaths : List Argument → List String
  | [] => []
  | .expression value :: rest => value.paths ++ argumentPaths rest
  | .literal _ :: rest => argumentPaths rest

end

mutual

/-- Equality of expressions. -/
def same : Expression → Expression → Bool
  | .property path label, .property path' label' => path == path' && label == label'
  | .call function arguments label, .call function' arguments' label' =>
    function == function' && sameArguments arguments arguments' && label == label'
  | _, _ => false

/-- Equality of the arguments of two calls. -/
def sameArguments : List Argument → List Argument → Bool
  | [], [] => true
  | .expression a :: as, .expression b :: bs => a.same b && sameArguments as bs
  | .literal a :: as, .literal b :: bs => a.same b && sameArguments as bs
  | _, _ => false

end

/-- Equality of two lists of expressions. -/
def sameList : List Expression → List Expression → Bool
  | [], [] => true
  | a :: as, b :: bs => a.same b && sameList as bs
  | _, _ => false

end Expression

end Polyquery
