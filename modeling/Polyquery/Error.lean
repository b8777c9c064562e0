import Polyquery.Function
import Polyquery.Json.Decode
import Polyquery.Literal
import Polyquery.Operator

/-!
# Errors

What can go wrong with a query, by stage. A `ValidationError` is raised when a
part of a query is made that would break a rule of queries; a `CompileError`
when a valid query cannot be expressed in a backend; a `ConfigError` when the
description of a schema cannot be loaded. Each error names its cause, and its
wording is a function of the cause.

## Main definitions

* `Site`: The places where either a property or an expression is given.
* `DocumentFlaw`: What is wrong with a JSON document of a query.
* `ValidationError`, `ValidationError.message`: Rules broken while a query is
  made.
* `Mismatch`, `Feature`: Causes of compile errors.
* `CompileError`, `CompileError.message`: What a backend cannot express.
* `ConfigError`, `ConfigError.message`: A schema that cannot be loaded.
-/

namespace Polyquery

/-- A place in a query where either a property or an expression is given. -/
inductive Site where
  | condition
  | sort
  | expression
  deriving Repr, DecidableEq

/-- The word for a place. -/
def Site.name : Site → String
  | condition => "condition"
  | sort => "sort"
  | expression => "expression"

/-- What is wrong with a JSON document. -/
inductive DocumentFlaw where
  /-- The text is not JSON, or a value has the wrong kind. -/
  | unreadable (error : DecodeError)
  | groupingInPlainQuery
  | unknownOperator (name : String)
  | unknownFunction (name : String)
  | argumentsOfProperty (path : String)
  | objectValue
  | documentsNotArray
  | documentNotObject (value : Json)
  deriving Repr

/-- A flaw in words. -/
def DocumentFlaw.message : DocumentFlaw → String
  | unreadable error => error.message
  | groupingInPlainQuery => "groupBy and having are only valid in an advanced query"
  | unknownOperator name => "unknown operator '" ++ name ++ "'"
  | unknownFunction name => "unknown function '" ++ name ++ "'"
  | argumentsOfProperty path => "property '" ++ path ++ "' cannot take arguments"
  | objectValue => "an object value must be \x7b\"field\": \"path\"\x7d"
  | documentsNotArray => "expected an array of objects"
  | documentNotObject value => "not an object: " ++ value.compact

/-- A rule of queries that is broken. -/
inductive ValidationError where
  | literalType (value : Json)
  | valueCount (operator : Operator) (actual : Nat)
  | listNotAllowed (operator : Operator)
  | fieldNotAllowed (operator : Operator)
  | functionArity (function : Function) (actual : Nat)
  | nameAndExpression (site : Site)
  | missingNameOrExpression (site : Site)
  | havingWithoutGroupBy
  | negatedNative
  | pagination (page size : Nat)
  | emptyPropertyPath
  | document (flaw : DocumentFlaw)
  deriving Repr

/-- A broken rule in words. -/
def ValidationError.message : ValidationError → String
  | literalType value => "literal must be a string, number or boolean, got " ++ value.compact
  | valueCount operator actual =>
    "operator " ++ operator.name ++ " requires " ++ toString operator.valueCount ++
      " value(s), got " ++ toString actual
  | listNotAllowed operator =>
    "operator " ++ operator.name ++ " does not accept a collection value"
  | fieldNotAllowed operator =>
    "operator " ++ operator.name ++ " does not support field references"
  | functionArity function actual =>
    "function " ++ function.name ++ " expects " ++ function.arity.text ++ " argument(s), got " ++
      toString actual
  | nameAndExpression site => site.name ++ ": property name and expression are mutually exclusive"
  | missingNameOrExpression site =>
    site.name ++ ": either a property name or an expression is required"
  | havingWithoutGroupBy => "HAVING clause requires a GROUP BY clause"
  | negatedNative => "a NOT condition cannot wrap a native condition"
  | pagination page size =>
    "pagination requires page >= 1, page size >= 1 and an offset within i64, got page=" ++
      toString page ++ " pageSize=" ++ toString size
  | emptyPropertyPath => "property path must not be empty"
  | document flaw => "invalid query document: " ++ flaw.message

/-- Why a value does not fit where it stands. -/
inductive Mismatch where
  | listRequired (operator : Operator)
  | stringRequired (operator : Operator) (value : Literal)
  | patternNotString (operator : Operator)
  | valueMissing (operator : Operator)
  | argumentCount (function : Function) (expected actual : Nat)
  | nothingToConcatenate
  /-- A property of a grouped query is no group key. -/
  | ungrouped (path : String)
  | reference (error : ValidationError)
  deriving Repr

/-- A mismatch in words. -/
def Mismatch.message : Mismatch → String
  | listRequired operator => "operator " ++ operator.name ++ " requires a collection value"
  | stringRequired operator value =>
    "operator " ++ operator.name ++ " requires a string value, got " ++ value.text
  | patternNotString operator => operator.name ++ " requires a string value"
  | valueMissing operator => "operator " ++ operator.name ++ " has no value"
  | argumentCount function expected actual =>
    function.name ++ " expects " ++ toString expected ++ " argument(s), got " ++ toString actual
  | nothingToConcatenate => "CONCAT expects arguments"
  | ungrouped path => "property " ++ path ++ " is neither grouped nor aggregated"
  | reference error => error.message

/-- A feature of queries that a backend may lack. -/
inductive Feature where
  | groupBy
  | having
  | distinctProjection
  | fieldComparison
  | projectionWithoutSelect
  | nonDocumentProjection
  | nonDocumentSort
  deriving Repr, DecidableEq

/-- A feature in words. -/
def Feature.name : Feature → String
  | groupBy => "GROUP BY"
  | having => "HAVING"
  | distinctProjection => "distinct projection"
  | fieldComparison => "field-to-field comparison"
  | projectionWithoutSelect => "projection without select"
  | nonDocumentProjection => "non-document native projection"
  | nonDocumentSort => "non-document native sort"

/-- A part of a query in which no aggregate may stand. -/
inductive Position where
  | filter
  | sort
  deriving Repr, DecidableEq

/-- The word for a part. -/
def Position.name : Position → String
  | filter => "filter"
  | sort => "sort"

/-- What a backend cannot express. Backends are named as in messages. -/
inductive CompileError where
  | unsupportedByBackend (backend : String) (feature : Feature)
  | unsupportedNative (backend : String) (typeName : String)
  | unsupportedFunction (backend : String) (function : Function)
  | typeMismatch (mismatch : Mismatch)
  | aggregateNotAllowed (function : Function) (position : Position)
  | negatedNative
  | depthExceeded (limit : Nat)
  | missingAlias (expression : String)
  | unknownRelation (entity segment : String)
  deriving Repr

/-- A compile error in words. -/
def CompileError.message : CompileError → String
  | unsupportedByBackend backend feature =>
    feature.name ++ " is not supported by the " ++ backend ++ " backend"
  | unsupportedNative backend typeName =>
    "native payload of type " ++ typeName ++ " is not supported by the " ++ backend ++ " backend"
  | unsupportedFunction backend function =>
    "function " ++ function.name ++ " is not supported by the " ++ backend ++ " backend"
  | typeMismatch mismatch => "type mismatch: " ++ mismatch.message
  | aggregateNotAllowed function position =>
    "aggregate function " ++ function.name ++ " is not allowed in " ++ position.name
  | negatedNative => "native conditions cannot be negated"
  | depthExceeded limit =>
    "condition nesting exceeds the depth limit of " ++ toString limit
  | missingAlias expression => "projection item '" ++ expression ++ "' has no alias"
  | unknownRelation entity segment =>
    "unknown relation '" ++ segment ++ "' on '" ++ entity ++ "'"

/-- A schema that cannot be loaded, by the file it was looked for in. -/
inductive ConfigError where
  | notFound (path : String)
  | unreadable (path : String)
  | invalid (path : String) (error : DecodeError)
  deriving Repr

/-- A config error in words. -/
def ConfigError.message : ConfigError → String
  | notFound path => "配置文件不存在: " ++ path
  | unreadable path => "无法读取配置文件 " ++ path
  | invalid path error => "无法解析JSON配置文件 " ++ path ++ ": " ++ error.message

end Polyquery
