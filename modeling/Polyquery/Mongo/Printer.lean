import Polyquery.Mongo.Syntax

/-!
# Writing Mongo Commands

The JSON documents of expressions, filters, stages and commands. In an
expression a string that starts with a dollar sign would be read as a
reference, so such a constant is marked as a literal.

## Main definitions

* `Mongo.constantJson`: A constant inside an expression.
* `Mongo.Expr.toJson`, `Mongo.Filter.toJson`, `Mongo.Stage.toJson`: Parts of a
  command.
* `Mongo.Compiled.toJson`: A command with its collection.
-/

namespace Polyquery.Mongo

/-- An object with one member. -/
def single (key : String) (value : Json) : Json :=
  .object [(key, value)]

/-- The name of a comparison. -/
def Comparison.name : Comparison → String
  | equal => "$eq"
  | notEqual => "$ne"
  | greater => "$gt"
  | greaterEqual => "$gte"
  | less => "$lt"
  | lessEqual => "$lte"

/-- The name of an operator. -/
def Operation.name : Operation → String
  | abs => "$abs"
  | sqrt => "$sqrt"
  | mod => "$mod"
  | concat => "$concat"
  | substring => "$substrCP"
  | length => "$strLenCP"
  | position => "$indexOfCP"
  | lower => "$toLower"
  | upper => "$toUpper"
  | add => "$add"
  | subtract => "$subtract"
  | firstPresent => "$ifNull"
  | choose => "$cond"
  | sum => "$sum"
  | average => "$avg"
  | least => "$min"
  | greatest => "$max"

/-- The name of the removal of spaces. -/
def TrimSide.name : TrimSide → String
  | both => "$trim"
  | left => "$ltrim"
  | right => "$rtrim"

/-- The values of a list. -/
def literalArray (values : List Literal) : Json :=
  .array (values.map Literal.toJson)

/-- A constant inside an expression. -/
def constantJson : Literal → Json
  | .string s =>
    if s.toList.head? = some '$' then single "$literal" (.string s) else .string s
  | literal => literal.toJson

/-- The reference to the current time. -/
def nowJson : Json := .string "$$NOW"

/-- The contrary of an expression. -/
def notJson (operand : Json) : Json :=
  single "$not" (.array [operand])

namespace Expr

mutual

/-- The document of an expression. -/
def toJson : Expr → Json
  | .field path => .string ("$" ++ path)
  | .null => .null
  | .constant literal => constantJson literal
  | .now => nowJson
  | .today => single "$dateTrunc" (.object [("date", nowJson), ("unit", .string "day")])
  | .timeOfDay =>
    single "$dateToString" (.object [("format", .string "%H:%M:%S"), ("date", nowJson)])
  | .unary operation argument => single operation.name argument.toJson
  | .apply operation arguments => single operation.name (.array (toJsons arguments))
  | .trim side text => single side.name (single "input" text.toJson)
  | .compare comparison left right => single comparison.name (.array [left.toJson, right.toJson])
  | .isIn left values => single "$in" (.array [left.toJson, literalArray values])
  | .regexMatch text pattern =>
    single "$regexMatch" (.object
      [("input", text.toJson), ("regex", .string pattern), ("options", .string "i")])
  | .and operands => single "$and" (.array (toJsons operands))
  | .not operand => notJson operand.toJson

/-- The documents of several expressions. -/
def toJsons : List Expr → List Json
  | [] => []
  | e :: rest => e.toJson :: toJsons rest

end

end Expr

/-- The members of a clause. -/
def Clause.members : Clause → List (String × Json)
  | .isNull => [("$eq", .null)]
  | .isNotNull => [("$ne", .null)]
  | .isIn values => [("$in", literalArray values)]
  | .notIn values => [("$nin", literalArray values)]
  | .regex pattern => [("$regex", .string pattern), ("$options", .string "i")]
  | .compare comparison literal => [(comparison.name, literal.toJson)]
  | .exceptNull clause => [("$not", .object clause.members), ("$ne", .null)]

namespace Filter

mutual

/-- The document of a filter. -/
def toJson : Filter → Json
  | .all => .object []
  | .field path clause => single path (.object clause.members)
  | .expr condition => single "$expr" condition.toJson
  | .and parts => single "$and" (.array (toJsons parts))
  | .or parts => single "$or" (.array (toJsons parts))
  | .native document => document

/-- The documents of several filters. -/
def toJsons : List Filter → List Json
  | [] => []
  | part :: rest => part.toJson :: toJsons rest

end

end Filter

/-- What a field is sorted by. -/
def SortValue.toJson : SortValue → Json
  | .by .ascending => .ofInt 1
  | .by .descending => .ofInt (-1)
  | .native value => value

/-- What stands under a name in a projection. -/
def Projected.toJson : Projected → Json
  | .omitted => .ofInt 0
  | .computed value => value.toJson
  | .native value => value

/-- Members whose values are written by a function. -/
def membersBy {α : Type} (write : α → Json) (fields : List (String × α)) : List (String × Json) :=
  fields.map fun (name, value) => (name, write value)

/-- What documents are grouped by. -/
def GroupKey.toJson : GroupKey → Json
  | .none => .null
  | .fields keys => .object (membersBy Expr.toJson keys)
  | .wholeDocument => .string "$$ROOT"
  | .native value => value

/-- The document of a stage. -/
def Stage.toJson : Stage → Json
  | .matching filter => single "$match" filter.toJson
  | .group key accumulators =>
    single "$group" (.object (("_id", key.toJson) :: membersBy Expr.toJson accumulators))
  | .project fields => single "$project" (.object (membersBy Projected.toJson fields))
  | .addFields fields => single "$addFields" (.object (membersBy Expr.toJson fields))
  | .replaceByKey => single "$replaceRoot" (single "newRoot" (.string "$_id"))
  | .sort keys => single "$sort" (.object (membersBy SortValue.toJson keys))
  | .skip count => single "$skip" (.ofNat count)
  | .limit count => single "$limit" (.ofNat count)
  | .unset fields => single "$unset" (.array (fields.map .string))

/-- A member that is left out when it has no value. -/
def optionalMember (key : String) : Option Json → List (String × Json)
  | some value => [(key, value)]
  | none => []

/-- The members of a command. -/
def Command.members : Command → List (String × Json)
  | .find filter sort skip limit =>
    [("command", .string "find"), ("filter", filter.toJson)] ++
      (if sort.isEmpty then [] else [("sort", .object (membersBy SortValue.toJson sort))]) ++
      optionalMember "skip" (skip.map .ofNat) ++
      optionalMember "limit" (limit.map .ofNat)
  | .aggregate pipeline =>
    [("command", .string "aggregate"), ("pipeline", .array (pipeline.map Stage.toJson))]

/-- The document of a command on a collection. -/
def Compiled.toJson (compiled : Compiled) : Json :=
  .object (("collection", .string compiled.collection) :: compiled.command.members ++
    (if compiled.columns.isEmpty then []
      else [("columns", .array (compiled.columns.map .string))]))

end Polyquery.Mongo
