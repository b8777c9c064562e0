import Polyquery.Schema.Basic
import Polyquery.Text.Search

/-!
# Paths over Tables

A dotted path starts at a root entity, follows a relation for each segment but
the last, and ends in a column. Each relation is one join. The alias of a
joined table is the alias of the root followed by the segments up to the
relation, so two different ways never share an alias, and no join hides the
root.

## Main definitions

* `Join`: A join with its alias and the alias it starts from.
* `ResolvedPath`: The joins and the column of a path.
* `Schema.resolve`: The way to the column of a path.
-/

namespace Polyquery

/-- One join on the way to a column. -/
structure Join where
  tableAlias : String
  table : String
  parentAlias : String
  joinColumn : String
  targetColumn : String
  toMany : Bool
  deriving Repr, DecidableEq

/-- The way to a column. -/
structure ResolvedPath where
  /-- The joins, outermost first. -/
  joins : List Join
  tableAlias : String
  column : String
  deriving Repr, DecidableEq

/-- Whether a join on the way can multiply the rows of the root. -/
def ResolvedPath.crossesToMany (path : ResolvedPath) : Bool :=
  path.joins.any (·.toMany)

namespace Schema

/-- The way from an entity, whose rows stand under `tableAlias`, along the segments of a path. -/
def resolveFrom (schema : Schema) (entity tableAlias : String) :
    List String → Except CompileError ResolvedPath
  | [] => .ok ⟨[], tableAlias, ""⟩
  | [column] => .ok ⟨[], tableAlias, column⟩
  | segment :: rest =>
    match schema.relation? entity segment with
    | none => .error (.unknownRelation entity segment)
    | some relation => do
      let joined := tableAlias ++ "." ++ segment
      let path ← schema.resolveFrom relation.target joined rest
      let join : Join := {
        tableAlias := joined
        table := schema.tableName relation.target
        parentAlias := tableAlias
        joinColumn := relation.joinColumn
        targetColumn := relation.targetColumn
        toMany := relation.toMany }
      return { path with joins := join :: path.joins }

/-- The way from the root entity to the column of a path. The alias of the root is the
    name of its table. -/
def resolve (schema : Schema) (root path : String) : Except CompileError ResolvedPath :=
  schema.resolveFrom root (schema.tableName root) (Text.dotted path)

end Schema

end Polyquery
