import Polyquery.Error
import Polyquery.Text.Case

/-!
# Schemas

How entities and the relations between them are stored in tables. An entity
that no table is configured for is stored in the table of its name in lower
case. A relation is found under the name of the entity and the segment of a
path, joined by a point.

Tables and relations are kept in the order in which they were configured.

## Main definitions

* `Relation`: How one table is joined to another.
* `Schema`: The tables and relations.
* `Schema.tableName`, `Schema.relation?`: Lookups.
* `Schema.withTable`, `Schema.withRelation`: A schema with an entry set.
* `Schema.ofText`: A schema from JSON text.
-/

namespace Polyquery

/-- The depth limit of conditions where none is configured. -/
def defaultMaxDepth : Nat := 256

/-- How an entity is joined to another one. -/
structure Relation where
  /-- The other entity. -/
  target : String
  /-- The column of this entity's table. -/
  joinColumn : String
  /-- The column of the other entity's table. -/
  targetColumn : String
  /-- Whether several records of the other entity can belong to one of this entity. -/
  toMany : Bool
  deriving Repr, DecidableEq

/-- The tables and relations of entities. -/
structure Schema where
  tables : List (String × String)
  relations : List (String × Relation)
  /-- The depth limit of conditions. -/
  maxDepth : Nat
  deriving Repr, DecidableEq

namespace Schema

/-- The schema in which nothing is configured. -/
def default : Schema :=
  ⟨[], [], defaultMaxDepth⟩

/-- The table of an entity. -/
def tableName (schema : Schema) (entity : String) : String :=
  (schema.tables.lookup entity).getD (Text.toLower entity)

/-- The name under which a relation is kept. -/
def relationKey (entity segment : String) : String :=
  entity ++ "." ++ segment

/-- The relation of an entity that a segment of a path names. -/
def relation? (schema : Schema) (entity segment : String) : Option Relation :=
  schema.relations.lookup (relationKey entity segment)

/-- The schema with the table of an entity set. -/
def withTable (schema : Schema) (entity table : String) : Schema :=
  { schema with tables := insertKey entity table schema.tables }

/-- The schema with a relation set. -/
def withRelation (schema : Schema) (entity segment : String) (relation : Relation) : Schema :=
  { schema with relations := insertKey (relationKey entity segment) relation schema.relations }

end Schema

/-- How a relation is read from JSON. -/
def Relation.shape : RecordShape Relation where
  name := "RelationConfig"
  strict := false
  fields := [
    .of "target" .required decodeString fun v relation => { relation with target := v },
    .of "join_column" .required decodeString fun v relation => { relation with joinColumn := v },
    .of "target_column" .defaulted decodeString
      fun v relation => { relation with targetColumn := v },
    .of "to_many" .defaulted decodeBool fun v relation => { relation with toMany := v }]
  start := ⟨"", "", "id", false⟩

/-- How a schema is read from JSON. -/
def Schema.shape : RecordShape Schema where
  name := "SchemaConfig"
  strict := false
  fields := [
    .of "tables" .defaulted (decodeMap decodeString) fun v schema => { schema with tables := v },
    .of "relations" .defaulted (decodeMap (decodeRecord Relation.shape))
      fun v schema => { schema with relations := v },
    .of "max_depth" .defaulted (decodeNatural "usize")
      fun v schema => { schema with maxDepth := v }]
  start := .default

/-- The schema that a JSON text describes; `path` is where the text comes from. -/
def Schema.ofText (path text : String) : Except ConfigError Schema :=
  (decodeText (decodeRecord Schema.shape) (.read text)).mapError (.invalid path)

end Polyquery
