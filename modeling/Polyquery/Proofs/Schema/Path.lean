import Polyquery.Proofs.Outcome
import Polyquery.Proofs.Text.Dotted
import Polyquery.Schema.Path

/-!
# Ways over Relations

What a path resolves to, said without following it. The segments of a path but
the last are a way over relations. A way starts at the root entity, and
`Schema.reach` is the entity at its end, if every relation on it is configured.
A table on the way is then known by the way to it alone: `Schema.aliasOf` is
its alias, and `Schema.JoinAt` is the join that brings it in.

A path resolves exactly when its way can be gone to the end
(`resolve_registered`), and otherwise the error names the first step that is
missing (`resolve_broken`). Two ways never share an alias, because segments
have no points in them, so the alias of a join says which join it is
(`joinAt_unique`).

## Main definitions

* `Schema.reach`: The entity at the end of a way.
* `Schema.aliasOf`: The alias of the table at the end of a way.
* `Text.relations`: The way of a path.
* `LeadsOver`: The ways that a path goes.
* `Schema.Registered`, `Schema.Breaks`: Whether a way can be gone, and where
  it breaks off.
* `Schema.JoinAt`, `Schema.JoinOn`: The join at the end of a way, and the
  joins of a path.
* `Schema.CrossesToMany`: A relation to many records on the way.
* `Schema.joinsFrom`: The joins of a way.

## Theorems

* `leadsOver_iff`: The ways that a path goes are the beginnings of its way.
* `reach_append`: A way in two parts.
* `registered_or_breaks`: A way can be gone or it breaks somewhere.
* `aliasOf_injective`, `joinAt_unique`: An alias names one join.
* `mem_joinsFrom`: The joins of a way, each by the way to it.
* `resolve_registered`, `resolve_broken`: What a path resolves to.
-/

namespace Polyquery

/-- The segments of a path but the last one: the relations it goes over to its column. -/
def Text.relations (path : String) : List String :=
  (Text.dotted path).dropLast

/-- A path goes over a way when the way is not empty and the path goes on behind it. -/
def LeadsOver (path : String) (way : List String) : Prop :=
  way ≠ [] ∧ way <+: Text.dotted path ∧ way ≠ Text.dotted path

/-- A list is its elements but the last with the last one behind. -/
theorem relations_concat (path : String) :
    ∃ column, Text.dotted path = Text.relations path ++ [column] :=
  ⟨(Text.dotted path).getLast (Text.dotted_ne_nil path),
    (List.dropLast_concat_getLast (Text.dotted_ne_nil path)).symm⟩

/-- The ways that a path goes over are the beginnings of the way to its column. -/
theorem leadsOver_iff (path : String) (way : List String) :
    LeadsOver path way ↔ way ≠ [] ∧ way <+: Text.relations path := by
  rcases relations_concat path with ⟨column, hpath⟩
  unfold LeadsOver
  rw [hpath, List.prefix_concat_iff]
  constructor
  · rintro ⟨hne, hwhole | hbegins, hproper⟩
    · exact absurd hwhole hproper
    · exact ⟨hne, hbegins⟩
  · rintro ⟨hne, hbegins⟩
    refine ⟨hne, .inr hbegins, ?_⟩
    intro hwhole
    have hlength := hbegins.length_le
    rw [hwhole, List.length_append, List.length_singleton] at hlength
    omega

namespace Schema

/-- The entity at the end of a way, if every relation on it is configured. -/
def reach (schema : Schema) (entity : String) : List String → Option String
  | [] => some entity
  | segment :: rest =>
    match schema.relation? entity segment with
    | some relation => schema.reach relation.target rest
    | none => none

variable (schema : Schema)

/-- The alias of the table at the end of a way: the alias of the root followed by the way,
    with points in between. -/
def aliasOf (root : String) (way : List String) : String :=
  Text.joinWith "." (schema.tableName root :: way)

/-- Every relation on the way of a path is configured. -/
def Registered (root path : String) : Prop :=
  (schema.reach root (Text.relations path)).isSome = true

instance (root path : String) : Decidable (schema.Registered root path) :=
  inferInstanceAs (Decidable (_ = true))

/-- The first relation on the way of a path that is not configured, with the entity that
    lacks it. -/
def Breaks (root path entity segment : String) : Prop :=
  ∃ way rest, Text.relations path = way ++ segment :: rest ∧
    schema.reach root way = some entity ∧ schema.relation? entity segment = none

/-- The join of the relation at the end of a way. -/
def JoinAt (root : String) (way : List String) (segment : String) (join : Join) : Prop :=
  ∃ entity relation, schema.reach root way = some entity ∧
    schema.relation? entity segment = some relation ∧
    join = {
      tableAlias := schema.aliasOf root (way ++ [segment])
      table := schema.tableName relation.target
      parentAlias := schema.aliasOf root way
      joinColumn := relation.joinColumn
      targetColumn := relation.targetColumn
      toMany := relation.toMany }

/-- A join that a path goes over. -/
def JoinOn (root path : String) (join : Join) : Prop :=
  ∃ way segment, LeadsOver path (way ++ [segment]) ∧ schema.JoinAt root way segment join

/-- A path goes over a relation to many records. -/
def CrossesToMany (root path : String) : Prop :=
  ∃ way segment entity relation, LeadsOver path (way ++ [segment]) ∧
    schema.reach root way = some entity ∧ schema.relation? entity segment = some relation ∧
    relation.toMany = true

end Schema

section Ways

variable (schema : Schema)

theorem reach_append (entity : String) (way rest : List String) :
    schema.reach entity (way ++ rest) =
      (schema.reach entity way).bind fun reached => schema.reach reached rest := by
  induction way generalizing entity with
  | nil => simp only [List.nil_append, Schema.reach, Option.bind_some]
  | cons segment way ih =>
      simp only [List.cons_append, Schema.reach]
      cases schema.relation? entity segment with
      | none => rfl
      | some relation => exact ih relation.target

/-- A way that cannot be gone has a first relation that is not configured. -/
theorem reach_breaks (entity : String) (ways : List String)
    (h : schema.reach entity ways = none) :
    ∃ way segment rest reached, ways = way ++ segment :: rest ∧
      schema.reach entity way = some reached ∧ schema.relation? reached segment = none := by
  induction ways generalizing entity with
  | nil => exact absurd h (by simp only [Schema.reach, reduceCtorEq, not_false_eq_true])
  | cons segment rest ih =>
      cases hrelation : schema.relation? entity segment with
      | none => exact ⟨[], segment, rest, entity, rfl, rfl, hrelation⟩
      | some relation =>
          simp only [Schema.reach, hrelation] at h
          rcases ih relation.target h with ⟨way, missing, behind, reached, hway, hreach, hnone⟩
          refine ⟨segment :: way, missing, behind, reached, ?_, ?_, hnone⟩
          · rw [hway, List.cons_append]
          · simp only [Schema.reach, hrelation, hreach]

theorem registered_or_breaks (root path : String) :
    schema.Registered root path ∨ ∃ entity segment, schema.Breaks root path entity segment := by
  unfold Schema.Registered
  cases h : schema.reach root (Text.relations path) with
  | some reached => exact .inl rfl
  | none =>
      rcases reach_breaks schema root _ h with ⟨way, segment, rest, entity, hway, hreach, hnone⟩
      exact .inr ⟨entity, segment, way, rest, hway, hreach, hnone⟩

end Ways

section Aliases

variable (schema : Schema) (root : String)

theorem aliasOf_nil : schema.aliasOf root [] = schema.tableName root := by
  simp only [Schema.aliasOf, Text.joinWith, String.intercalate_singleton]

/-- An alias is the alias of the root with the trail of the way behind it. -/
theorem toList_aliasOf (way : List String) :
    (schema.aliasOf root way).toList = (schema.tableName root).toList ++ Text.trail way := by
  unfold Schema.aliasOf Text.joinWith
  generalize schema.tableName root = start
  induction way generalizing start with
  | nil => simp only [String.intercalate_singleton, Text.trail, List.flatMap_nil, List.append_nil]
  | cons segment rest ih =>
      rw [String.intercalate_cons_cons, Text.trail_cons, String.toList_append,
        String.toList_append, ih segment]
      simp only [List.append_assoc]
      rfl

/-- One step further the alias is longer by a point and the segment. -/
theorem aliasOf_concat (way : List String) (segment : String) :
    schema.aliasOf root (way ++ [segment]) = schema.aliasOf root way ++ "." ++ segment := by
  apply String.toList_injective
  rw [toList_aliasOf, String.toList_append, String.toList_append, toList_aliasOf]
  simp only [Text.trail, List.flatMap_append, List.flatMap_cons, List.flatMap_nil, List.append_nil,
    List.append_assoc]
  rfl

/-- Two ways without points never share an alias. -/
theorem aliasOf_injective (way other : List String) (hway : ∀ s ∈ way, '.' ∉ s.toList)
    (hother : ∀ s ∈ other, '.' ∉ s.toList)
    (h : schema.aliasOf root way = schema.aliasOf root other) : way = other := by
  have hlists : (schema.aliasOf root way).toList = (schema.aliasOf root other).toList := by rw [h]
  rw [toList_aliasOf, toList_aliasOf] at hlists
  exact Text.trail_injective way other hway hother (List.append_cancel_left hlists)

/-- No way but the empty one leads back to the alias of the root. -/
theorem aliasOf_ne_root (way : List String) (h : way ≠ []) :
    schema.aliasOf root way ≠ schema.tableName root := by
  intro heq
  have hlength : (schema.aliasOf root way).toList.length =
      (schema.tableName root).toList.length := by rw [heq]
  rw [toList_aliasOf, List.length_append] at hlength
  cases way with
  | nil => exact h rfl
  | cons segment rest =>
      rw [Text.trail_cons, List.cons_append, List.length_cons] at hlength
      omega

/-- The alias of a join says which join it is. -/
theorem joinAt_unique (way other : List String) (segment segment' : String) (join join' : Join)
    (hjoin : schema.JoinAt root way segment join) (hjoin' : schema.JoinAt root other segment' join')
    (hway : ∀ s ∈ way ++ [segment], '.' ∉ s.toList)
    (hother : ∀ s ∈ other ++ [segment'], '.' ∉ s.toList)
    (h : join.tableAlias = join'.tableAlias) : join = join' := by
  rcases hjoin with ⟨entity, relation, hreach, hrelation, hjoin⟩
  rcases hjoin' with ⟨entity', relation', hreach', hrelation', hjoin'⟩
  have hways : way ++ [segment] = other ++ [segment'] := by
    apply aliasOf_injective schema root _ _ hway hother
    rw [hjoin, hjoin'] at h
    exact h
  rcases List.append_inj' hways rfl with ⟨hsame, hlast⟩
  rw [List.cons.injEq] at hlast
  -- On the same way the same entity is reached, and it has one relation of a name.
  have hentity : entity = entity' := by
    rw [hsame, hreach'] at hreach
    exact (Option.some.inj hreach).symm
  have hsegment : relation = relation' := by
    rw [hlast.1, hentity, hrelation'] at hrelation
    exact (Option.some.inj hrelation).symm
  rw [hjoin, hjoin', hsame, hlast.1, hsegment]

end Aliases

/-- The joins of a way that starts at an entity whose rows stand under an alias. -/
def Schema.joinsFrom (schema : Schema) (entity tableAlias : String) : List String → List Join
  | [] => []
  | segment :: rest =>
    match schema.relation? entity segment with
    | none => []
    | some relation => {
        tableAlias := tableAlias ++ "." ++ segment
        table := schema.tableName relation.target
        parentAlias := tableAlias
        joinColumn := relation.joinColumn
        targetColumn := relation.targetColumn
        toMany := relation.toMany } ::
      schema.joinsFrom relation.target (tableAlias ++ "." ++ segment) rest

section Resolution

variable (schema : Schema) (root : String)

/-- Resolving goes one relation further as long as there is one. -/
theorem resolveFrom_cons (entity tableAlias segment column : String) (rest : List String) :
    schema.resolveFrom entity tableAlias (segment :: (rest ++ [column])) =
      match schema.relation? entity segment with
      | none => .error (.unknownRelation entity segment)
      | some relation => do
        let path ← schema.resolveFrom relation.target (tableAlias ++ "." ++ segment)
          (rest ++ [column])
        let join : Join := {
          tableAlias := tableAlias ++ "." ++ segment
          table := schema.tableName relation.target
          parentAlias := tableAlias
          joinColumn := relation.joinColumn
          targetColumn := relation.targetColumn
          toMany := relation.toMany }
        return { path with joins := join :: path.joins } := by
  cases hrest : rest ++ [column] with
  | nil =>
      exact absurd hrest (List.append_ne_nil_of_right_ne_nil rest (List.cons_ne_nil column []))
  | cons next others => rfl

/-- Where a way can be gone to the end, resolving gathers its joins and ends in the column
    of the last table. -/
theorem resolveFrom_reached (start way : List String) (entity column reached : String)
    (h : schema.reach entity way = some reached) :
    schema.resolveFrom entity (schema.aliasOf root start) (way ++ [column]) =
      .ok ⟨schema.joinsFrom entity (schema.aliasOf root start) way,
        schema.aliasOf root (start ++ way), column⟩ := by
  induction way generalizing entity start with
  | nil => simp only [List.nil_append, Schema.resolveFrom, Schema.joinsFrom, List.append_nil]
  | cons segment way ih =>
      rw [List.cons_append, resolveFrom_cons]
      cases hrelation : schema.relation? entity segment with
      | none =>
          simp only [Schema.reach, hrelation] at h
          exact absurd h (by simp only [reduceCtorEq, not_false_eq_true])
      | some relation =>
          simp only [Schema.reach, hrelation] at h
          simp only [← aliasOf_concat, ih (start ++ [segment]) relation.target h, ok_bind,
            Schema.joinsFrom, hrelation, List.append_assoc, List.cons_append, List.nil_append]
          rfl

/-- Where a way breaks off, resolving ends there. -/
theorem resolveFrom_broken (way rest : List String)
    (start tableAlias entity segment column : String)
    (hreach : schema.reach start way = some entity)
    (hnone : schema.relation? entity segment = none) :
    schema.resolveFrom start tableAlias (way ++ segment :: (rest ++ [column])) =
      .error (.unknownRelation entity segment) := by
  -- The way is followed from relation to relation, until the segment that is none.
  induction way generalizing start tableAlias with
  | nil =>
      simp only [Schema.reach, Option.some.injEq] at hreach
      rw [List.nil_append, resolveFrom_cons, hreach, hnone]
  | cons first way ih =>
      have hsegments : first :: way ++ segment :: (rest ++ [column]) =
          first :: ((way ++ segment :: rest) ++ [column]) := by
        rw [List.cons_append, List.append_assoc, List.cons_append]
      rw [hsegments, resolveFrom_cons]
      cases hrelation : schema.relation? start first with
      | none =>
          simp only [Schema.reach, hrelation] at hreach
          exact absurd hreach (by simp only [reduceCtorEq, not_false_eq_true])
      | some relation =>
          simp only [Schema.reach, hrelation] at hreach
          simp only [List.append_assoc, List.cons_append, ih relation.target _ hreach, error_bind]

/-- A path whose way can be gone resolves to the joins of the way. -/
theorem resolve_registered (path : String) (h : schema.Registered root path) :
    ∃ column, schema.resolve root path =
      .ok ⟨schema.joinsFrom root (schema.tableName root) (Text.relations path),
        schema.aliasOf root (Text.relations path), column⟩ := by
  rcases relations_concat path with ⟨column, hpath⟩
  rcases Option.isSome_iff_exists.mp h with ⟨reached, hreach⟩
  refine ⟨column, ?_⟩
  have hresolve := resolveFrom_reached schema root [] (Text.relations path) root column reached
    hreach
  rw [aliasOf_nil, List.nil_append] at hresolve
  unfold Schema.resolve
  rw [hpath, hresolve]

/-- A path whose way breaks off is an error that names the missing step. -/
theorem resolve_broken (path entity segment : String) (h : schema.Breaks root path entity segment) :
    schema.resolve root path = .error (.unknownRelation entity segment) := by
  rcases relations_concat path with ⟨column, hpath⟩
  rcases h with ⟨way, rest, hway, hreach, hnone⟩
  unfold Schema.resolve
  rw [hpath, hway, List.append_assoc, List.cons_append]
  exact resolveFrom_broken schema way rest root _ entity segment column hreach hnone

/-- The joins of a way, each by the way to it. -/
theorem mem_joinsFrom (start way : List String) (entity reached : String)
    (hstart : schema.reach root start = some entity)
    (hreach : schema.reach entity way = some reached) (join : Join) :
    join ∈ schema.joinsFrom entity (schema.aliasOf root start) way ↔
      ∃ before segment, before ++ [segment] <+: way ∧
        schema.JoinAt root (start ++ before) segment join := by
  induction way generalizing start entity with
  | nil =>
      simp only [Schema.joinsFrom, List.not_mem_nil, List.prefix_nil, List.append_eq_nil_iff,
        List.cons_ne_self, and_false, false_and, exists_false]
  | cons first way ih =>
      cases hrelation : schema.relation? entity first with
      | none =>
          simp only [Schema.reach, hrelation] at hreach
          exact absurd hreach (by simp only [reduceCtorEq, not_false_eq_true])
      | some relation =>
          simp only [Schema.reach, hrelation] at hreach
          have hnext : schema.reach root (start ++ [first]) = some relation.target := by
            rw [reach_append, hstart, Option.bind_some]
            simp only [Schema.reach, hrelation]
          have hrest := ih (start ++ [first]) relation.target hnext hreach
          have hhere : ∀ j, schema.JoinAt root start first j ↔ j = {
              tableAlias := schema.aliasOf root start ++ "." ++ first
              table := schema.tableName relation.target
              parentAlias := schema.aliasOf root start
              joinColumn := relation.joinColumn
              targetColumn := relation.targetColumn
              toMany := relation.toMany } := by
            intro j
            simp only [Schema.JoinAt, hstart, Option.some.injEq, aliasOf_concat]
            constructor
            · rintro ⟨_, relation', rfl, hrelation', heq⟩
              rw [hrelation, Option.some.injEq] at hrelation'
              rw [heq, ← hrelation']
            · intro heq
              exact ⟨entity, relation, rfl, hrelation, heq⟩
          simp only [Schema.joinsFrom, hrelation, List.mem_cons]
          rw [← aliasOf_concat, hrest, aliasOf_concat, ← hhere]
          -- The first join is at the end of the way so far, and every other one further on.
          constructor
          · rintro (hfirst | ⟨before, segment, hbegins, hjoin⟩)
            · exact ⟨[], first, by simp only [List.nil_append, List.cons_prefix_cons,
                List.nil_prefix, and_self], by rw [List.append_nil]; exact hfirst⟩
            · refine ⟨first :: before, segment, ?_, ?_⟩
              · rw [List.cons_append, List.cons_prefix_cons]
                exact ⟨rfl, hbegins⟩
              · rw [List.append_assoc, List.cons_append, List.nil_append] at hjoin
                exact hjoin
          · rintro ⟨before, segment, hbegins, hjoin⟩
            cases before with
            | nil =>
                rw [List.nil_append, List.cons_prefix_cons] at hbegins
                rw [List.append_nil, hbegins.1] at hjoin
                exact .inl hjoin
            | cons second before =>
                rw [List.cons_append, List.cons_prefix_cons] at hbegins
                rw [hbegins.1] at hjoin
                refine .inr ⟨before, segment, hbegins.2, ?_⟩
                rw [List.append_assoc, List.cons_append, List.nil_append]
                exact hjoin

/-- The joins of a path that resolves are the joins on its way. -/
theorem mem_joinsFrom_iff (path : String) (h : schema.Registered root path) (join : Join) :
    join ∈ schema.joinsFrom root (schema.tableName root) (Text.relations path) ↔
      schema.JoinOn root path join := by
  rcases Option.isSome_iff_exists.mp h with ⟨reached, hreach⟩
  have hjoins := mem_joinsFrom schema root [] (Text.relations path) root reached rfl hreach join
  rw [aliasOf_nil] at hjoins
  rw [hjoins]
  unfold Schema.JoinOn
  constructor
  · rintro ⟨way, segment, hbegins, hjoin⟩
    exact ⟨way, segment, (leadsOver_iff path _).mpr
      ⟨List.append_ne_nil_of_right_ne_nil way (List.cons_ne_nil segment []), hbegins⟩, hjoin⟩
  · rintro ⟨way, segment, hleads, hjoin⟩
    exact ⟨way, segment, ((leadsOver_iff path _).mp hleads).2, hjoin⟩

end Resolution

section Joins

variable (schema : Schema) (root : String)

/-- Every way that a registered path goes over ends in a join. -/
theorem exists_joinAt (path : String) (way : List String) (segment : String)
    (h : schema.Registered root path) (hleads : LeadsOver path (way ++ [segment])) :
    ∃ join, schema.JoinAt root way segment join := by
  rcases Option.isSome_iff_exists.mp h with ⟨reached, hreach⟩
  rcases ((leadsOver_iff path _).mp hleads).2 with ⟨rest, hrest⟩
  rw [← hrest, List.append_assoc, reach_append, Option.bind_eq_some_iff] at hreach
  rcases hreach with ⟨entity, hentity, hreach⟩
  cases hrelation : schema.relation? entity segment with
  | none =>
      simp only [List.cons_append, Schema.reach, hrelation] at hreach
      exact absurd hreach (by simp only [reduceCtorEq, not_false_eq_true])
  | some relation => exact ⟨_, entity, relation, hentity, hrelation, rfl⟩

/-- The joins of all paths are told by their aliases. -/
theorem joinOn_unique (path other : String) (join join' : Join)
    (hjoin : schema.JoinOn root path join) (hjoin' : schema.JoinOn root other join')
    (h : join.tableAlias = join'.tableAlias) : join = join' := by
  rcases hjoin with ⟨way, segment, hleads, hjoin⟩
  rcases hjoin' with ⟨way', segment', hleads', hjoin'⟩
  have hfree : ∀ path way, LeadsOver path way → ∀ s ∈ way, '.' ∉ s.toList := by
    intro path way hleads s hs
    exact Text.dotted_free path s (hleads.2.1.subset hs)
  exact joinAt_unique schema root way way' segment segment' join join' hjoin hjoin'
    (hfree path _ hleads) (hfree other _ hleads') h

theorem joinOn_ne_root (path : String) (join : Join) (h : schema.JoinOn root path join) :
    join.tableAlias ≠ schema.tableName root := by
  rcases h with ⟨way, segment, _, entity, relation, _, _, hjoin⟩
  rw [hjoin]
  exact aliasOf_ne_root schema root _
    (List.append_ne_nil_of_right_ne_nil way (List.cons_ne_nil segment []))

theorem crossesToMany_iff (path : String) :
    schema.CrossesToMany root path ↔
      ∃ join, schema.JoinOn root path join ∧ join.toMany = true := by
  constructor
  · rintro ⟨way, segment, entity, relation, hleads, hreach, hrelation, hmany⟩
    exact ⟨_, ⟨way, segment, hleads, entity, relation, hreach, hrelation, rfl⟩, hmany⟩
  · rintro ⟨join, ⟨way, segment, hleads, entity, relation, hreach, hrelation, hjoin⟩, hmany⟩
    rw [hjoin] at hmany
    exact ⟨way, segment, entity, relation, hleads, hreach, hrelation, hmany⟩

/-- The table of a path is the root or one that the path goes over. -/
theorem aliasOf_relations (path : String) (h : schema.Registered root path) :
    schema.aliasOf root (Text.relations path) = schema.tableName root ∨
      ∃ join, schema.JoinOn root path join ∧
        join.tableAlias = schema.aliasOf root (Text.relations path) := by
  rcases List.eq_nil_or_concat (Text.relations path) with hnil | ⟨way, segment, hway⟩
  · rw [hnil]
    exact .inl (aliasOf_nil schema root)
  · rw [List.concat_eq_append] at hway
    have hleads : LeadsOver path (way ++ [segment]) := by
      rw [leadsOver_iff, hway]
      exact ⟨List.append_ne_nil_of_right_ne_nil way (List.cons_ne_nil segment []),
        List.prefix_refl _⟩
    rcases exists_joinAt schema root path way segment h hleads with ⟨join, hjoin⟩
    refine .inr ⟨join, ⟨way, segment, hleads, hjoin⟩, ?_⟩
    rcases hjoin with ⟨entity, relation, _, _, hjoin⟩
    rw [hjoin, hway]

end Joins

end Polyquery
