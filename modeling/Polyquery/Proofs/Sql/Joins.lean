import Polyquery.Proofs.Schema.Path
import Polyquery.Sql.Select

/-!
# The Joins of a Statement

Which joins a list of paths leads to. The paths are gone through one after the
other, and each adds those of its joins whose alias is new. Since an alias
names one join, what is left out was there already, so in the end the joins are
those of all paths, each of them once.

A join can only refer to a table that stands before it. On a single way every
join refers to the one before it, and the first one to the root. When some of
them are left out, they are there already, so the next one still finds the
table that it refers to. `parentsFirst_addJoins` carries this along the way:
the table of the last join that was looked at is always there.

## Main definitions

* `ParentsFirst`: Every join refers to the root or to a join before it.
* `Chained`: Every join refers to the one right before it.
* `JoinPlan.Exact`: The joins are those of the paths.

## Theorems

* `parentsFirst_addJoins`, `nodup_addJoins`, `mem_addJoins`: Joins that are
  added.
* `exact_add`: One more path.
* `joinPlan_exact`, `joinPlan_broken`: All paths.
* `first_broken`: The first path that cannot be resolved.
-/

namespace Polyquery.Sql

/-- Every join refers to the root or to a join before it. -/
def ParentsFirst (rootAlias : String) (joins : List Join) : Prop :=
  ∀ before join after, joins = before ++ join :: after →
    join.parentAlias = rootAlias ∨ ∃ earlier ∈ before, earlier.tableAlias = join.parentAlias

/-- Every join refers to the one right before it, and the first one to a table that stands
    under an alias. -/
def Chained (tableAlias : String) : List Join → Prop
  | [] => True
  | join :: rest => join.parentAlias = tableAlias ∧ Chained join.tableAlias rest

section Adding

variable {rootAlias : String}

theorem parentsFirst_nil : ParentsFirst rootAlias [] := by
  intro before join after h
  exact absurd h.symm (List.append_ne_nil_of_right_ne_nil before (List.cons_ne_nil join after))

theorem parentsFirst_concat (joins : List Join) (join : Join) (h : ParentsFirst rootAlias joins)
    (hparent : join.parentAlias = rootAlias ∨
      ∃ earlier ∈ joins, earlier.tableAlias = join.parentAlias) :
    ParentsFirst rootAlias (joins ++ [join]) := by
  intro before other after hsplit
  rcases List.eq_nil_or_concat after with hnil | ⟨rest, last, hafter⟩
  · -- The join that is asked about is the last one.
    rw [hnil] at hsplit
    rcases List.append_inj' hsplit rfl with ⟨hbefore, hlast⟩
    rw [← (List.cons.inj hlast).1, ← hbefore]
    exact hparent
  · rw [hafter, List.concat_eq_append, ← List.cons_append, ← List.append_assoc] at hsplit
    exact h before other rest (List.append_inj' hsplit rfl).1

/-- Joins along one way go on behind joins that have the table in which the way starts. -/
theorem parentsFirst_addJoins (added : List Join) :
    ∀ (joins : List Join) (start : String), ParentsFirst rootAlias joins → Chained start added →
      (start = rootAlias ∨ ∃ earlier ∈ joins, earlier.tableAlias = start) →
      ParentsFirst rootAlias (addJoins joins added) := by
  induction added with
  | nil =>
      intro joins start h _ _
      exact h
  | cons join rest ih =>
      intro joins start h hchained hstart
      rcases hchained with ⟨hparent, hrest⟩
      simp only [addJoins]
      split
      · -- The join is there already, so the way goes on behind the one that was there.
        rename_i hknown
        rcases List.any_eq_true.mp hknown with ⟨other, hmem, halias⟩
        exact ih joins join.tableAlias h hrest (.inr ⟨other, hmem, beq_iff_eq.mp halias⟩)
      · -- A new join comes behind the others, and so behind its parent.
        refine ih _ join.tableAlias (parentsFirst_concat joins join h ?_) hrest ?_
        · rw [hparent]
          exact hstart
        · exact .inr ⟨join, List.mem_append_right joins List.mem_cons_self, rfl⟩

/-- No alias is added twice. -/
theorem nodup_addJoins (added : List Join) :
    ∀ joins : List Join, (joins.map (·.tableAlias)).Nodup →
      ((addJoins joins added).map (·.tableAlias)).Nodup := by
  induction added with
  | nil => exact fun joins h => h
  | cons join rest ih =>
      intro joins h
      simp only [addJoins]
      split
      · exact ih joins h
      · rename_i hnew
        refine ih _ ?_
        rw [List.map_append, List.map_singleton, List.nodup_append]
        refine ⟨h, List.pairwise_singleton _ _, ?_⟩
        intro a ha b hb heq
        rcases List.mem_map.mp ha with ⟨other, hmem, halias⟩
        rw [heq, List.mem_singleton.mp hb] at halias
        exact hnew (List.any_eq_true.mpr ⟨other, hmem, beq_iff_eq.mpr halias⟩)

/-- Where an alias names one join, nothing is lost when only new aliases are added. -/
theorem mem_addJoins (added : List Join) :
    ∀ joins : List Join,
      (∀ join ∈ joins ++ added, ∀ other ∈ joins ++ added,
        join.tableAlias = other.tableAlias → join = other) →
      ∀ join, join ∈ addJoins joins added ↔ join ∈ joins ∨ join ∈ added := by
  induction added with
  | nil =>
      intro joins _ join
      simp only [addJoins, List.not_mem_nil, or_false]
  | cons first rest ih =>
      intro joins hunique join
      simp only [addJoins]
      split
      · -- The alias is known, and so is the join: there is only one join for an alias.
        rename_i hknown
        rcases List.any_eq_true.mp hknown with ⟨other, hmem, halias⟩
        have hfirst : first ∈ joins := by
          have hsame := hunique other (List.mem_append_left _ hmem) first
            (List.mem_append_right _ List.mem_cons_self) (beq_iff_eq.mp halias)
          rw [← hsame]
          exact hmem
        have hsub : ∀ x ∈ joins ++ rest, x ∈ joins ++ first :: rest := by
          intro x hx
          rw [List.mem_append, List.mem_cons]
          rcases List.mem_append.mp hx with hx | hx
          · exact .inl hx
          · exact .inr (.inr hx)
        rw [ih joins (fun a ha b hb => hunique a (hsub a ha) b (hsub b hb)) join, List.mem_cons]
        constructor
        · rintro (hjoin | hjoin)
          · exact .inl hjoin
          · exact .inr (.inr hjoin)
        · rintro (hjoin | hjoin | hjoin)
          · exact .inl hjoin
          · rw [hjoin]
            exact .inl hfirst
          · exact .inr hjoin
      · -- A new alias puts the join behind the others.
        rw [ih (joins ++ [first]) (by rwa [List.append_assoc, List.singleton_append]) join,
          List.mem_append, List.mem_singleton, List.mem_cons, or_assoc]

end Adding

section Plan

variable (schema : Schema) (root : String)

theorem chained_joinsFrom (way : List String) :
    ∀ entity tableAlias, Chained tableAlias (schema.joinsFrom entity tableAlias way) := by
  induction way with
  | nil => exact fun _ _ => trivial
  | cons segment rest ih =>
      intro entity tableAlias
      simp only [Schema.joinsFrom]
      cases schema.relation? entity segment with
      | none => trivial
      | some relation => exact ⟨rfl, ih relation.target _⟩

/-- The joins of a plan are those of some paths, each once and behind the table that it refers
    to, and the plan says whether a path that counts goes over a relation to many records. -/
structure JoinPlan.Exact (plan : JoinPlan) (uses : List PathUse) : Prop where
  nodup : (plan.joins.map (·.tableAlias)).Nodup
  parents : ParentsFirst (schema.tableName root) plan.joins
  mem : ∀ join, join ∈ plan.joins ↔ ∃ use ∈ uses, schema.JoinOn root use.path join
  multiplies : plan.multiplies = true ↔
    ∃ use ∈ uses, use.counts = true ∧ schema.CrossesToMany root use.path

theorem exact_nil : JoinPlan.Exact schema root ⟨[], false⟩ [] where
  nodup := List.nodup_nil
  parents := parentsFirst_nil
  mem := by simp only [List.not_mem_nil, false_and, exists_false, implies_true]
  multiplies := by simp only [Bool.false_eq_true, List.not_mem_nil, false_and, exists_false]

/-- Whether a resolved path crosses a relation to many records. -/
theorem crossesToMany_resolved (path tableAlias column : String)
    (h : schema.Registered root path) :
    ResolvedPath.crossesToMany
        ⟨schema.joinsFrom root (schema.tableName root) (Text.relations path), tableAlias,
          column⟩ = true ↔
      schema.CrossesToMany root path := by
  unfold ResolvedPath.crossesToMany
  rw [List.any_eq_true, crossesToMany_iff]
  constructor
  · rintro ⟨join, hmem, hmany⟩
    exact ⟨join, (mem_joinsFrom_iff schema root path h join).mp hmem, hmany⟩
  · rintro ⟨join, hjoin, hmany⟩
    exact ⟨join, (mem_joinsFrom_iff schema root path h join).mpr hjoin, hmany⟩

/-- One more path that can be resolved. -/
theorem exact_add (plan : JoinPlan) (uses : List PathUse) (use : PathUse)
    (hplan : plan.Exact schema root uses) (h : schema.Registered root use.path) :
    ∃ next, plan.add schema root use = .ok next ∧ next.Exact schema root (uses ++ [use]) := by
  rcases resolve_registered schema root use.path h with ⟨column, hresolve⟩
  have hcrosses := crossesToMany_resolved schema root use.path
    (schema.aliasOf root (Text.relations use.path)) column h
  have hmem := mem_joinsFrom_iff schema root use.path h
  generalize hjoins : schema.joinsFrom root (schema.tableName root) (Text.relations use.path) =
    joins at hresolve hcrosses hmem
  refine ⟨_, by simp only [JoinPlan.add, hresolve, ok_bind]; rfl, ?_, ?_, ?_, ?_⟩
  case refine_1 => exact nodup_addJoins joins plan.joins hplan.nodup
  case refine_2 =>
    refine parentsFirst_addJoins joins plan.joins _ hplan.parents ?_ (.inl rfl)
    rw [← hjoins]
    exact chained_joinsFrom schema _ root _
  case refine_3 =>
    -- All joins at hand are on the ways of paths, where an alias names one join.
    have hon : ∀ join ∈ plan.joins ++ joins, ∃ path, schema.JoinOn root path join := by
      intro join hjoin
      rcases List.mem_append.mp hjoin with hold | hnew
      · rcases (hplan.mem join).mp hold with ⟨use, _, hon⟩
        exact ⟨use.path, hon⟩
      · exact ⟨use.path, (hmem join).mp hnew⟩
    intro join
    rw [mem_addJoins joins plan.joins ?_ join, hplan.mem, hmem]
    · simp only [List.mem_append, List.mem_singleton, or_and_right, exists_or, exists_eq_left]
    · intro a ha b hb halias
      rcases hon a ha with ⟨path, hpath⟩
      rcases hon b hb with ⟨other, hother⟩
      exact joinOn_unique schema root path other a b hpath hother halias
  case refine_4 =>
    rw [Bool.or_eq_true, Bool.and_eq_true, hplan.multiplies, hcrosses]
    simp only [List.mem_append, List.mem_singleton, or_and_right, exists_or, exists_eq_left]

/-- All paths, one after the other, on top of those that a plan has already. -/
theorem foldlM_exact (uses : List PathUse) :
    ∀ (plan : JoinPlan) (done : List PathUse), plan.Exact schema root done →
      (∀ use ∈ uses, schema.Registered root use.path) →
      ∃ next, uses.foldlM (JoinPlan.add schema root) plan = .ok next ∧
        next.Exact schema root (done ++ uses) := by
  induction uses with
  | nil =>
      intro plan done hplan _
      refine ⟨plan, rfl, ?_⟩
      rw [List.append_nil]
      exact hplan
  | cons use rest ih =>
      intro plan done hplan h
      rcases exact_add schema root plan done use hplan (h use List.mem_cons_self) with
        ⟨next, hnext, hexact⟩
      rcases ih next (done ++ [use]) hexact (fun u hu => h u (List.mem_cons_of_mem use hu)) with
        ⟨last, hlast, hexact⟩
      refine ⟨last, ?_, ?_⟩
      · rw [List.foldlM_cons, hnext, ok_bind, hlast]
      · rw [List.append_assoc, List.singleton_append] at hexact
        exact hexact

theorem joinPlan_exact (uses : List PathUse)
    (h : ∀ use ∈ uses, schema.Registered root use.path) :
    ∃ plan, joinPlan schema root uses = .ok plan ∧ plan.Exact schema root uses := by
  rcases foldlM_exact schema root uses ⟨[], false⟩ [] (exact_nil schema root) h with
    ⟨plan, hplan, hexact⟩
  exact ⟨plan, hplan, by rwa [List.nil_append] at hexact⟩

/-- The first path that breaks off decides the error. -/
theorem joinPlan_broken (before after : List PathUse) (use : PathUse) (entity segment : String)
    (hbefore : ∀ use ∈ before, schema.Registered root use.path)
    (h : schema.Breaks root use.path entity segment) :
    joinPlan schema root (before ++ use :: after) = .error (.unknownRelation entity segment) := by
  rcases joinPlan_exact schema root before hbefore with ⟨plan, hplan, _⟩
  unfold joinPlan at hplan ⊢
  rw [List.foldlM_append, hplan, ok_bind, List.foldlM_cons]
  simp only [JoinPlan.add, resolve_broken schema root use.path entity segment h, error_bind]

/-- Among paths that cannot all be resolved there is a first one that breaks off. -/
theorem first_broken (paths : List String) (h : ¬ ∀ path ∈ paths, schema.Registered root path) :
    ∃ before path after entity segment, paths = before ++ path :: after ∧
      (∀ other ∈ before, schema.Registered root other) ∧
      schema.Breaks root path entity segment := by
  induction paths with
  | nil =>
      exfalso
      apply h
      simp only [List.not_mem_nil, false_implies, implies_true]
  | cons path rest ih =>
      rcases registered_or_breaks schema root path with hpath | ⟨entity, segment, hbreaks⟩
      · -- The first path is registered, so the one that breaks is among the others.
        have hrest : ¬ ∀ other ∈ rest, schema.Registered root other := by
          intro hall
          apply h
          intro other hmem
          rcases List.mem_cons.mp hmem with heq | htail
          · rw [heq]
            exact hpath
          · exact hall other htail
        rcases ih hrest with ⟨before, other, after, entity, segment, hsplit, hbefore, hbreaks⟩
        refine ⟨path :: before, other, after, entity, segment, ?_, ?_, hbreaks⟩
        · rw [hsplit, List.cons_append]
        · intro first hmem
          rcases List.mem_cons.mp hmem with heq | htail
          · rw [heq]
            exact hpath
          · exact hbefore first htail
      · exact ⟨[], path, rest, entity, segment, rfl, by simp only [List.not_mem_nil,
          false_implies, implies_true], hbreaks⟩

end Plan

end Polyquery.Sql
