import Mathlib.Data.List.Forall2
import Mathlib.Data.List.Perm.Subperm
import Polyquery.Memory.Record
import Polyquery.Proofs.Json.Members
import Polyquery.Proofs.Memory.Sorting
import Polyquery.Proofs.Mongo.Literals

/-!
# Running a Pipeline

A pipeline sends the documents of a collection through its stages, one after the
other. What a stage does to them is written down here as far as it does not depend on
the expressions in it. The rest is a `Server`: the values of expressions, what passes
a filter, the order that documents are sorted into, and which of several equal values
stands for a group. A server is known by the laws that are documented for it, and
nothing is said of the runs that it refuses.

Two documents are the same when their members are, one by one and in this order. A
group of whole documents keeps one of those that are the same, so what comes out of
it is distinct, and stages that only choose and arrange documents leave it so
(`run_distinct`, `Server.Distinct.subperm`).

## Main definitions

* `without`: A document without some of its members.
* `GroupedBy`: Documents in groups.
* `Computes`: A field of a projection with a value of its own.
* `Server`: What the meaning of stages depends on.
* `Server.step?`, `Server.run?`: A stage and a pipeline on a collection.
* `Server.Same`, `Server.Distinct`: Equal documents, and lists without them.
* `Server.flat`: A server of flat documents, for which the laws hold.

## Theorems

* `same_iff`, `same_without`, `same_lookup`: Documents that are the same.
* `run_append`, `run_total`: The run of a pipeline.
* `run_distinct`: Documents that have been grouped as a whole.
* `run_sorting`, `run_page`: Documents that have been arranged and chosen.
-/

namespace Polyquery.Mongo

/-- A document without the members of some names. -/
def without (names : List String) (document : Record) : Record :=
  document.filter fun member => !names.contains member.1

/-- Documents in groups of equal keys, each with the document that its key is taken from. -/
structure GroupedBy (same : Json → Json → Prop) (key : Record → Json) (documents : List Record)
    (groups : List (Record × List Record)) : Prop where
  all : (groups.flatMap (·.2)).Perm documents
  stands : ∀ group ∈ groups, group.1 ∈ group.2
  alike : ∀ group ∈ groups, ∀ document ∈ group.2, same (key group.1) (key document)
  apart : groups.Pairwise fun a b => ¬ same (key a.1) (key b.1)

/-- A field that a projection computes. Nothing else in the projection is put under its name,
    and its value is not taken for a flag. -/
structure Computes (fields : List (String × Projected)) (name : String) (e : Expr) : Prop where
  mem : (name, .computed e) ∈ fields
  plain : Text.dotted name = [name]
  value : e.toJson.isFlag = false
  only : ∀ field ∈ fields, (Text.dotted field.1).head? = some name → field = (name, .computed e)

/-- What the meaning of stages depends on. -/
structure Server where
  /-- Whether values are equal. -/
  same : Json → Json → Prop
  /-- The value of an expression on a document, if there is one. -/
  value : Expr → Record → Option Json
  /-- The value of an accumulator on a group. -/
  accumulate : Expr → List Record → Json
  accepts : Filter → Record → Bool
  project : List (String × Projected) → Record → Record
  addFields : List (String × Expr) → Record → Record
  /-- The groups of documents by a key, in whatever order they come. -/
  groups : (Record → Json) → List Record → List (Record × List Record)
  sort : List (String × SortValue) → List Record → List Record
  same_equivalence : Equivalence same
  /-- Objects are compared member by member. -/
  same_object : ∀ a b, same (.object a) (.object b) ↔
    List.Forall₂ (fun m n => m.1 = n.1 ∧ same m.2 n.2) a b
  grouped : ∀ key documents, GroupedBy same key documents (groups key documents)
  sorted : ∀ keys documents, (sort keys documents).Perm documents
  /-- A projection that computes something keeps its own fields only, and the identity. -/
  project_only : ∀ fields document name e, Computes fields name e →
    ∀ member ∈ project fields document, member.1 = "_id" ∨
      ∃ field ∈ fields, (Text.dotted field.1).head? = some member.1
  project_field : ∀ fields document name e, Computes fields name e →
    List.lookup name (project fields document) = value e document
  /-- The last field comes last. -/
  project_last : ∀ fields document other x name e, Computes fields other x →
    Text.dotted name = [name] → e.toJson.isFlag = false →
      (∀ field ∈ fields, (Text.dotted field.1).head? ≠ some name) →
        project (fields ++ [(name, .computed e)]) document =
          project fields document ++ ((value e document).map fun v => (name, v)).toList

namespace Server

variable (server : Server)

/-- The members that stand for expressions on a document. One without a value has none. -/
def members (fields : List (String × Expr)) (document : Record) : Record :=
  fields.filterMap fun field => (server.value field.2 document).map fun v => (field.1, v)

/-- The key that a stage groups documents by. A native one is not read. -/
def keyOf? : GroupKey → Option (Record → Json)
  | .none => some fun _ => .null
  | .fields keys => some fun document => .object (server.members keys document)
  | .wholeDocument => some .object
  | .native _ => none

/-- The document that a group becomes. -/
def groupDocument (key : Record → Json) (values : List (String × Expr))
    (group : Record × List Record) : Record :=
  ("_id", key group.1) :: values.map fun (name, e) => (name, server.accumulate e group.2)

/-- The identity of a document, if that is a document itself. -/
def identity? (document : Record) : Option Record :=
  match List.lookup "_id" document with
  | some (.object members) => some members
  | _ => none

/-- The documents that a stage makes of others. -/
def step? (documents : List Record) : Stage → Option (List Record)
  | .matching filter => some (documents.filter (server.accepts filter))
  | .group key values => (server.keyOf? key).map fun key =>
    (server.groups key documents).map (server.groupDocument key values)
  | .project fields => some (documents.map (server.project fields))
  | .addFields fields => some (documents.map (server.addFields fields))
  | .replaceByKey => documents.mapM identity?
  | .sort keys => some (server.sort keys documents)
  | .skip count => some (documents.drop count)
  | .limit count => some (documents.take count)
  | .unset names => some (documents.map (without names))

/-- The documents that leave a pipeline. -/
def run? (stages : List Stage) (documents : List Record) : Option (List Record) :=
  stages.foldlM server.step? documents

/-- Whether documents are equal. -/
def Same (a b : Record) : Prop :=
  server.same (.object a) (.object b)

/-- No two of the documents are equal. -/
def Distinct (documents : List Record) : Prop :=
  documents.Pairwise fun a b => ¬ server.Same a b

section Equality

variable {server} {a b c : Record}

theorem Same.refl (a : Record) : server.Same a a :=
  server.same_equivalence.refl _

theorem Same.symm (h : server.Same a b) : server.Same b a :=
  server.same_equivalence.symm h

theorem Same.trans (hab : server.Same a b) (hbc : server.Same b c) : server.Same a c :=
  server.same_equivalence.trans hab hbc

theorem same_iff : server.Same a b ↔
    List.Forall₂ (fun m n => m.1 = n.1 ∧ server.same m.2 n.2) a b :=
  server.same_object a b

theorem Same.append {a' b' : Record} (h : server.Same a b) (h' : server.Same a' b') :
    server.Same (a ++ a') (b ++ b') :=
  same_iff.mpr (List.rel_append (same_iff.mp h) (same_iff.mp h'))

theorem same_without (names : List String) (h : server.Same a b) :
    server.Same (without names a) (without names b) := by
  refine same_iff.mpr (List.rel_filter ?_ (same_iff.mp h))
  rintro m n ⟨hname, _⟩
  simp only [hname]

theorem same_lookup (name : String) (h : server.Same a b) :
    Option.Rel server.same (List.lookup name a) (List.lookup name b) := by
  induction same_iff.mp h with
  | nil => exact .none
  | @cons m n as bs hfirst hrest ih =>
      rcases m with ⟨key, v⟩
      rcases n with ⟨key', w⟩
      rcases hfirst with ⟨rfl, hvalue⟩
      rw [lookup_cons_eq, lookup_cons_eq]
      split
      · exact .some hvalue
      · exact ih (same_iff.mpr hrest)

theorem same_members (fields : List (String × Expr))
    (h : ∀ field ∈ fields,
      Option.Rel server.same (server.value field.2 a) (server.value field.2 b)) :
    server.Same (server.members fields a) (server.members fields b) := by
  refine same_iff.mpr ?_
  unfold members
  induction fields with
  | nil => exact .nil
  | cons field rest ih =>
      rw [List.forall_mem_cons] at h
      rcases h with ⟨hfirst, hrest⟩
      rw [List.filterMap_cons, List.filterMap_cons]
      generalize server.value field.2 a = v at hfirst ⊢
      generalize server.value field.2 b = w at hfirst ⊢
      cases hfirst with
      | none => exact ih hrest
      | some hvalue => exact .cons ⟨rfl, hvalue⟩ (ih hrest)

/-- What is chosen from distinct documents in some order is distinct. -/
theorem Distinct.subperm {chosen documents : List Record} (h : server.Distinct documents)
    (hchosen : chosen.Subperm documents) : server.Distinct chosen := by
  rcases hchosen with ⟨arranged, hperm, hsublist⟩
  have harranged : arranged.Pairwise fun a b => ¬ server.Same a b :=
    List.Pairwise.sublist hsublist h
  exact hperm.pairwise harranged fun hab hba => hab hba.symm

end Equality

section Runs

theorem run_append (first rest : List Stage) (documents : List Record) :
    server.run? (first ++ rest) documents =
      (server.run? first documents).bind (server.run? rest) := by
  simp only [run?, List.foldlM_append]
  rfl

/-- A stage that has no native key to read and no identity to find. -/
inductive Total : Stage → Prop where
  | matching (filter : Filter) : Total (.matching filter)
  | group (key : GroupKey) (values : List (String × Expr)) (h : ∀ value, key ≠ .native value) :
    Total (.group key values)

theorem step_total {stage : Stage} (h : Total stage) (documents : List Record) :
    ∃ left, server.step? documents stage = some left := by
  cases h with
  | matching filter => exact ⟨_, rfl⟩
  | group key values hnative =>
      cases key with
      | native value => exact absurd rfl (hnative value)
      | _ => exact ⟨_, rfl⟩

theorem run_total {stages : List Stage} (h : ∀ stage ∈ stages, Total stage)
    (documents : List Record) : ∃ left, server.run? stages documents = some left := by
  induction stages generalizing documents with
  | nil => exact ⟨documents, rfl⟩
  | cons stage rest ih =>
      rw [List.forall_mem_cons] at h
      rcases server.step_total h.1 documents with ⟨next, hnext⟩
      rcases ih h.2 next with ⟨left, hleft⟩
      refine ⟨left, ?_⟩
      rw [run?, List.foldlM_cons, hnext]
      exact hleft

/-- Documents that are grouped as a whole and put back are those without equal ones. -/
theorem run_distinct (documents : List Record) : ∃ kept,
    server.run? [.group .wholeDocument [], .replaceByKey] documents = some kept ∧
      server.Distinct kept ∧ (∀ a ∈ kept, a ∈ documents) ∧
      ∀ a ∈ documents, ∃ b ∈ kept, server.Same b a := by
  have hgrouped := server.grouped .object documents
  -- The groups hold the documents, and each group is kept as one of them.
  have hmem (a : Record) : a ∈ documents ↔
      ∃ group ∈ server.groups .object documents, a ∈ group.2 := by
    rw [← hgrouped.all.mem_iff, List.mem_flatMap]
  refine ⟨(server.groups .object documents).map (·.1), ?_, ?_, fun a ha => ?_, fun a ha => ?_⟩
  · -- The identity of a group is the document that stands for it.
    have hidentity : ((server.groups .object documents).map
        (server.groupDocument .object [])).mapM identity? =
        some ((server.groups .object documents).map (·.1)) := by
      rw [List.mapM_map]
      exact List.mapM_pure
    change (((server.groups .object documents).map
      (server.groupDocument .object [])).mapM identity?).bind some = _
    rw [hidentity]
    rfl
  · exact List.pairwise_map.mpr hgrouped.apart
  · rcases List.mem_map.mp ha with ⟨group, hgroup, rfl⟩
    exact (hmem _).mpr ⟨group, hgroup, hgrouped.stands group hgroup⟩
  · rcases (hmem a).mp ha with ⟨group, hgroup, ha⟩
    exact ⟨group.1, List.mem_map.mpr ⟨group, hgroup, rfl⟩, hgrouped.alike group hgroup a ha⟩

theorem run_sorting (keys : List (String × SortValue)) (documents : List Record) : ∃ sorted,
    server.run? (if keys.isEmpty then [] else [.sort keys]) documents = some sorted ∧
      sorted.Perm documents := by
  split
  · exact ⟨documents, rfl, .refl _⟩
  · exact ⟨server.sort keys documents, rfl, server.sorted keys documents⟩

theorem run_page (page : Option Pagination) (documents : List Record) : ∃ cut,
    server.run? (pageStages page) documents = some cut ∧ cut.Sublist documents ∧
      (page = none → cut = documents) := by
  cases page with
  | none => exact ⟨documents, rfl, .refl _, fun _ => rfl⟩
  | some page =>
      refine ⟨page.window documents, ?_, (List.take_sublist _ _).trans (List.drop_sublist _ _),
        fun h => absurd h (by rintro ⟨⟩)⟩
      rw [pageStages, Pagination.window]
      by_cases hoffset : 0 < page.offset
      · rw [if_pos hoffset]
        rfl
      · rw [if_neg hoffset, Nat.eq_zero_of_not_pos hoffset]
        rfl

theorem without_nil (document : Record) : without [] document = document :=
  List.filter_eq_self.mpr fun _ _ => rfl

theorem run_unset (computed : List (String × Expr)) (documents : List Record) :
    server.run? (if computed.isEmpty then [] else [.unset (computed.map (·.1))]) documents =
      some (documents.map (without (computed.map (·.1)))) := by
  cases computed with
  | nil =>
      rw [show without (([] : List (String × Expr)).map (·.1)) = id from funext without_nil,
        List.map_id]
      rfl
  | cons field rest => rfl

end Runs

end Server

section Flat

open Classical

/-- The documents with a key, or those without it. -/
noncomputable def keyed (key : Record → Json) (value : Json) (wanted : Prop)
    (documents : List Record) : List Record :=
  documents.filter fun document => (value = key document) = wanted

theorem mem_keyed {key : Record → Json} {value : Json} {wanted : Prop} {documents : List Record}
    {document : Record} : document ∈ keyed key value wanted documents ↔
      document ∈ documents ∧ (value = key document) = wanted := by
  rw [keyed, List.mem_filter, decide_eq_true_iff]

theorem keyed_perm (key : Record → Json) (value : Json) (documents : List Record) :
    (keyed key value True documents ++ keyed key value False documents).Perm documents := by
  have hsplit := List.filter_append_perm (fun document => decide (value = key document)) documents
  simpa only [keyed, eq_iff_iff, iff_true, iff_false, decide_not] using hsplit

/-- Documents in groups of equal keys, in the order of their first documents. -/
noncomputable def firstGroups (key : Record → Json) : List Record → List (Record × List Record)
  | [] => []
  | first :: rest =>
    (first, first :: keyed key (key first) True rest) ::
      firstGroups key (keyed key (key first) False rest)
termination_by documents => documents.length
decreasing_by exact Nat.lt_succ_of_le (List.length_filter_le _ _)

theorem firstGroups_grouped (key : Record → Json) (documents : List Record) :
    GroupedBy Eq key documents (firstGroups key documents) := by
  -- Each step takes out the documents with the key of the first one, and goes on with the others.
  induction documents using firstGroups.induct key with
  | case1 =>
      rw [firstGroups]
      exact ⟨.refl _, fun _ h => absurd h List.not_mem_nil, fun _ h => absurd h List.not_mem_nil,
        .nil⟩
  | case2 first rest ih =>
      rw [firstGroups]
      constructor
      case all =>
        rw [List.flatMap_cons, List.cons_append]
        exact List.Perm.cons first
          ((ih.all.append_left _).trans (keyed_perm key (key first) rest))
      case stands =>
        rw [List.forall_mem_cons]
        exact ⟨List.mem_cons_self, ih.stands⟩
      case alike =>
        rw [List.forall_mem_cons]
        refine ⟨fun document hdocument => ?_, ih.alike⟩
        rcases List.mem_cons.mp hdocument with rfl | hrest
        · rfl
        · exact of_eq_true (mem_keyed.mp hrest).2
      case apart =>
        rw [List.pairwise_cons]
        refine ⟨fun group hgroup => ?_, ih.apart⟩
        -- A later group holds documents that were not taken out here.
        have hmem := ih.all.mem_iff.mp
          (List.mem_flatMap.mpr ⟨group, hgroup, ih.stands group hgroup⟩)
        exact of_eq_false (mem_keyed.mp hmem).2

variable (value : Expr → Record → Option Json) (document : Record)

/-- The member that a field of a projection becomes in a flat document. -/
def flatMember (field : String × Projected) : Option (String × Json) :=
  match field.2, (Text.dotted field.1).head? with
  | .computed e, some name => (value e document).map fun v => (name, v)
  | _, _ => none

theorem flatMember_name (field : String × Projected) (member : String × Json)
    (h : flatMember value document field = some member) :
    (Text.dotted field.1).head? = some member.1 := by
  unfold flatMember at h
  split at h
  case h_1 e name _ hname =>
    rcases Option.map_eq_some_iff.mp h with ⟨v, _, rfl⟩
    exact hname
  case h_2 => exact absurd h (by rintro ⟨⟩)

theorem flatMember_plain (name : String) (e : Expr) (hplain : Text.dotted name = [name]) :
    flatMember value document (name, .computed e) = (value e document).map fun v => (name, v) := by
  simp only [flatMember, hplain, List.head?_cons]

/-- A field that is computed is found under its name. -/
theorem lookup_flat (fields : List (String × Projected)) (name : String) (e : Expr)
    (hplain : Text.dotted name = [name])
    (honly : ∀ field ∈ fields, (Text.dotted field.1).head? = some name →
      field = (name, .computed e)) :
    List.lookup name (fields.filterMap (flatMember value document)) =
      if (name, .computed e) ∈ fields then value e document else none := by
  induction fields with
  | nil => exact (if_neg List.not_mem_nil).symm
  | cons field rest ih =>
      rw [List.forall_mem_cons] at honly
      rw [List.filterMap_cons]
      -- A field that begins with the name is the computed one, which may have no value.
      by_cases hhead : (Text.dotted field.1).head? = some name
      · rw [honly.1 hhead, flatMember_plain value document name e hplain,
          if_pos List.mem_cons_self]
        cases hvalue : value e document with
        | none =>
            refine (ih honly.2).trans ?_
            rw [hvalue, ite_self]
        | some v => rw [Option.map_some, lookup_cons_eq, if_pos rfl]
      · -- A member of another name is passed over.
        have hmem : (name, Projected.computed e) ∈ field :: rest ↔
            (name, Projected.computed e) ∈ rest := by
          rw [List.mem_cons, or_iff_right]
          rintro rfl
          exact hhead (by rw [hplain]; rfl)
        simp only [hmem]
        cases hmember : flatMember value document field with
        | none => exact ih honly.2
        | some member =>
            have hname := flatMember_name value document field member hmember
            rw [lookup_cons_eq, if_neg]
            · exact ih honly.2
            · rintro rfl
              exact hhead hname

/-- The order of flat documents by the values of some of their members. -/
def compareMembers (a b : Record) : List (String × SortValue) → Ordering
  | [] => .eq
  | (name, .by direction) :: rest =>
    (direction.apply (((List.lookup name a).bind fun v => (List.lookup name b).bind fun w =>
      compareValues v w).getD .eq)).then (compareMembers a b rest)
  | (_, .native _) :: rest => compareMembers a b rest

/-- A server of flat documents. It compares values as they are. -/
noncomputable def Server.flat (value : Expr → Record → Option Json)
    (accumulate : Expr → List Record → Json) (accepts : Filter → Record → Bool) : Server where
  same := Eq
  value := value
  accumulate := accumulate
  accepts := accepts
  project fields document := fields.filterMap (flatMember value document)
  addFields fields document := extend document
    (fields.filterMap fun field => (value field.2 document).map fun v => (field.1, v))
  groups := firstGroups
  sort keys documents := insertionSort (fun a b => compareMembers a b keys == .lt) documents
  same_equivalence := eq_equivalence
  same_object a b := by
    have hpairs : (fun m n : String × Json => m.1 = n.1 ∧ m.2 = n.2) = Eq := by
      funext m n
      exact propext Prod.ext_iff.symm
    rw [hpairs, List.forall₂_eq_eq_eq]
    exact ⟨fun h => Json.object.inj h, fun h => congrArg _ h⟩
  grouped := firstGroups_grouped
  sorted _ documents := insertionSort_perm _ documents
  project_only fields document _ _ _ member hmember := by
    rcases List.mem_filterMap.mp hmember with ⟨field, hfield, h⟩
    exact .inr ⟨field, hfield, flatMember_name value document field member h⟩
  project_field fields document name e h := by
    rw [lookup_flat value document fields name e h.plain h.only, if_pos h.mem]
  project_last fields document _ _ name e _ hplain _ _ := by
    rw [List.filterMap_append, List.filterMap_cons, flatMember_plain value document name e hplain]
    cases value e document <;> rfl

end Flat

end Polyquery.Mongo
