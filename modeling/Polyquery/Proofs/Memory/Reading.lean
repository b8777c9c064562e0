import Mathlib.Data.List.Forall2
import Polyquery.Memory.Filter
import Polyquery.Proofs.Backend.Hindrances
import Polyquery.Proofs.Condition.Results
import Polyquery.Proofs.Memory.Evaluation
import Polyquery.Sql.Select

/-!
# What Is Read of a Record

A query reads of its records what lies at the paths that it names, and nothing else. So
the relations on the way to these paths are all that a database has to join, and the
paths of an expression and of a comparison are where they are collected from. There is
no other access to a record: two records that have the same values at these paths
cannot be told apart, however much they differ.

This is a statement about two evaluations. It is proved for any relation between what
they are carried out on (`Respects`), since two such relations are of interest. An
aggregate looks at every record of a group, so the groups have to agree record by
record. An expression without aggregates looks at the record that stands for a group
and at no other, and then the rest of the two groups does not matter at all.

Calls need a step each for the two kinds of functions. A function that is no aggregate
computes its value from the values of its arguments on the same group, and an aggregate
from the values on the records of the group, each by itself.

## Main definitions

* `Record.AgreeOn`, `Rows.AgreeOn`: The same values at some paths.
* `Respects`: A function of groups that does not tell related groups apart.
* `Sql.joinedPaths`: The paths for which a statement is joined.

## Theorems

* `computes_respects`, `aggregate_respects`: The two kinds of functions.
* `evaluator_agrees`, `evaluator_local`: The value of an expression.
* `rowTest_respects`, `condition_agrees`: The test of a condition.
* `paths_subset`, `leafPaths_subset`: The paths of a statement are complete.
* `reads_named`: What is read of records and of groups.
-/

namespace Polyquery

/-- Two records have the same values at some paths. -/
def Record.AgreeOn (paths : List String) (a b : Record) : Prop :=
  ∀ path ∈ paths, a.lookup path = b.lookup path

/-- Two groups have as many records, which have the same values at some paths one by one, and so
    have the records that stand for the groups. -/
structure Rows.AgreeOn (paths : List String) (r s : Rows) : Prop where
  current : r.current.AgreeOn paths s.current
  group : List.Forall₂ (Record.AgreeOn paths) r.group s.group

/-- A function of groups has the same result on related ones. -/
def Respects {α : Type} (Related : Rows → Rows → Prop) (f : Rows → α) : Prop :=
  ∀ r s, Related r s → f r = f s

namespace Respects

variable {α β γ : Type} {Related : Rows → Rows → Prop} {f : Rows → α} {g : Rows → β}

theorem map (h : α → β) (hf : Respects Related f) : Respects Related fun rows => h (f rows) :=
  fun r s hrelated => congrArg h (hf r s hrelated)

theorem map₂ (h : α → β → γ) (hf : Respects Related f) (hg : Respects Related g) :
    Respects Related fun rows => h (f rows) (g rows) :=
  fun r s hrelated => congrArg₂ h (hf r s hrelated) (hg r s hrelated)

end Respects

section Groups

variable {paths fewer : List String} {a b : Record} {r s : Rows}

theorem Record.AgreeOn.mono (h : a.AgreeOn paths b) (hfewer : fewer ⊆ paths) :
    a.AgreeOn fewer b :=
  fun path hpath => h path (hfewer hpath)

theorem Rows.AgreeOn.mono (h : r.AgreeOn paths s) (hfewer : fewer ⊆ paths) :
    r.AgreeOn fewer s :=
  ⟨h.current.mono hfewer, h.group.imp fun _ _ hab => hab.mono hfewer⟩

theorem agreeOn_single (h : a.AgreeOn paths b) : (Rows.single a).AgreeOn paths (.single b) :=
  ⟨h, .cons h .nil⟩

/-- Groups that agree record by record are stood for by records that agree. -/
theorem agreeOn_ofGroup {as bs : List Record} (h : List.Forall₂ (Record.AgreeOn paths) as bs) :
    (Rows.ofGroup as).AgreeOn paths (.ofGroup bs) := by
  refine ⟨?_, h⟩
  cases h with
  | nil => exact fun _ _ => rfl
  | cons hfirst _ => exact hfirst

end Groups

section Expressions

open Evaluator

variable {Related : Rows → Rows → Prop}

/-- What is computed from values is the same if the values are. -/
theorem computes_respects {handler : FunctionHandler Evaluator} {f : List Json → Json}
    (h : handler.Computes f) : handler.Keeps (Respects Related) := by
  intro function arguments e harguments he r s hrelated
  rw [h function arguments e he r, h function arguments e he s]
  exact congrArg f (List.map_congr_left fun a ha => harguments a ha r s hrelated)

/-- An aggregate ranges over the same values on groups that agree record by record. -/
theorem aggregate_respects (paths : List String) (reduce : List Json → Json) :
    (aggregate reduce).Keeps (Respects (Rows.AgreeOn paths)) := by
  intro function arguments e harguments he
  rcases bind_eq_ok.mp he with ⟨a, ha, he⟩
  rw [one_eq_ok.mp ha, List.forall_mem_singleton] at harguments
  rw [← Except.ok.inj he]
  intro r s hagree
  -- The argument is evaluated on each record as on a group of its own.
  have hvalues : r.group.map (fun record => a (.single record)) =
      s.group.map fun record => a (.single record) := by
    rw [← List.forall₂_eq_eq_eq, List.forall₂_map_left_iff, List.forall₂_map_right_iff]
    exact hagree.group.imp fun _ _ hrecords => harguments _ _ (agreeOn_single hrecords)
  change reduce (a.valuesOn r.group) = reduce (a.valuesOn s.group)
  rw [valuesOn, hvalues, valuesOn]

/-- Without aggregates nothing but the paths has to be respected. -/
theorem hereditary_plain (clock : Clock) (Related : Rows → Rows → Prop) :
    Hereditary clock (fun function => function.isAggregate = false) (Respects Related) := by
  refine ⟨fun _ _ _ _ => rfl, fun entry hmem hplain => ?_⟩
  rcases evaluation_cases clock entry hmem with ⟨_, f, hf⟩ | ⟨haggregate, _⟩
  · exact computes_respects hf
  · exact absurd (haggregate.symm.trans hplain) (by decide)

theorem hereditary_agree (clock : Clock) (paths : List String) :
    Hereditary clock (fun _ => True) (Respects (Rows.AgreeOn paths)) := by
  refine ⟨fun _ _ _ _ => rfl, fun entry hmem _ => ?_⟩
  rcases evaluation_cases clock entry hmem with ⟨_, f, hf⟩ | ⟨_, reduce, hreduce⟩
  · exact computes_respects hf
  · rw [hreduce]
    exact aggregate_respects paths reduce

/-- An expression has the same value on groups that agree on its paths. -/
theorem evaluator_agrees (clock : Clock) (x : Expression) (f : Evaluator)
    (h : x.evaluator clock = .ok f) {paths : List String} (hpaths : x.paths ⊆ paths) :
    Respects (Rows.AgreeOn paths) f :=
  x.evaluator_has (hereditary_agree clock paths) f
    (fun path hpath _ _ hagree => hagree.current path (hpaths hpath)) (fun _ _ => trivial) h

/-- An expression without aggregates has the same value where the records that stand for the groups
    agree on its paths. -/
theorem evaluator_local (clock : Clock) (x : Expression) (f : Evaluator)
    (h : x.evaluator clock = .ok f) (hplain : x.aggregate? = none) :
    Respects (fun r s => r.current.AgreeOn x.paths s.current) f := by
  refine x.evaluator_has (hereditary_plain clock _) f
    (fun path hpath _ _ hagree => hagree path hpath)
    (fun function hfunction => ?_) h
  rw [← Bool.not_eq_true]
  intro haggregate
  -- The first aggregate of the expression would be found.
  have hsome := (x.aggregate?_isSome_iff).mpr ⟨function, hfunction, haggregate⟩
  rw [hplain] at hsome
  exact absurd hsome Bool.false_ne_true

end Expressions

section Conditions

variable (clock : Clock) {Related : Rows → Rows → Prop}

/-- The test of a comparison looks at the value of its left side and, if the right side is another
    property, at the value of that. -/
theorem rowTest_respects (leaf : SimpleCondition) (ctx : WalkContext) (test : RowTest)
    (h : leaf.rowTest clock ctx = .ok test)
    (hleft : ∀ f, leaf.left.evaluator clock = .ok f → Respects Related f)
    (hfield : ∀ path, leaf.value = some (.field path) →
      Respects Related fun rows => rows.current.lookup path) : Respects Related test := by
  rcases bind_eq_ok.mp h with ⟨left, hevaluator, h⟩
  have hvalue := hleft left hevaluator
  generalize Polarity.of leaf.operator ctx.negated = polarity at h
  rcases polarity with ⟨op, wrapped⟩
  -- The form of the right side decides on the test, and only a path is looked up in the records.
  rcases hright : leaf.value with _ | (literal | items | path)
  · rw [hright] at h
    rw [← Except.ok.inj h]
    exact hvalue.map (nullTest op)
  · rw [hright] at h
    dsimp only at h
    split at h
    · split at h
      · cases h
      · rw [← Except.ok.inj h]
        exact hvalue.map (patternTest op wrapped _)
    · rw [← Except.ok.inj h]
      exact hvalue.map fun value => comparisonTest op wrapped value literal.toJson
  · rw [hright] at h
    rw [← Except.ok.inj h]
    exact hvalue.map (memberTest op _)
  · rw [hright] at h
    rw [← Except.ok.inj h]
    exact hvalue.map₂ (comparisonTest op wrapped) (hfield path hright)

/-- Tests that are joined do not tell groups apart if none of them does. -/
theorem keeps_respects : (rowInterpretation clock).Keeps (Respects Related) where
  matchAll _ _ _ := rfl
  combine connective parts hparts r s hrelated := by
    have hsame : parts.map (fun test => test r) = parts.map fun test => test s :=
      List.map_congr_left fun part hpart => hparts part hpart r s hrelated
    cases connective with
    | and =>
        have hall := congrArg (List.all · id) hsame
        simp only [List.all_map] at hall
        exact hall
    | or =>
        have hany := congrArg (List.any · id) hsame
        simp only [List.any_map] at hany
        exact hany

/-- A condition does not tell groups apart that agree on the paths of its comparisons. -/
theorem condition_agrees (c : Condition) (hnative : c.nativeFree = true) (ctx : WalkContext)
    (test : RowTest) (h : (rowInterpretation clock).condition c ctx = .ok test) :
    Respects (Rows.AgreeOn (c.leaves.flatMap Sql.leafPaths)) test := by
  refine Interpretation.condition_keeps (keeps_respects clock) c ctx test hnative ?_ h
  intro leaf hleaf ctx test htest
  have hpaths : Sql.leafPaths leaf ⊆ c.leaves.flatMap Sql.leafPaths := fun path hpath =>
    List.mem_flatMap.mpr ⟨leaf, hleaf, hpath⟩
  refine rowTest_respects clock leaf ctx test htest (fun f hf => ?_)
    fun path hfield r s hagree => ?_
  · exact evaluator_agrees clock leaf.left f hf
      (List.Subset.trans (List.subset_append_left _ _) hpaths)
  · refine hagree.current path (hpaths (List.mem_append_right _ ?_))
    rw [hfield]
    exact List.mem_singleton.mpr rfl

end Conditions

section Joins

variable (parts : QueryParts)

/-- The paths that a statement is joined for. -/
def Sql.joinedPaths (parts : QueryParts) : List String :=
  (pathUses parts).map (·.path)

/-- A statement is joined for the paths of all expressions that the query reads. -/
theorem paths_subset (x : Expression) (hx : x ∈ parts.read) : x.paths ⊆ Sql.joinedPaths parts :=
  fun path hpath => List.mem_map.mpr (Sql.use_of_read parts x hx path hpath)

/-- A statement is joined for the paths of all comparisons. -/
theorem leafPaths_subset (c : Condition) (hc : parts.filter = some c ∨ parts.having = some c) :
    c.leaves.flatMap Sql.leafPaths ⊆ Sql.joinedPaths parts := by
  intro path hpath
  refine List.mem_map.mpr ?_
  rcases hc with hfilter | hhaving
  · refine ⟨⟨path, true⟩, List.mem_append_left _ (List.mem_map.mpr ⟨path, ?_, rfl⟩), rfl⟩
    rw [hfilter, leavesOf_some]
    exact List.mem_append_left _ hpath
  · refine ⟨⟨path, false⟩, List.mem_append_right _ (List.mem_map.mpr ⟨path, ?_, rfl⟩), rfl⟩
    rw [hhaving, leavesOf_some]
    exact List.mem_append_right _ hpath

end Joins

/-- A query reads what lies at the paths that it names. Two records that have the same values at the
    paths of a condition pass the same tests, whether the condition is turned around or not, and
    an expression has the same value on two records with the same values at its paths. Two groups
    of as many records that agree like this one by one cannot be told apart either, also by
    aggregates. Without aggregates an expression depends on the records that stand for the
    groups alone. So the paths for which a statement is joined are all that the conditions and
    the expressions of the query read. -/
theorem reads_named (clock : Clock) :
    (∀ c : Condition, c.nativeFree = true → ∀ ctx test,
      (rowInterpretation clock).condition c ctx = .ok test →
      (∀ a b : Record, a.AgreeOn (c.leaves.flatMap Sql.leafPaths) b →
        test (.single a) = test (.single b)) ∧
      ∀ as bs, List.Forall₂ (Record.AgreeOn (c.leaves.flatMap Sql.leafPaths)) as bs →
        test (.ofGroup as) = test (.ofGroup bs)) ∧
    (∀ (x : Expression) (f : Evaluator), x.evaluator clock = .ok f →
      (∀ a b : Record, a.AgreeOn x.paths b → f (.single a) = f (.single b)) ∧
      (∀ as bs, List.Forall₂ (Record.AgreeOn x.paths) as bs →
        f (.ofGroup as) = f (.ofGroup bs)) ∧
      (x.aggregate? = none → ∀ r s : Rows, r.current.AgreeOn x.paths s.current → f r = f s)) ∧
    ∀ (parts : QueryParts) (r s : Rows), r.AgreeOn (Sql.joinedPaths parts) s →
      (∀ c, parts.filter = some c ∨ parts.having = some c → c.nativeFree = true → ∀ ctx test,
        (rowInterpretation clock).condition c ctx = .ok test → test r = test s) ∧
      ∀ x ∈ parts.read, ∀ f, x.evaluator clock = .ok f → f r = f s := by
  refine ⟨fun c hnative ctx test htest => ?_, fun x f hf => ?_, fun parts r s hagree => ⟨?_, ?_⟩⟩
  · have hagrees := condition_agrees clock c hnative ctx test htest
    exact ⟨fun a b hab => hagrees _ _ (agreeOn_single hab),
      fun as bs hall => hagrees _ _ (agreeOn_ofGroup hall)⟩
  · have hagrees := evaluator_agrees clock x f hf (List.Subset.refl _)
    exact ⟨fun a b hab => hagrees _ _ (agreeOn_single hab),
      fun as bs hall => hagrees _ _ (agreeOn_ofGroup hall),
      fun hplain r s hcurrent => evaluator_local clock x f hf hplain r s hcurrent⟩
  · intro c hc hnative ctx test htest
    exact condition_agrees clock c hnative ctx test htest r s
      (hagree.mono (leafPaths_subset parts c hc))
  · intro x hx f hf
    exact evaluator_agrees clock x f hf (paths_subset parts x hx) r s hagree

/-- A stay that is not shorter, by its size, than what was booked. -/
def sampleStay : Condition :=
  .not (.simple ⟨.call .abs [.expression (.property "nights" none)] none, .lesserThan,
    some (.field "booked.nights")⟩)

/-- The nights of all stays. -/
def sampleNights : Expression :=
  .call .sum [.expression (.call .abs [.expression (.property "nights" none)] none)] none

/-- Two records of a stay that differ in everything but the nights. -/
def sampleStays : Record × Record :=
  ([("nights", .ofInt (-3)), ("booked", .object [("nights", .ofInt 2)]), ("note", .string "late")],
    [("booked", .object [("late", .bool true), ("nights", .ofInt 2)]), ("nights", .ofInt (-3))])

/-- A note and a sign of delay have no bearing on a comparison of nights, on a sum of nights, and on
    a query with such a filter. -/
theorem reads_named_sample :
    sampleStay.nativeFree = true ∧
    sampleStays.1.AgreeOn (sampleStay.leaves.flatMap Sql.leafPaths) sampleStays.2 ∧
    (Rows.single sampleStays.1).AgreeOn
      (Sql.joinedPaths (.ofQuery { filter := some sampleStay })) (.single sampleStays.2) ∧
    ∃ test total,
      (rowInterpretation ⟨"", "", ""⟩).condition sampleStay (.root 5) = .ok test ∧
      sampleNights.evaluator ⟨"", "", ""⟩ = .ok total ∧
      test (.single sampleStays.1) = test (.single sampleStays.2) ∧
      test (.ofGroup [sampleStays.1]) = test (.ofGroup [sampleStays.2]) ∧
      test (.single sampleStays.2) = true ∧
      total (.ofGroup [sampleStays.1, sampleStays.2]) =
        total (.ofGroup [sampleStays.2, sampleStays.1]) := by
  have hagree : sampleStays.1.AgreeOn (sampleStay.leaves.flatMap Sql.leafPaths) sampleStays.2 := by
    intro path hpath
    have hcases : path ∈ ["nights", "booked.nights"] := hpath
    simp only [List.mem_cons, List.not_mem_nil, or_false] at hcases
    rcases hcases with rfl | rfl <;> rfl
  have hnights : sampleStays.1.AgreeOn sampleNights.paths sampleStays.2 := fun path hpath =>
    hagree path (List.mem_cons.mpr (.inl (List.mem_singleton.mp hpath)))
  have hrows : (Rows.single sampleStays.1).AgreeOn
      (Sql.joinedPaths (.ofQuery { filter := some sampleStay })) (.single sampleStays.2) :=
    agreeOn_single hagree
  rcases reads_named ⟨"", "", ""⟩ with ⟨hconditions, hexpressions, hqueries⟩
  refine ⟨rfl, hagree, hrows, _, _, rfl, rfl, ?_, ?_, rfl, ?_⟩
  · exact (hqueries _ _ _ hrows).1 sampleStay (.inl rfl) rfl (.root 5) _ rfl
  · exact (hconditions sampleStay rfl (.root 5) _ rfl).2 _ _ (.cons hagree .nil)
  · exact (hexpressions sampleNights _ rfl).2.1 _ _
      (.cons hnights (.cons (fun path hpath => (hnights path hpath).symm) .nil))

end Polyquery
