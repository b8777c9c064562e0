import Polyquery.Proofs.Memory.Answer
import Polyquery.Proofs.Memory.Order
import Polyquery.Proofs.Mongo.Meaning
import Polyquery.Proofs.Mongo.Stages
import Polyquery.Proofs.Query.Customizers

/-!
# The Sort Document of a Find

A find is sorted by a document whose members are read one after the other, so the first
member in which two records differ decides. The sort keys of a query are read in the same
way. The difference is that a document has no member twice. A key for a path that is there
already keeps the place of the first one and brings a direction of its own.

In a lexicographic order a later key for the same path has nothing to say: where it is
reached the records are equal in it. The direction that it leaves in the document is
therefore not one that anybody asked for. `StandsLast` says when this makes no difference,
which is a matter of the one key that decides, and where it makes one the records come the
other way round (`find_sorted`).

Values are taken to be in the order of expressions, with missing values and nulls before all
others. Between values of one kind it is the order that records in memory are sorted by.

## Main definitions

* `AnyQuery.preparedParts`: The parts that a query is compiled from.
* `SortKey.property?`, `QueryParts.propertyKeys`: Sort keys for properties.
* `orderBy`, `StandsLast`: The order by several keys, and whether a repeated key does no harm.
* `Record.orderAt`: The order of two records in memory by one path.
* `Mongo.documentOrder?`: The order that a sort document stands for.

## Theorems

* `orderBy_decided`, `orderBy_undecided`: One key decides.
* `orderBy_insertAll`, `orderBy_insertAll_swap`: The order by keys without repetitions.
* `compareRows_properties`, `compareAll_properties`, `ofKeys_properties`: The order of records
  in memory.
* `Mongo.findSort_properties`, `Mongo.findSort_of_compiled`: The sort document.
* `Mongo.documentOrder?_by`: The order of records by it.
* `Mongo.find_sorted`: The sort document against the sort keys.
-/

namespace Polyquery

/-- The parts that a query is compiled from, which are those of the prepared query. -/
def AnyQuery.preparedParts (q : AnyQuery) : Except CompileError QueryParts :=
  q.handle (fun q => q.prepare.map .ofQuery) (fun q => q.prepare.map .ofAdvanced)

theorem handle_preparedParts {α : Type} (compile : QueryParts → Except CompileError α)
    (q : AnyQuery) : q.handle (compilePlain compile) (compileGrouped compile) =
      q.preparedParts >>= compile := by
  cases q with
  | plain q =>
      simp only [AnyQuery.handle, AnyQuery.preparedParts, compilePlain]
      cases q.prepare <;> rfl
  | advanced q =>
      simp only [AnyQuery.handle, AnyQuery.preparedParts, compileGrouped]
      cases q.prepare <;> rfl

/-- The path and the direction of a sort key for a property. -/
def SortKey.property? : SortKey → Option (String × Direction)
  | .simple key => key.expression.path?.map fun path => (path, key.direction)
  | .native _ => none

/-- The sort keys for properties. -/
def QueryParts.propertyKeys (parts : QueryParts) : List (String × Direction) :=
  parts.sorts.filterMap SortKey.property?

section Orders

variable (order : String → Ordering)

/-- The order by several keys, of which the first one that tells two things apart decides. -/
def orderBy : List (String × Direction) → Ordering
  | [] => .eq
  | (path, direction) :: rest => (direction.apply (order path)).then (orderBy rest)

/-- Whether the key that decides has the direction of the last key for its path. -/
def StandsLast (keys : List (String × Direction)) : Prop :=
  ∀ key, keys.find? (fun key => order key.1 != .eq) = some key →
    keys.reverse.lookup key.1 = some key.2

theorem Direction.apply_eq (direction : Direction) : direction.apply .eq = .eq := by
  cases direction <;> rfl

/-- An order is the other way round in the other direction. -/
theorem Direction.apply_of_ne {direction other : Direction} (h : direction ≠ other)
    (answer : Ordering) : direction.apply answer = (other.apply answer).swap := by
  cases direction <;> cases other <;> first | exact absurd rfl h | cases answer <;> rfl

variable {order}

theorem orderBy_congr {other : String → Ordering} (keys : List (String × Direction))
    (h : ∀ key ∈ keys, order key.1 = other key.1) : orderBy order keys = orderBy other keys := by
  induction keys with
  | nil => rfl
  | cons key rest ih =>
      rw [List.forall_mem_cons] at h
      rw [orderBy, orderBy, h.1, ih h.2]

theorem orderBy_undecided (keys : List (String × Direction))
    (h : keys.find? (fun key => order key.1 != .eq) = none) : orderBy order keys = .eq := by
  induction keys with
  | nil => rfl
  | cons key rest ih =>
      rw [List.find?_eq_none, List.forall_mem_cons, ← List.find?_eq_none] at h
      rcases h with ⟨hkey, hrest⟩
      rw [bne_iff_ne, not_not] at hkey
      rw [orderBy, hkey, Direction.apply_eq, ih hrest]
      rfl

theorem orderBy_decided (keys : List (String × Direction)) (key : String × Direction)
    (h : keys.find? (fun key => order key.1 != .eq) = some key) :
    orderBy order keys = key.2.apply (order key.1) := by
  induction keys with
  | nil => exact absurd h (by simp only [List.find?_nil, reduceCtorEq, not_false_eq_true])
  | cons first rest ih =>
      rw [List.find?_cons] at h
      rw [orderBy]
      cases hfirst : order first.1 with
      | eq =>
          -- What does not tell apart passes the decision on.
          simp only [hfirst, bne_self_eq_false] at h
          rw [Direction.apply_eq, ih h]
          rfl
      | lt =>
          simp only [hfirst] at h
          obtain rfl : first = key := Option.some.inj h
          rw [hfirst]
          cases first.2 <;> rfl
      | gt =>
          simp only [hfirst] at h
          obtain rfl : first = key := Option.some.inj h
          rw [hfirst]
          cases first.2 <;> rfl

/-- Keys without repetitions have the key that decides, with the last direction of its path. -/
theorem orderBy_insertAll_decided (keys : List (String × Direction)) (key : String × Direction)
    (h : keys.find? (fun key => order key.1 != .eq) = some key) :
    ∃ last, keys.reverse.lookup key.1 = some last ∧
      orderBy order (insertAll keys) = last.apply (order key.1) := by
  -- Which path decides is a matter of first occurrences, which setting members keeps.
  have hfind := find?_insertAll (fun path => order path != .eq) keys
  rw [h, Option.bind_some] at hfind
  cases hlast : keys.reverse.lookup key.1 with
  | none =>
      rw [List.lookup_eq_none_iff] at hlast
      have hne := hlast key (List.mem_reverse.mpr (List.mem_of_find?_eq_some h))
      exact absurd rfl (bne_iff_ne.mp hne)
  | some last =>
      rw [hlast, Option.map_some] at hfind
      exact ⟨last, rfl, orderBy_decided _ _ hfind⟩

/-- Repetitions do no harm where the key that decides has the last direction of its path. -/
theorem orderBy_insertAll (keys : List (String × Direction)) (h : StandsLast order keys) :
    orderBy order (insertAll keys) = orderBy order keys := by
  cases hfind : keys.find? (fun key => order key.1 != .eq) with
  | none =>
      rw [orderBy_undecided keys hfind]
      apply orderBy_undecided
      rw [find?_insertAll (fun path => order path != .eq) keys, hfind, Option.bind_none]
  | some key =>
      rcases orderBy_insertAll_decided keys key hfind with ⟨last, hlast, horder⟩
      rw [h key hfind] at hlast
      rw [horder, orderBy_decided keys key hfind, Option.some.inj hlast]

/-- Otherwise what they decide is the other way round. -/
theorem orderBy_insertAll_swap (keys : List (String × Direction)) (h : ¬ StandsLast order keys) :
    orderBy order (insertAll keys) = (orderBy order keys).swap ∧ orderBy order keys ≠ .eq := by
  simp only [StandsLast, not_forall] at h
  rcases h with ⟨key, hfind, hother⟩
  rcases orderBy_insertAll_decided keys key hfind with ⟨last, hlast, horder⟩
  have hne : last ≠ key.2 := by
    rintro rfl
    exact hother hlast
  have hdecides := List.find?_some hfind
  rw [horder, orderBy_decided keys key hfind]
  refine ⟨Direction.apply_of_ne hne _, ?_⟩
  generalize order key.1 = answer at hdecides
  cases key.2 <;> cases answer <;> first | exact absurd hdecides (by decide) | decide

/-- A path that is not repeated has one direction. -/
theorem standsLast_of_nodup (keys : List (String × Direction)) (h : (keys.map (·.1)).Nodup) :
    StandsLast order keys := by
  intro key hfind
  apply lookup_eq_some_of_mem
  · rw [List.map_reverse, List.nodup_reverse]
    exact h
  · exact List.mem_reverse.mpr (List.mem_of_find?_eq_some hfind)

end Orders

/-- The order of two records in memory by the values at a path. -/
def Record.orderAt (a b : Record) (path : String) : Ordering :=
  sortOrder (a.lookup path) (b.lookup path)

section Memory

variable (clock : Clock)

theorem property?_of_isSome (key : SortKey) (h : key.property?.isSome = true) :
    ∃ path label direction, key = .simple ⟨.property path label, direction⟩ := by
  cases key with
  | native piece => exact absurd h Bool.false_ne_true
  | simple key =>
      rcases key with ⟨x, direction⟩
      cases x with
      | property path label => exact ⟨path, label, direction, rfl⟩
      | call function arguments label => exact absurd h Bool.false_ne_true

/-- Records are compared by the values at the paths of the sort keys. -/
theorem compareRows_properties (sorts : List SortKey)
    (hsorts : ∀ key ∈ sorts, key.property?.isSome = true) (a b : Record) :
    compareRows clock sorts (.single a) (.single b) =
      orderBy (a.orderAt b) (sorts.filterMap SortKey.property?) := by
  induction sorts with
  | nil => rfl
  | cons key rest ih =>
      rw [List.forall_mem_cons] at hsorts
      rcases property?_of_isSome key hsorts.1 with ⟨path, label, direction, rfl⟩
      rw [compareRows, ih hsorts.2, Expression.valueOn_property, Expression.valueOn_property]
      rfl

/-- Sort keys for properties have a plan. -/
theorem ofKeys_properties (sorts : List SortKey)
    (hsorts : ∀ key ∈ sorts, key.property?.isSome = true) :
    ∀ count, ∃ plan, SortPlan.ofKeysFrom clock count sorts = .ok plan := by
  induction sorts with
  | nil => exact fun _ => ⟨_, rfl⟩
  | cons key rest ih =>
      intro count
      rw [List.forall_mem_cons] at hsorts
      rcases property?_of_isSome key hsorts.1 with ⟨path, label, direction, rfl⟩
      rcases ih hsorts.2 (count + 1) with ⟨plan, hplan⟩
      simp only [SortPlan.ofKeysFrom, Expression.evaluator, hplan]
      exact ⟨_, rfl⟩

/-- So are the candidates of a plan for such keys. -/
theorem compareAll_properties (sorts : List SortKey)
    (hsorts : ∀ key ∈ sorts, key.property?.isSome = true) (plan : SortPlan)
    (hplan : SortPlan.ofKeys clock sorts = .ok plan)
    (columns : Option (List (String × Evaluator))) (a b : Record) :
    RowOrder.compareAll (plan.record columns a) (plan.record columns b) plan.orders =
      orderBy (a.orderAt b) (sorts.filterMap SortKey.property?) := by
  have hnative : ∀ key ∈ sorts, key.isNative = false := by
    intro key hkey
    rcases property?_of_isSome key (hsorts key hkey) with ⟨_, _, _, rfl⟩
    rfl
  rw [compareAll_eq clock _ _ (.single a) (.single b) sorts hnative 0 plan [] [] hplan rfl rfl
    rfl rfl]
  exact compareRows_properties clock sorts hsorts a b

end Memory

namespace Mongo

/-- The direction that a member of a sort document stands for. -/
def direction? (value : Json) : Option Direction :=
  match value with
  | .number (.int n) =>
    if n = 1 then some .ascending else if n = -1 then some .descending else none
  | _ => none

/-- The order of two records by the values at a path. Values in no order count as equal. -/
def fieldOrder (mixed : Json → Json → Ordering) (a b : Record) (path : String) : Ordering :=
  (operandOrder mixed ((Json.object a).follow? (Text.dotted path))
    ((Json.object b).follow? (Text.dotted path))).getD .eq

/-- The order of two records that a sort document stands for, if its members can be read. -/
def documentOrder? (mixed : Json → Json → Ordering) (a b : Record) :
    List (String × Json) → Option Ordering
  | [] => some .eq
  | (path, value) :: rest => do
    let direction ← direction? value
    let others ← documentOrder? mixed a b rest
    return (direction.apply (fieldOrder mixed a b path)).then others

/-- The order by members that are made of directions. -/
theorem documentOrder?_by (mixed : Json → Json → Ordering) (a b : Record)
    (keys : List (String × Direction)) :
    documentOrder? mixed a b
        (membersBy SortValue.toJson (keys.map fun key => (key.1, .by key.2))) =
      some (orderBy (fieldOrder mixed a b) keys) := by
  induction keys with
  | nil => rfl
  | cons key rest ih =>
      rcases key with ⟨path, direction⟩
      have hdirection : direction? (SortValue.by direction).toJson = some direction := by
        cases direction <;> rfl
      simp only [membersBy, List.map_cons, documentOrder?, hdirection] at ih ⊢
      rw [ih]
      rfl

/-- Values of one kind are in the same order at the server and in memory. -/
theorem fieldOrder_of_sameKind (mixed : Json → Json → Ordering) (a b : Record) (path : String)
    (h : (a.lookup path).sameKind (b.lookup path) = true) :
    fieldOrder mixed a b path = a.orderAt b path := by
  have hpresent : (a.lookup path).isNull = false ∧ (b.lookup path).isNull = false := by
    cases ha : a.lookup path <;> cases hb : b.lookup path <;> rw [ha, hb] at h <;>
      first | exact ⟨rfl, rfl⟩ | exact absurd h Bool.false_ne_true
  unfold fieldOrder
  rw [operandOrder_of_comparable (.inr (.inr h))]
  · rw [Record.orderAt, sortOrder, hpresent.1, hpresent.2]
    rfl
  · rw [Bool.and_eq_true, Bool.not_eq_true', Bool.not_eq_true']
    exact hpresent

section Find

/-- The sort document of keys for properties, put together from a document before it. -/
theorem findSort_properties (sorts : List SortKey)
    (hsorts : ∀ key ∈ sorts, key.property?.isSome = true) (sort : List (String × SortValue)) :
    findSort sort sorts =
      .ok (extend sort
        ((sorts.filterMap SortKey.property?).map fun key => (key.1, .by key.2))) := by
  induction sorts generalizing sort with
  | nil => rfl
  | cons key rest ih =>
      rw [List.forall_mem_cons] at hsorts
      rcases property?_of_isSome key hsorts.1 with ⟨path, label, direction, rfl⟩
      exact ih hsorts.2 (insertKey path (.by direction) sort)

/-- Without customizers a find is sorted by the sort document of its query. -/
theorem findSort_of_compiled (schema : Schema) (root : String) (parts : QueryParts)
    (compiled : Compiled)
    (h : compileParts schema root (parts.withCustomizers []) = .ok compiled)
    {filter sort skip limit} (hfind : compiled.command = .find filter sort skip limit) :
    findSort [] parts.sorts = .ok sort := by
  rcases command_cases schema root _ rfl compiled h with
    ⟨_, _, _, _, ⟨_, _, keys, _, _, hkeys, hcommand⟩ | ⟨_, _, _, _, hmade⟩⟩
  · rw [hfind, Command.find.injEq] at hcommand
    rw [hcommand.2.1]
    exact hkeys
  · -- A pipeline is no find, whatever it is made of.
    rw [hfind] at hmade
    exact absurd hmade.stages (by simp only [reduceCtorEq, not_false_eq_true])

/-- A find that is sorted by properties has, when it is handed to its customizers, each path once,
    in the place of its first key and with the direction of its last one. Records with values of
    one kind come in the order that is asked for if no path is repeated, and more generally if the
    key that decides has the last direction of its path. If it has not, they come the other way
    round. -/
theorem find_sorted (schema : Schema) (root : String) (q : AnyQuery) (parts : QueryParts)
    (hparts : q.preparedParts = .ok parts) (compiled : Compiled)
    (hcompiled : q.handle (compileQuery schema root) (compileAdvanced schema root) = .ok compiled)
    (hsorts : ∀ key ∈ parts.sorts, key.property?.isSome = true) :
    ∃ bare, compileParts schema root (parts.withCustomizers []) = .ok bare ∧
      bare.customize (matchingCustomizers Payload.asCommandAdjustment? parts.customizers) =
        compiled ∧
      ∀ filter sort skip limit, bare.command = .find filter sort skip limit →
        sort.map (·.1) = (parts.propertyKeys.map (·.1)).eraseDups ∧
        (∀ path, sort.lookup path = (parts.propertyKeys.reverse.lookup path).map .by) ∧
        ∀ clock, ∃ plan, SortPlan.ofKeys clock parts.sorts = .ok plan ∧
          ∀ mixed columns (a b : Record),
            (∀ key ∈ parts.propertyKeys, (a.lookup key.1).sameKind (b.lookup key.1) = true) →
            ∃ server memory,
              documentOrder? mixed a b (membersBy SortValue.toJson sort) = some server ∧
              RowOrder.compareAll (plan.record columns a) (plan.record columns b) plan.orders =
                memory ∧
              ((parts.propertyKeys.map (·.1)).Nodup → server = memory) ∧
              (StandsLast (a.orderAt b) parts.propertyKeys → server = memory) ∧
              (¬ StandsLast (a.orderAt b) parts.propertyKeys →
                server = memory.swap ∧ memory ≠ .eq) := by
  have hmade : q.preparedParts >>= compileParts schema root = .ok compiled :=
    (handle_preparedParts _ q).symm.trans hcompiled
  rw [hparts, ok_bind] at hmade
  rcases (compileParts_customized schema root).of_ok hmade with ⟨bare, hbare, hcustomized⟩
  refine ⟨bare, hbare, hcustomized, ?_⟩
  intro filter sort skip limit hfind
  have hsort := findSort_of_compiled schema root parts bare hbare hfind
  rw [findSort_properties parts.sorts hsorts] at hsort
  obtain rfl : (insertAll parts.propertyKeys).map (fun key => (key.1, SortValue.by key.2)) = sort :=
    (insertAll_map SortValue.by parts.propertyKeys).symm.trans (Except.ok.inj hsort)
  refine ⟨?_, ?_, ?_⟩
  case refine_1 =>
    rw [List.map_map, ← keys_insertAll]
    rfl
  case refine_2 =>
    intro path
    rw [← insertAll_map, lookup_insertAll, ← List.map_reverse, lookup_map]
  case refine_3 =>
    intro clock
    rcases ofKeys_properties clock parts.sorts hsorts 0 with ⟨plan, hplan⟩
    refine ⟨plan, hplan, ?_⟩
    intro mixed columns a b hkinds
    -- On these paths the server and the memory agree, so both orders are read from one function.
    have hserver : orderBy (fieldOrder mixed a b) (insertAll parts.propertyKeys) =
        orderBy (a.orderAt b) (insertAll parts.propertyKeys) := by
      refine orderBy_congr _ fun key hkey => ?_
      exact fieldOrder_of_sameKind mixed a b key.1 (hkinds key (mem_insertAll _ key hkey))
    have hmemory := compareAll_properties clock parts.sorts hsorts plan hplan columns a b
    refine ⟨_, _, (documentOrder?_by mixed a b _).trans (congrArg some hserver), hmemory,
      fun hnodup => orderBy_insertAll _ (standsLast_of_nodup _ hnodup), orderBy_insertAll _,
      orderBy_insertAll_swap _⟩

/-- A query that is sorted by one property in both directions, with another key in between, and
    with a customizer. -/
def sampleRepeated : Query where
  sorts := [.simple ⟨.property "k" none, .ascending⟩, .simple ⟨.property "j" none, .descending⟩,
    .simple ⟨.property "k" none, .descending⟩]
  customizers := [⟨0, "Limit", .pipelineLimit 5⟩]

/-- The last key for the path is in the document, so records that differ in it come the other way
    round. -/
theorem find_sorted_repeated :
    ∃ parts compiled sort plan, (AnyQuery.plain sampleRepeated).preparedParts = .ok parts ∧
      (AnyQuery.plain sampleRepeated).handle (compileQuery .default "Person")
        (compileAdvanced .default "Person") = .ok compiled ∧
      compiled.command = .find .all sort none (some 5) ∧
      (∀ key ∈ parts.sorts, key.property?.isSome = true) ∧
      sort.map (·.1) = ["k", "j"] ∧
      SortPlan.ofKeys ⟨"", "", ""⟩ parts.sorts = .ok plan ∧
      ∀ mixed, ∃ server memory,
        documentOrder? mixed [("k", .ofInt 1), ("j", .ofInt 5)] [("k", .ofInt 2), ("j", .ofInt 5)]
          (membersBy SortValue.toJson sort) = some server ∧
        RowOrder.compareAll (plan.record none [("k", .ofInt 1), ("j", .ofInt 5)])
          (plan.record none [("k", .ofInt 2), ("j", .ofInt 5)]) plan.orders = memory ∧
        server = memory.swap ∧ memory ≠ .eq := by
  have hsorts : ∀ key ∈ (QueryParts.ofQuery sampleRepeated).sorts,
      key.property?.isSome = true := by decide
  rcases find_sorted .default "Person" (.plain sampleRepeated) (.ofQuery sampleRepeated) rfl _ rfl
    hsorts with ⟨bare, hbare, _, hfound⟩
  rw [← Except.ok.inj hbare] at hfound
  rcases hfound .all _ none none rfl with ⟨hnames, _, hrecords⟩
  rcases hrecords ⟨"", "", ""⟩ with ⟨plan, hplan, horder⟩
  refine ⟨_, _, _, plan, rfl, rfl, rfl, hsorts, hnames.trans (by decide), hplan, ?_⟩
  intro mixed
  rcases horder mixed none [("k", .ofInt 1), ("j", .ofInt 5)] [("k", .ofInt 2), ("j", .ofInt 5)]
    (by decide) with ⟨server, memory, hserver, hmemory, _, _, hswap⟩
  refine ⟨server, memory, hserver, hmemory, hswap fun hlast => ?_⟩
  exact absurd (hlast ("k", .ascending) rfl) (by decide)

end Find

end Mongo

end Polyquery
