import Polyquery.Proofs.Condition.Rendering
import Polyquery.Proofs.Memory.Found
import Polyquery.Proofs.Memory.Kleene
import Polyquery.Proofs.Query.Natives

/-!
# Native Pieces in Answers

A native condition of a store is a test of records, and a native sort is an order of
them. Both look at the record that stands for a row, which is the first one of a group.
The records and groups of an answer are those that pass the filters of the query, in
which every native test stands where the condition has it. They are put in order by the
sort keys, in which every native order stands where the query has it.

A test is a function, so it cannot be looked into for the native tests in it. What it
says of some rows is told by recursion on the condition instead, from what the native
tests and the comparisons say of them (`render_answer`).

Columns and groups of a store are never native, so a query with such a piece is
refused.

## Main definitions

* `Store.accepts`, `Store.Resolves`: The payloads that are translated at a place.
* `Condition.answer`: The answer of a condition, from those of its pieces.
* `Store.recordTest`, `Store.allows`: A native condition and a condition with it.
* `Store.Finds`: What the filters of a query let pass.
* `Store.Carries`: An answer with everything native in its place.

## Theorems

* `Store.nativeTests_iff`, `Store.nativeOrders_iff`: The tables.
* `Store.accepts_iff`: The payloads in the tables.
* `Store.renders`, `Store.render_answer`, `Store.passes_of_filter`: Native pieces in filters.
* `Store.ofKeys_walk`, `Store.precedes_decides`: The orders of the sort keys.
* `Store.Carries.translated`: What an answer carries is translated.
* `Store.answer_carries`: The answer to a query.
-/

namespace Polyquery

namespace Condition

mutual

/-- The answer of a condition under the flag, from those of its comparisons and its native
    pieces. -/
def answer (test : SimpleCondition → Bool → Bool) (native : Native → Bool) :
    Condition → (negated : Bool) → Bool
  | .simple comparison, negated => test comparison negated
  | .and children, negated =>
    (Connective.and.under negated).join (answers test native children negated)
  | .or children, negated =>
    (Connective.or.under negated).join (answers test native children negated)
  | .not child, negated => child.answer test native !negated
  | .native piece, _ => native piece

/-- The answers of those conditions that are not empty. -/
def answers (test : SimpleCondition → Bool → Bool) (native : Native → Bool) :
    List Condition → (negated : Bool) → List Bool
  | [], _ => []
  | child :: rest, negated =>
    if child.isEmpty then answers test native rest negated
    else child.answer test native negated :: answers test native rest negated

end

end Condition

namespace Store

/-- The payloads that an answer is made of. Columns and groups are not native. -/
def accepts : NativePosition → Payload → Bool
  | .condition, .recordTest _ => true
  | .sort, .recordOrder _ => true
  | _, _ => false

/-- The table of a place makes something of a piece. There is none for columns and groups. -/
def Resolves : NativePosition → Native → Prop
  | .condition, piece => ∃ test, nativeTests.resolve piece = .ok test
  | .sort, piece => ∃ order, nativeOrders.resolve piece = .ok order
  | .select, _ => False
  | .groupBy, _ => False

section Tables

theorem nativeTests_iff (piece : Native) (test : RowTest) :
    nativeTests.resolve piece = .ok test ↔
      ∃ onRecord, piece.payload = .recordTest onRecord ∧
        test = fun rows => onRecord rows.current := by
  rcases piece with ⟨stamp, name, payload⟩
  rw [NativeTable.resolve_eq_ok]
  cases payload <;>
    simp [nativeTests, NativeTable.accept, NativeTable.empty, Payload.asRecordTest?, eq_comm]

theorem nativeOrders_iff (piece : Native) (order : RowOrder) :
    nativeOrders.resolve piece = .ok order ↔
      ∃ onRecords, piece.payload = .recordOrder onRecords ∧ order = .native onRecords := by
  rcases piece with ⟨stamp, name, payload⟩
  rw [NativeTable.resolve_eq_ok]
  cases payload <;>
    simp [nativeOrders, NativeTable.accept, NativeTable.empty, Payload.asRecordOrder?, eq_comm]

/-- The accepted payloads are those of which the tables make something. -/
theorem accepts_iff (position : NativePosition) (piece : Native) :
    accepts position piece.payload = true ↔ Resolves position piece := by
  rcases piece with ⟨stamp, name, payload⟩
  cases position <;> cases payload <;>
    simp [accepts, Resolves, nativeTests_iff, nativeOrders_iff]

end Tables

/-- A native condition tests the record that stands for some rows. A piece of any other kind has
    no test, and no answer is made with it. -/
def recordTest (piece : Native) : RowTest := fun rows =>
  piece.payload.asRecordTest?.any fun test => test rows.current

variable (store : Store) (clock : Clock)

/-- What a condition under the flag says of some rows. -/
def answerOn (c : Condition) (negated : Bool) (rows : Rows) : Bool :=
  c.answer (fun comparison negated => (rowInterpretation clock).leaf comparison negated rows)
    (fun piece => recordTest piece rows) negated

/-- Whether an optional condition lets some rows pass. It asks the native tests in it, and without
    a condition all rows pass. -/
def allows (condition : Option Condition) (rows : Rows) : Bool :=
  condition.all fun c => c.isEmpty || answerOn clock c false rows

/-- The records that an optional condition lets pass, each by itself. -/
def allowed (condition : Option Condition) : List Record :=
  store.records.filter fun record => allows clock condition (.single record)

/-- What the filters of a query let pass: records that match, or groups of such records. -/
def Finds (q : AnyQuery) (found : List Rows) : Prop :=
  q.handle (fun p => found = (store.allowed clock p.filter).map .single)
    (fun p => ∃ groups,
      groupRecords clock (.ofAdvanced p) (store.allowed clock p.filter) = .ok groups ∧
      found = (groups.map Rows.ofGroup).filter (allows clock p.having))

/-- A sort key as rows are compared by it. A native one compares the records that stand for
    them. -/
def Ordered : SortKey → RowOrder → Prop
  | .simple key, order => ∃ index, ∀ a b, order.compare a b =
    key.direction.apply (sortOrder (a.keys.getD index .null) (b.keys.getD index .null))
  | .native piece, order => ∃ onRecords, piece.payload = .recordOrder onRecords ∧
    ∀ a b, order.compare a b = onRecords a.current b.current

/-- The rows are a result of what is found. Each is compared with the orders of the sort keys in
    their places, of which the first one that tells two rows apart decides. -/
def SortsFound (q : AnyQuery) (rows : List Record) : Prop :=
  ∃ found plan, ∃ candidate : Rows → Candidate, store.Finds clock q found ∧
    List.Forall₂ Ordered q.lift.sorts plan.orders ∧
    (∀ a b, plan.precedes a b = true ↔
      (plan.orders.map fun order => order.compare a b).find? (· != .eq) = some .lt) ∧
    (∀ on ∈ found, (candidate on).MadeFrom clock q.effective plan on) ∧
    rows = resultRows plan q.effective.distinct q.effective.pagination q.effective.customizers
      (found.map candidate)

/-- An answer with everything native that a query has, each piece in its place. -/
structure Carries (q : AnyQuery) (rows : List Record) : Prop where
  rows : store.SortsFound clock q rows
  select : ∀ piece, q.lift.select ≠ some (.native piece)
  groupBy : ∀ piece, q.lift.groupBy ≠ some (.native piece)

/-- What an answer carries is of kinds that are translated. -/
theorem Carries.translated {store : Store} {clock : Clock} {q : AnyQuery} {rows : List Record}
    (h : store.Carries clock q rows) (hfilter : TranslatedIn accepts q.lift.filter)
    (hhaving : TranslatedIn accepts q.lift.having) : q.lift.Translated accepts := by
  rcases h.rows with ⟨_, plan, _, _, horders, _, _, _⟩
  refine ⟨hfilter, hhaving, forall_native horders ?_, ?_, ?_⟩
  · rintro piece order ⟨onRecords, hpayload, _⟩
    rw [hpayload]
    rfl
  · exact fun piece hpiece => absurd hpiece (h.select piece)
  · exact fun piece hpiece => absurd hpiece (h.groupBy piece)

theorem renders : (rowInterpretation clock).Renders recordTest where
  simple := fun _ _ => rfl
  native := by
    intro piece test h
    rcases (nativeTests_iff piece test).mp h with ⟨onRecord, hpayload, rfl⟩
    unfold recordTest
    rw [hpayload]
    rfl

/-- Tests that are joined answer as the connective does, and a single one as itself. -/
theorem joined_answer (rows : Rows) {connective : Connective} {tests : List RowTest}
    {test : RowTest} (h : (rowInterpretation clock).joined connective tests = some test) :
    test rows = connective.join (tests.map fun test => test rows) := by
  match tests, h with
  | [only], h =>
      rw [← Option.some.inj h]
      cases connective <;> simp [Connective.join]
  | first :: second :: rest, h =>
      rw [← Option.some.inj h]
      exact combineTests_answers rows connective (first :: second :: rest) _
        (List.forall₂_map_right_iff.mpr (List.forall₂_same.mpr fun _ _ => rfl))

mutual

/-- The test of a condition says of some rows what the condition says of them. -/
theorem render_answer (rows : Rows) : ∀ (c : Condition) (negated : Bool) (test : RowTest),
    (rowInterpretation clock).render recordTest c negated = some test →
      test rows = answerOn clock c negated rows
  | .simple comparison, negated, test, h => by
      rw [Interpretation.render] at h
      rw [← Option.some.inj h, answerOn, Condition.answer]
  | .and children, negated, test, h => by
      rw [Interpretation.render] at h
      rw [joined_answer clock rows h, renderAll_answers rows children negated, answerOn,
        Condition.answer]
  | .or children, negated, test, h => by
      rw [Interpretation.render] at h
      rw [joined_answer clock rows h, renderAll_answers rows children negated, answerOn,
        Condition.answer]
  | .not child, negated, test, h => by
      rw [Interpretation.render] at h
      rw [render_answer rows child (!negated) test h, answerOn, answerOn, Condition.answer]
  | .native piece, negated, test, h => by
      rw [Interpretation.render] at h
      rw [← Option.some.inj h, answerOn, Condition.answer]

/-- The tests of several conditions. Those that are empty have none. -/
theorem renderAll_answers (rows : Rows) : ∀ (children : List Condition) (negated : Bool),
    ((rowInterpretation clock).renderAll recordTest children negated).map (fun test => test rows) =
      Condition.answers (fun comparison negated =>
        (rowInterpretation clock).leaf comparison negated rows)
        (fun piece => recordTest piece rows) children negated
  | [], _ => by
      rw [Interpretation.renderAll, Condition.answers]
      rfl
  | child :: rest, negated => by
      rw [Interpretation.renderAll, Condition.answers, List.map_append,
        renderAll_answers rows rest negated]
      cases hempty : child.isEmpty with
      | true =>
          rw [(rowInterpretation clock).render_empty recordTest hempty]
          rfl
      | false =>
          rcases (rowInterpretation clock).render_nonempty recordTest hempty negated with
            ⟨test, htest⟩
          rw [htest, ← answerOn, ← render_answer rows child negated test htest]
          rfl

end

/-- Rows pass a filter that compiles exactly when its condition lets them pass. -/
theorem passes_of_filter {condition : Option Condition} {maxDepth : Nat} {filter : Option RowTest}
    (h : (rowInterpretation clock).filter (effectiveCondition condition) maxDepth = .ok filter) :
    passes filter = allows clock condition := by
  funext rows
  rw [rendered_of_filter (renders clock) h]
  cases condition with
  | none => rfl
  | some c =>
      rw [Option.bind_some, allows, Option.all_some]
      cases hempty : c.isEmpty with
      | true =>
          rw [(rowInterpretation clock).render_empty recordTest hempty]
          rfl
      | false =>
          rcases (rowInterpretation clock).render_nonempty recordTest hempty false with
            ⟨test, htest⟩
          rw [htest, Bool.false_or]
          exact render_answer clock rows c false test htest

/-- The orders of the sort keys. A native one takes no sort value, so the count goes on as it is. -/
theorem ofKeys_walk : SortWalk (SortPlan.ofKeysFrom clock) Ordered
    (fun _ entries plan => plan.orders = entries) where
  nil := fun count plan h => congrArg SortPlan.orders (Except.ok.inj h).symm
  cons := by
    intro count key rest plan h
    cases key with
    | simple key =>
        rcases bind_eq_ok.mp h with ⟨evaluator, _, h⟩
        rcases bind_eq_ok.mp h with ⟨others, hothers, h⟩
        refine ⟨count + 1, .value count key.direction, others, ⟨count, fun _ _ => rfl⟩, hothers, ?_⟩
        intro entries hentries
        rw [← Except.ok.inj h]
        exact congrArg _ hentries
    | native piece =>
        rcases bind_eq_ok.mp h with ⟨order, horder, h⟩
        rcases bind_eq_ok.mp h with ⟨others, hothers, h⟩
        rcases (nativeOrders_iff piece order).mp horder with ⟨onRecords, hpayload, rfl⟩
        refine ⟨count, .native onRecords, others, ⟨onRecords, hpayload, fun _ _ => rfl⟩, hothers,
          ?_⟩
        intro entries hentries
        rw [← Except.ok.inj h]
        exact congrArg _ hentries

theorem ofKeys_ordered {keys : List SortKey} {plan : SortPlan}
    (h : SortPlan.ofKeys clock keys = .ok plan) : List.Forall₂ Ordered keys plan.orders := by
  rcases (ofKeys_walk clock).entries keys 0 plan h with ⟨entries, hentries, rfl⟩
  exact hentries

/-- Of several orders the first one that tells two rows apart decides. -/
theorem compareAll_decides (a b : Candidate) (orders : List RowOrder) :
    RowOrder.compareAll a b orders =
      ((orders.map fun order => order.compare a b).find? (· != .eq)).getD .eq := by
  induction orders with
  | nil => rfl
  | cons order rest ih =>
      rw [RowOrder.compareAll, ih, List.map_cons]
      cases hfirst : order.compare a b <;> rfl

theorem precedes_decides (plan : SortPlan) (a b : Candidate) :
    plan.precedes a b = true ↔
      (plan.orders.map fun order => order.compare a b).find? (· != .eq) = some .lt := by
  rw [SortPlan.precedes, compareAll_decides, beq_iff_eq]
  cases (plan.orders.map fun order => order.compare a b).find? (· != .eq) with
  | none => exact ⟨fun h => absurd h (by decide), fun h => absurd h (by rintro ⟨⟩)⟩
  | some first => exact (Option.some_inj).symm

section Answers

variable {store : Store} {clock : Clock} {q : AnyQuery}

/-- What a query finds is what its conditions let pass. -/
theorem finds_of_found {found : List Rows} (h : store.Found clock q found) :
    store.Finds clock q found := by
  rcases h with ⟨filter, hfilter, h⟩
  have hmatching : store.matching filter = store.allowed clock q.lift.filter := by
    rw [Store.matching, passes_of_filter clock hfilter, allowed]
  rw [hmatching] at h
  cases q with
  | plain p => exact h
  | advanced p =>
      rcases h with ⟨groups, having, hgroups, hhaving, hfound⟩
      rw [passes_of_filter clock hhaving] at hfound
      exact ⟨groups, hgroups, hfound⟩

/-- In a query that finds something every native condition is translated. -/
theorem translatedIn_of_found {found : List Rows} (h : store.Found clock q found) :
    TranslatedIn accepts q.lift.filter ∧ TranslatedIn accepts q.lift.having := by
  have haccepts : ∀ piece test, (rowInterpretation clock).native piece = .ok test →
      accepts .condition piece.payload = true := fun piece test htest =>
    (accepts_iff .condition piece).mpr ⟨test, htest⟩
  rcases h with ⟨filter, hfilter, h⟩
  refine ⟨translatedIn_of_filter haccepts hfilter, ?_⟩
  cases q with
  | plain p =>
      -- A plain query has no filter of groups.
      rintro c ⟨⟩
  | advanced p =>
      rcases h with ⟨_, having, _, hhaving, _⟩
      exact translatedIn_of_filter haccepts hhaving

/-- A native select has no columns for rows, nor has a native group-by a key for groups. -/
theorem not_native_of_answer (hplain : q.preprocessors = []) {rows : List Record}
    (h : q.handle (store.findAll clock) (store.findRows clock) = .ok rows) (piece : Native) :
    q.lift.select ≠ some (.native piece) ∧ q.lift.groupBy ≠ some (.native piece) := by
  cases q with
  | plain p =>
      have hrows := compiled_parts (store.recordsOf clock) (.plain p) hplain rows
        ((store.findAll_eq clock p).symm.trans h)
      rcases found_of_recordsOf hrows with ⟨projection, columns, filter, plan, hfound, _⟩
      have hcolumns := hfound.evaluates
      refine ⟨fun hselect => ?_, by rintro ⟨⟩⟩
      rw [projection_native (select_effective hselect) hfound.projects] at hcolumns
      exact absurd hcolumns (by rintro ⟨⟩)
  | advanced p =>
      have hrows := compiled_parts (store.rowsOf clock) (.advanced p) hplain rows
        ((store.findRows_eq clock p).symm.trans h)
      rcases found_of_rowsOf hrows with
        ⟨projection, columns, filter, having, groups, plan, hfound, _⟩
      have hcolumns := hfound.evaluates
      have hgroups := hfound.groups
      refine ⟨fun hselect => ?_, fun hgroupBy => ?_⟩
      · rw [projection_native (select_effective hselect) hfound.projects] at hcolumns
        exact absurd hcolumns (by rintro ⟨⟩)
      · have hpart : (AnyQuery.advanced p).effective.groupBy = some (.native piece) :=
          select_effective hgroupBy
        rw [groupRecords, hpart] at hgroups
        exact absurd hgroups (by rintro ⟨⟩)

/-- In a query with an answer every native piece is translated, and the answer has all of them in
    their places. -/
theorem answer_carries (hplain : q.preprocessors = []) {rows : List Record}
    (h : q.handle (store.findAll clock) (store.findRows clock) = .ok rows) :
    q.lift.Translated accepts ∧ store.Carries clock q rows := by
  rcases answer_found q hplain rows h with
    ⟨found, plan, candidate, hfound, hplan, hcandidate, hrows⟩
  have hcarries : store.Carries clock q rows := {
    rows := ⟨found, plan, candidate, finds_of_found hfound, ofKeys_ordered clock hplan,
      precedes_decides plan, hcandidate, hrows⟩
    select := fun piece => (not_native_of_answer hplain h piece).1
    groupBy := fun piece => (not_native_of_answer hplain h piece).2 }
  rcases translatedIn_of_found hfound with ⟨hfilter, hhaving⟩
  exact ⟨hcarries.translated hfilter hhaving, hcarries⟩

end Answers

end Store

end Polyquery
