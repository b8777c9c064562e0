import Polyquery.Memory.Store
import Polyquery.Proofs.Backend.Functions
import Polyquery.Proofs.Condition.Faults
import Polyquery.Proofs.Mongo.Stages
import Polyquery.Search.Request
import Polyquery.Sql.Select

/-!
# What Backends Do Not Report

Where an aggregate may not stand is decided once for all backends, before any
of them looks at a query. A backend that has been handed the parts of a query
has many errors of its own to report: a depth, a function, a native piece, a
column without a name, a relation. An aggregate in the wrong place is not among
them, whatever the parts are, so a backend never says a second time, or in
another way, what the preparation has to say.

A backend is read from the outside in. The walk over a condition, a table of
functions and a table of native pieces are the same for all, so what they can
report is settled first.

## Main definitions

* `CompileError.isAggregate`: The error in question.
* `Ungated`, `FunctionHandler.Ungated`: Steps and handlers that do not report
  it.

## Theorems

* `Interpretation.filter_raises`: The errors of a walk.
* `apply_ungated`, `resolve_ungated`: Calls and native pieces.
* `projection_ungated`: The projection of a query.
* `Sql.compileParts_ungated`, `Mongo.compileParts_ungated`,
  `Search.compileParts_ungated`: The compilers.
* `columnEvaluators_ungated`, `groupRecords_ungated`,
  `rowInterpretation_ungated`, `SortPlan.ofKeys_ungated`: The parts of an answer
  from a store.
-/

namespace Polyquery

/-- Whether an error is about an aggregate where none may stand. -/
def CompileError.isAggregate : CompileError → Bool
  | .aggregateNotAllowed _ _ => true
  | _ => false

/-- A step that does not report an aggregate. -/
abbrev Ungated {α : Type} (x : Except CompileError α) : Prop :=
  Raises (fun e => e.isAggregate = false) x

/-- A walk reports the depth limit, a native piece that is turned around, and what the backend
    reports of single conditions and native pieces. -/
theorem Interpretation.filter_raises {φ : Type} (t : Interpretation φ) {P : CompileError → Prop}
    (condition : Option Condition) (maxDepth : Nat) (hdepth : P (.depthExceeded maxDepth))
    (hnegated : P .negatedNative) (hsimple : ∀ leaf ctx, Raises P (t.simple leaf ctx))
    (hnative : ∀ piece, Raises P (t.native piece)) :
    Raises P (t.filter condition maxDepth) := by
  -- A fault of a visited node is its depth, that of its test, or that of a native piece.
  have hfault : ∀ visit e, t.fault? maxDepth visit = some e → P e := by
    intro visit e h
    unfold fault? at h
    split at h
    · rw [← Option.some.inj h]
      exact hdepth
    · split at h
      · exact hsimple _ _ e (errorOf?_eq_some.mp h)
      · split at h
        · rw [← Option.some.inj h]
          exact hnegated
        · exact hnative _ e (errorOf?_eq_some.mp h)
      · exact absurd h (by simp only [reduceCtorEq, not_false_eq_true])
  unfold filter
  split
  · exact .ok _
  · split
    · exact .ok _
    · refine .map _ ?_
      intro e h
      rw [← errorOf?_eq_some, condition_fault] at h
      rcases List.exists_of_findSome?_eq_some h with ⟨visit, _, hvisit⟩
      exact hfault visit e hvisit

section Tables

variable {ε ω : Type}

theorem one_ungated (function : Function) (arguments : List ε) :
    Ungated (one function arguments) := by
  unfold one
  split
  · exact .ok _
  · exact .error rfl

theorem two_ungated (function : Function) (arguments : List ε) :
    Ungated (two function arguments) := by
  unfold two
  split
  · exact .ok _
  · exact .error rfl

theorem three_ungated (function : Function) (arguments : List ε) :
    Ungated (three function arguments) := by
  unfold three
  split
  · exact .ok _
  · exact .error rfl

/-- A handler that does not report an aggregate. -/
def FunctionHandler.Ungated (handler : FunctionHandler ε) : Prop :=
  ∀ function arguments, Polyquery.Ungated (handler function arguments)

/-- A call reports what its handler reports, or that there is none. -/
theorem apply_ungated (backend : String) (entries : List (Function × FunctionHandler ε))
    (h : ∀ entry ∈ entries, FunctionHandler.Ungated entry.2) (function : Function)
    (arguments : List ε) :
    Ungated ((FunctionTable.of backend entries).apply function arguments) := by
  unfold FunctionTable.apply
  split
  · rename_i handler hlookup
    exact h _ (List.mem_reverse.mp (lookup_mem hlookup)) function arguments
  · exact .error rfl

theorem resolve_ungated (table : NativeTable ω) (piece : Native) :
    Ungated (table.resolve piece) := by
  unfold NativeTable.resolve
  split
  · exact .ok _
  · exact .error rfl

end Tables

theorem named_ungated (selection : Selection) : Ungated selection.named := by
  refine .bind (.mapM fun x _ => ?_) fun _ _ => .ok _
  unfold Expression.columnName
  split
  · exact .ok _
  · exact .ok _
  · exact .error rfl

theorem projection_ungated (parts : QueryParts) : Ungated parts.projection := by
  unfold QueryParts.projection
  split
  · exact .ok _
  · exact .map _ (named_ungated _)
  · exact .map _ (named_ungated _)
  · exact .ok _

namespace Sql

variable (schema : Schema) (root : String)

theorem functionTable_ungated (function : Function) (arguments : List Expr) :
    Ungated (functionTable.apply function arguments) := by
  have hsame : FunctionHandler.Ungated sameName := fun _ _ => .ok _
  have hnamed : ∀ name, FunctionHandler.Ungated (named name) := fun _ _ _ => .ok _
  have hword : ∀ keyword, FunctionHandler.Ungated (word keyword) := fun _ _ _ => .ok _
  have hconcatenation : FunctionHandler.Ungated concatenation := by
    intro function arguments
    cases arguments with
    | nil => exact .error rfl
    | cons _ _ => exact .ok _
  have hlocation : FunctionHandler.Ungated location :=
    fun _ _ => .bind (two_ungated _ _) fun _ _ => .ok _
  have hnull : FunctionHandler.Ungated nullWhenEqual := by
    intro function arguments
    refine .bind (two_ungated _ _) fun _ _ => ?_
    dsimp only
    split <;> exact .ok _
  refine apply_ungated backendName _ ?_ function arguments
  simp only [List.forall_mem_cons, List.not_mem_nil, false_implies, implies_true, and_true]
  simp only [hsame, hnamed, hword, hconcatenation, hlocation, hnull, and_self]

theorem resolveFrom_ungated (segments : List String) :
    ∀ entity tableAlias, Ungated (schema.resolveFrom entity tableAlias segments) := by
  induction segments with
  | nil => exact fun _ _ => .ok _
  | cons segment rest ih =>
      intro entity tableAlias
      unfold Schema.resolveFrom
      split
      · exact .ok _
      · exact .ok _
      · rename_i segment' rest' _ heq
        split
        · exact .error rfl
        · rw [(List.cons.inj heq).2] at ih
          exact .bind (ih _ _) fun _ _ => .ok _

theorem column_ungated (path : String) : Ungated (column schema root path) :=
  .map _ (resolveFrom_ungated schema _ _ _)

mutual

theorem ofExpression_ungated : ∀ x : Expression, Ungated (ofExpression schema root x)
  | .property path _ => by
      simp only [ofExpression]
      exact column_ungated schema root path
  | .call function arguments _ => by
      simp only [ofExpression]
      exact .bind (ofArguments_ungated arguments) fun _ _ => functionTable_ungated _ _

theorem ofArguments_ungated : ∀ arguments : List Argument,
    Ungated (ofArguments schema root arguments)
  | [] => by
      simp only [ofArguments]
      exact .ok _
  | .expression value :: rest => by
      simp only [ofArguments]
      exact .bind (ofExpression_ungated value) fun _ _ =>
        .bind (ofArguments_ungated rest) fun _ _ => .ok _
  | .literal _ :: rest => by
      simp only [ofArguments]
      exact .bind (ofArguments_ungated rest) fun _ _ => .ok _

end

theorem leafTest_ungated (leaf : SimpleCondition) (ctx : WalkContext) :
    Ungated (leafTest schema root leaf ctx) := by
  refine .bind (ofExpression_ungated schema root leaf.left) fun _ _ => ?_
  dsimp only
  split
  · exact .ok _
  · exact .ok _
  · exact .bind (column_ungated schema root _) fun _ _ => .ok _
  · split
    · split
      · exact .ok _
      · exact .error rfl
    · exact .ok _

theorem interpretation_ungated (condition : Option Condition) :
    Ungated ((interpretation schema root).filter condition schema.maxDepth) :=
  Interpretation.filter_raises _ _ _ rfl rfl (leafTest_ungated schema root)
    (resolve_ungated nativeFilters)

theorem joinPlan_ungated (uses : List PathUse) :
    ∀ plan, Ungated (uses.foldlM (JoinPlan.add schema root) plan) := by
  induction uses with
  | nil => exact fun _ => .ok _
  | cons use rest ih =>
      intro plan
      rw [List.foldlM_cons]
      exact .bind (.bind (resolveFrom_ungated schema _ _ _) fun _ _ => .ok _) fun _ _ => ih _

theorem selectItems_ungated (projection : Projection) :
    Ungated (selectItems schema root projection) := by
  cases projection with
  | entity => exact .ok _
  | items columns => exact .mapM fun _ _ => .map _ (ofExpression_ungated schema root _)
  | native piece => exact .map _ (resolve_ungated nativeColumns piece)

theorem sortClause_ungated (distinct : Bool) (projection : Projection) (keys : List SortKey) :
    ∀ index, Ungated (sortClauseFrom schema root distinct projection index keys) := by
  induction keys with
  | nil => exact fun _ => .ok _
  | cons key rest ih =>
      intro index
      cases key with
      | simple key =>
          exact .bind (ofExpression_ungated schema root _) fun _ _ => .bind (ih _) fun _ _ => .ok _
      | native piece =>
          exact .bind (resolve_ungated nativeOrders piece) fun _ _ => .bind (ih _) fun _ _ => .ok _

theorem groupKeys_ungated (groupBy : Option Selection) :
    Ungated (groupKeys schema root groupBy) := by
  unfold groupKeys
  split
  · exact .ok _
  · exact .mapM fun _ _ => ofExpression_ungated schema root _
  · exact resolve_ungated nativeColumns _

/-- A statement is made without a word on aggregates. -/
theorem compileParts_ungated (parts : QueryParts) : Ungated (compileParts schema root parts) :=
  .bind (joinPlan_ungated schema root _ _) fun _ _ =>
  .bind (projection_ungated parts) fun _ _ =>
  .bind (selectItems_ungated schema root _) fun _ _ =>
  .bind (interpretation_ungated schema root _) fun _ _ =>
  .bind (groupKeys_ungated schema root _) fun _ _ =>
  .bind (interpretation_ungated schema root _) fun _ _ =>
  .bind (sortClause_ungated schema root _ _ _ _) fun _ _ => .ok _

end Sql

namespace Mongo

theorem functionTable_ungated (function : Function) (arguments : List Expr) :
    Ungated (functionTable.apply function arguments) := by
  have hunary : ∀ operation, FunctionHandler.Ungated (unary operation) :=
    fun _ _ _ => .bind (one_ungated _ _) fun _ _ => .ok _
  have hvariadic : ∀ operation, FunctionHandler.Ungated (variadic operation) :=
    fun _ _ _ => .ok _
  have hfixed : ∀ e, FunctionHandler.Ungated (fixed e) := fun _ _ _ => .ok _
  have htrimming : ∀ side, FunctionHandler.Ungated (trimming side) :=
    fun _ _ _ => .bind (one_ungated _ _) fun _ _ => .ok _
  have hsubstring : FunctionHandler.Ungated substring :=
    fun _ _ => .bind (three_ungated _ _) fun _ _ => .ok _
  have hlocation : FunctionHandler.Ungated location :=
    fun _ _ => .bind (two_ungated _ _) fun _ _ => .ok _
  have hfirst : FunctionHandler.Ungated firstPresent := by
    intro function arguments
    unfold firstPresent
    split <;> exact .ok _
  have hnull : FunctionHandler.Ungated nullWhenEqual :=
    fun _ _ => .bind (two_ungated _ _) fun _ _ => .ok _
  have hcounting : FunctionHandler.Ungated counting :=
    fun _ _ => .bind (one_ungated _ _) fun _ _ => .ok _
  refine apply_ungated backendName _ ?_ function arguments
  simp only [List.forall_mem_cons, List.not_mem_nil, false_implies, implies_true, and_true]
  simp only [hunary, hvariadic, hfixed, htrimming, hsubstring, hlocation, hfirst, hnull, hcounting,
    and_self]

variable (scope : Scope)

theorem property_ungated (path : String) : Ungated (scope.property path) := by
  unfold Scope.property
  split
  · exact .ok _
  · split
    · exact .ok _
    · exact .error rfl

mutual

theorem ofExpression_ungated : ∀ x : Expression, Ungated (ofExpression scope x)
  | .property path label => by
      simp only [ofExpression]
      split
      · exact .ok _
      · exact property_ungated scope path
  | .call function arguments label => by
      simp only [ofExpression]
      split
      · exact .ok _
      · exact .bind (ofArguments_ungated arguments) fun _ _ => functionTable_ungated _ _

theorem ofArguments_ungated : ∀ arguments : List Argument, Ungated (ofArguments scope arguments)
  | [] => by
      simp only [ofArguments]
      exact .ok _
  | .expression value :: rest => by
      simp only [ofArguments]
      exact .bind (ofExpression_ungated value) fun _ _ =>
        .bind (ofArguments_ungated rest) fun _ _ => .ok _
  | .literal _ :: rest => by
      simp only [ofArguments]
      exact .bind (ofArguments_ungated rest) fun _ _ => .ok _

end

theorem patternText_ungated (op : Operator) (literal : Literal) :
    Ungated (patternText op literal) := by
  unfold patternText
  split
  · exact .ok _
  · exact .error rfl

theorem clause_ungated (polarity : Polarity) (value : Option ConditionValue) :
    Ungated (clause polarity value) := by
  refine .bind ?_ fun _ _ => .ok _
  unfold plainClause
  split
  · exact .ok _
  · exact .ok _
  · exact .ok _
  · exact .ok _
  · split
    · exact .map _ (patternText_ungated _ _)
    · exact .ok _
  · exact .error rfl

theorem rightSide_ungated (value : ConditionValue) : Ungated (rightSide scope value) := by
  unfold rightSide
  split
  · refine .bind ?_ fun _ _ => ofExpression_ungated scope _
    unfold Expression.ofPath Expression.checkPath
    split
    · exact .error rfl
    · exact .ok _
  · exact .ok _
  · exact .ok _

theorem condition_ungated (leaf : SimpleCondition) (polarity : Polarity) :
    Ungated (condition scope leaf polarity) := by
  refine .bind (ofExpression_ungated scope leaf.left) fun _ _ => ?_
  split
  · exact .ok _
  · exact .ok _
  · split
    · exact .bind (patternText_ungated _ _) fun _ _ => .ok _
    · exact .ok _
  · exact .bind (rightSide_ungated scope _) fun _ _ => .ok _

theorem leafFilter_ungated (leaf : SimpleCondition) (ctx : WalkContext) :
    Ungated (leafFilter scope leaf ctx) := by
  unfold leafFilter
  dsimp only
  split
  · exact .map _ (clause_ungated _ _)
  · exact .map _ (condition_ungated scope leaf _)

theorem interpretation_ungated (condition : Option Condition) (maxDepth : Nat) :
    Ungated ((interpretation scope).filter condition maxDepth) :=
  Interpretation.filter_raises _ _ _ rfl rfl (leafFilter_ungated scope)
    fun piece => .map _ (resolve_ungated natives piece)

theorem nativeSortKeys_ungated (piece : Native) : Ungated (nativeSortKeys piece) := by
  refine .bind (resolve_ungated natives piece) fun _ _ => ?_
  split
  · exact .ok _
  · exact .error rfl

theorem findSort_ungated (keys : List SortKey) : ∀ sort, Ungated (findSort sort keys) := by
  induction keys with
  | nil => exact fun _ => .ok _
  | cons key rest ih =>
      intro sort
      cases key with
      | simple key =>
          simp only [findSort]
          split
          · exact ih _
          · exact ih _
      | native piece => exact .bind (nativeSortKeys_ungated piece) fun _ _ => ih _

theorem groupFields_ungated (keys : List Expression) :
    ∀ index known, Ungated (groupFields index known keys) := by
  induction keys with
  | nil => exact fun _ _ => .ok _
  | cons key rest ih =>
      intro index known
      exact .bind (ofExpression_ungated .document key) fun _ _ => .bind (ih _ _) fun _ _ => .ok _

theorem accumulators_ungated (calls : List Expression) :
    ∀ index known, Ungated (accumulators index known calls) := by
  induction calls with
  | nil => exact fun _ _ => .ok _
  | cons call rest ih =>
      intro index known
      simp only [accumulators]
      split
      · exact ih _ _
      · exact .bind (ofExpression_ungated .document call) fun _ _ =>
          .bind (ih _ _) fun _ _ => .ok _

theorem groupStage_ungated (parts : QueryParts) (projection : Projection) :
    Ungated (groupStage parts projection) := by
  refine .bind ?_ fun _ _ => .bind (accumulators_ungated _ _ _) fun _ _ => .ok _
  unfold groupKey
  split
  · exact .ok _
  · exact .bind (groupFields_ungated _ _ _) fun _ _ => .ok _
  · exact .bind (resolve_ungated natives _) fun _ _ => .ok _

theorem sortStage_ungated (keys : List SortKey) :
    ∀ index stage, Ungated (sortStageFrom scope index stage keys) := by
  induction keys with
  | nil => exact fun _ _ => .ok _
  | cons key rest ih =>
      intro index stage
      cases key with
      | simple key => exact .bind (ofExpression_ungated scope _) fun _ _ => ih _ _
      | native piece => exact .bind (nativeSortKeys_ungated piece) fun _ _ => ih _ _

theorem projectStage_ungated (computed : List (String × Expr)) (projection : Projection) :
    Ungated (projectStage scope computed projection) := by
  cases projection with
  | entity => exact .ok _
  | items columns =>
      exact .bind (.mapM fun _ _ => .map _ (ofExpression_ungated scope _)) fun _ _ => .ok _
  | native piece =>
      refine .bind (resolve_ungated natives piece) fun _ _ => ?_
      split
      · exact .ok _
      · exact .error rfl

theorem pipeline_ungated (filter : Option Filter) (parts : QueryParts) (projection : Projection)
    (maxDepth : Nat) : Ungated (pipeline filter parts projection maxDepth) := by
  have hgrouping : Ungated (groupingOf parts projection) := by
    unfold groupingOf
    split
    · exact .map _ (groupStage_ungated parts projection)
    · exact .ok _
  rw [pipeline_eq]
  exact .bind hgrouping fun _ _ => .bind (interpretation_ungated _ _ _) fun _ _ =>
    .bind (sortStage_ungated _ _ _ _) fun _ _ => .bind (projectStage_ungated _ _ _) fun _ _ => .ok _

/-- A command is made without a word on aggregates. -/
theorem compileParts_ungated (schema : Schema) (root : String) (parts : QueryParts) :
    Ungated (compileParts schema root parts) := by
  refine .bind (interpretation_ungated _ _ _) fun _ _ =>
    .bind (projection_ungated parts) fun _ _ => ?_
  dsimp only
  split
  · split
    · exact .bind (pipeline_ungated _ _ _ _) fun _ _ => .ok _
    · exact .bind (.bind (findSort_ungated _ _) fun _ _ => .ok _) fun _ _ => .ok _
  · exact .bind (pipeline_ungated _ _ _ _) fun _ _ => .ok _

end Mongo

namespace Search

theorem fieldOf_ungated (x : Expression) : Ungated (fieldOf x) := by
  cases x with
  | property path label => exact .ok _
  | call function arguments label => exact .error rfl

theorem fieldClause_ungated (polarity : Polarity) (field : String)
    (value : Option ConditionValue) : Ungated (fieldClause polarity field value) := by
  unfold fieldClause
  split
  · exact .error rfl
  · exact .ok _
  · exact .ok _
  · exact .ok _
  · exact .ok _
  · exact .ok _
  · exact .ok _
  · refine .bind ?_ fun _ _ => .ok _
    unfold positiveClause
    split
    · split
      · exact .ok _
      · exact .error rfl
    · exact .ok _
  · exact .error rfl

/-- A request is made without a word on aggregates. -/
theorem compileParts_ungated (schema : Schema) (root : String) (parts : QueryParts) :
    Ungated (compileParts schema root parts) := by
  have hfilter : Ungated (interpretation.filter parts.filter schema.maxDepth) :=
    Interpretation.filter_raises _ _ _ rfl rfl
      (fun leaf _ => .bind (fieldOf_ungated leaf.left) fun _ _ => fieldClause_ungated _ _ _)
      fun piece => .map _ (resolve_ungated natives piece)
  have hsource : ∀ projection, Ungated (sourceOf parts.distinct projection) := by
    intro projection
    cases projection with
    | entity => exact .ok _
    | items columns =>
        simp only [sourceOf]
        split
        · exact .error rfl
        · exact .bind (.mapM fun _ _ => fieldOf_ungated _) fun _ _ => .ok _
    | native piece => exact .bind (resolve_ungated natives piece) fun _ _ => .ok _
  have hsort : ∀ key, Ungated (sortEntry key) := by
    intro key
    cases key with
    | simple key => exact .map _ (fieldOf_ungated _)
    | native piece => exact .map _ (resolve_ungated natives piece)
  unfold compileParts
  dsimp only
  split
  · exact .refused rfl
  · split
    · exact .refused rfl
    · exact .bind hfilter fun _ _ => .bind (projection_ungated parts) fun _ _ =>
        .bind (hsource _) fun _ _ => .bind (.mapM fun _ _ => hsort _) fun _ _ => .ok _

end Search

section Memory

variable (clock : Clock)

theorem evaluationTable_ungated (function : Function) (arguments : List Evaluator) :
    Ungated ((evaluationTable clock).apply function arguments) := by
  have hunary : ∀ f, FunctionHandler.Ungated (Evaluator.unary f) :=
    fun _ _ _ => .bind (one_ungated _ _) fun _ _ => .ok _
  have hbinary : ∀ f, FunctionHandler.Ungated (Evaluator.binary f) :=
    fun _ _ _ => .bind (two_ungated _ _) fun _ _ => .ok _
  have hternary : ∀ f, FunctionHandler.Ungated (Evaluator.ternary f) :=
    fun _ _ _ => .bind (three_ungated _ _) fun _ _ => .ok _
  have hvariadic : ∀ f, FunctionHandler.Ungated (Evaluator.variadic f) := fun _ _ _ => .ok _
  have hfixed : ∀ value, FunctionHandler.Ungated (Evaluator.fixed value) := fun _ _ _ => .ok _
  have haggregate : ∀ f, FunctionHandler.Ungated (Evaluator.aggregate f) :=
    fun _ _ _ => .bind (one_ungated _ _) fun _ _ => .ok _
  refine apply_ungated memoryName _ ?_ function arguments
  simp only [List.forall_mem_cons, List.not_mem_nil, false_implies, implies_true, and_true]
  simp only [hunary, hbinary, hternary, hvariadic, hfixed, haggregate, and_self]

mutual

theorem evaluator_ungated : ∀ x : Expression, Ungated (x.evaluator clock)
  | .property _ _ => by
      simp only [Expression.evaluator]
      exact .ok _
  | .call _ arguments _ => by
      simp only [Expression.evaluator]
      exact .bind (argumentEvaluators_ungated arguments) fun _ _ =>
        evaluationTable_ungated clock _ _

theorem argumentEvaluators_ungated : ∀ arguments : List Argument,
    Ungated (Expression.argumentEvaluators clock arguments)
  | [] => by
      simp only [Expression.argumentEvaluators]
      exact .ok _
  | .expression value :: rest => by
      simp only [Expression.argumentEvaluators]
      exact .bind (evaluator_ungated value) fun _ _ =>
        .bind (argumentEvaluators_ungated rest) fun _ _ => .ok _
  | .literal _ :: rest => by
      simp only [Expression.argumentEvaluators]
      exact .bind (argumentEvaluators_ungated rest) fun _ _ => .ok _

end

theorem rowInterpretation_ungated (condition : Option Condition) (maxDepth : Nat) :
    Ungated ((rowInterpretation clock).filter condition maxDepth) := by
  refine Interpretation.filter_raises _ _ _ rfl rfl ?_ (resolve_ungated nativeTests)
  intro leaf ctx
  refine .bind (evaluator_ungated clock leaf.left) fun _ _ => ?_
  dsimp only
  split
  · exact .ok _
  · exact .ok _
  · split
    · split
      · exact .error rfl
      · exact .ok _
    · exact .ok _
  · exact .ok _

theorem columnEvaluators_ungated (columns : List (String × Expression)) :
    Ungated (columnEvaluators clock columns) :=
  .mapM fun _ _ => .map _ (evaluator_ungated clock _)

theorem SortPlan.ofKeys_ungated (keys : List SortKey) : Ungated (SortPlan.ofKeys clock keys) := by
  have hfrom : ∀ count, Ungated (SortPlan.ofKeysFrom clock count keys) := by
    induction keys with
    | nil => exact fun _ => .ok _
    | cons key rest ih =>
        intro count
        cases key with
        | simple key =>
            exact .bind (evaluator_ungated clock _) fun _ _ => .bind (ih _) fun _ _ => .ok _
        | native piece =>
            exact .bind (resolve_ungated nativeOrders piece) fun _ _ =>
              .bind (ih _) fun _ _ => .ok _
  exact hfrom 0

theorem groupRecords_ungated (parts : QueryParts) (records : List Record) :
    Ungated (Store.groupRecords clock parts records) := by
  unfold Store.groupRecords
  split
  · exact .error rfl
  · exact .bind (.mapM fun _ _ => evaluator_ungated clock _) fun _ _ => .ok _
  · split
    · exact .ok _
    · exact .ok _

end Memory

end Polyquery
