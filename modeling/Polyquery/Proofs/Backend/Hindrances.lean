import Polyquery.Proofs.Backend.Ungated
import Polyquery.Proofs.Memory.Kleene
import Polyquery.Proofs.Mongo.Coverage
import Polyquery.Proofs.Query.Customizers
import Polyquery.Proofs.Query.Valid
import Polyquery.Proofs.Search.Filter
import Polyquery.Proofs.Sql.Scope

/-!
# What Can Still Go Wrong

A query that can be made, holds no native piece and passes the checks may still be
more than a backend can do. What is left is on a short list for each backend: a
condition that is too deep and a column without a name stand on all of them, then
come relations that are not configured, properties that have no value after a
grouping, and what a search engine or a store lacks altogether.

Everything else that a backend can report is about expressions and comparisons that
cannot be made or do not pass the checks. A handler of a function is only handed as
many arguments as the function takes, at any depth of calls, and a comparison only
comes in one of five forms (`Shape`). The errors of the other numbers and forms are
never met, and neither is a function without a handler, apart from the search
engine, which has no handlers.

## Main definitions

* `AnyQuery.NativeFree`, `QueryParts.NativeFree`: Queries without native pieces
  that may have customizers.
* `QueryParts.Hindered`: What goes wrong in every backend.
* `Sql.Hindered`, `Mongo.Hindered`, `Search.Hindered`, `Store.Hindered`: What goes
  wrong in one backend.

## Theorems

* `Sql.ofExpression_raises`, `Sql.leafTest_raises`: Expressions and comparisons.
* `Mongo.pipeline_hindered`: Pipelines.
* `Search.leafClause_raises`: Comparisons of fields.
* `rowTest_total`, `columnEvaluators_total`, `SortPlan.ofKeys_total`,
  `groupRecords_total`: The parts of an answer from a store.
* `Sql.compileParts_hindered` and its siblings: The parts of a query.
* `hindered_of_error`: Queries.
-/

namespace Polyquery

/-- Parts without native pieces. There may be customizers. -/
def QueryParts.NativeFree (parts : QueryParts) : Prop :=
  (parts.withCustomizers []).Portable

/-- A query without native pieces and preprocessors. There may be customizers. -/
def AnyQuery.NativeFree (q : AnyQuery) : Prop :=
  (q.withCustomizers []).Portable

/-- Why parts have no answer in any backend. -/
inductive QueryParts.Hindered (parts : QueryParts) (maxDepth : Nat) : CompileError → Prop where
  /-- A condition is too deep. -/
  | deep (c : Condition) (h : parts.filter = some c ∨ parts.having = some c)
    (hdeep : maxDepth < c.height) : Hindered parts maxDepth (.depthExceeded maxDepth)
  /-- A column has no name. -/
  | unnamed (x : Expression) (h : x ∈ parts.returned) (hlabel : x.alias? = none)
    (hpath : x.path? = none) : Hindered parts maxDepth (.missingAlias x.text)

theorem Raises.total {ε α : Type} {P : ε → Prop} {x : Except ε α} (h : ∃ a, x = .ok a) :
    Raises P x := by
  rcases h with ⟨a, rfl⟩
  exact .ok a

section Shared

theorem nativeFree_effective (q : AnyQuery) (h : q.NativeFree) : q.effective.NativeFree := by
  have hparts := portable_effective _ h
  rw [effective_withCustomizers] at hparts
  exact hparts

theorem preprocessors_nativeFree (q : AnyQuery) (h : q.NativeFree) : q.preprocessors = [] := by
  rw [← preprocessors_withCustomizers q []]
  exact preprocessors_portable _ h

/-- A query without native pieces that passes the checks does so as it is. -/
theorem checked_nativeFree (q : AnyQuery) (h : q.NativeFree) (hprepares : q.Prepares) :
    q.effective.Checked := by
  have hplain := preprocessors_nativeFree q h
  have hcheck : (q.withCustomizers []).Prepares := by
    rw [prepares_iff _ ((preprocessors_withCustomizers q []).trans hplain),
      check_withCustomizers]
    exact (prepares_iff q hplain).mp hprepares
  have hchecked := checked_of_prepares _ h hcheck
  rw [effective_withCustomizers] at hchecked
  exact ⟨hchecked.filter, hchecked.sorts, hchecked.having⟩

/-- A native-free query that passes the checks is compiled as its parts are. -/
theorem handle_nativeFree {α : Type} (compile : QueryParts → Except CompileError α)
    (q : AnyQuery) (h : q.NativeFree) (hprepares : q.Prepares) :
    q.handle (compilePlain compile) (compileGrouped compile) = compile q.effective := by
  have hplain := preprocessors_nativeFree q h
  rw [handle_plain compile q hplain, (prepares_iff q hplain).mp hprepares, ok_bind]

variable (parts : QueryParts) (maxDepth : Nat)

theorem projection_hindered : Raises (parts.Hindered maxDepth) parts.projection := by
  intro e h
  rcases projection_unnamed parts e h with ⟨x, hx, hlabel, hpath, rfl⟩
  exact .unnamed x hx hlabel hpath

/-- A condition of native-free parts fails because it is too high or because a comparison does. -/
theorem filter_hindered {φ : Type} (t : Interpretation φ) {P : CompileError → Prop}
    (condition : Option Condition) (hpart : condition = parts.filter ∨ condition = parts.having)
    (hnative : ∀ c, condition = some c → c.nativeFree = true)
    (hcommon : ∀ e, parts.Hindered maxDepth e → P e)
    (hleaves : ∀ leaf ∈ leavesOf condition, ∀ ctx, Raises P (t.simple leaf ctx)) :
    Raises P (t.filter condition maxDepth) := by
  intro e h
  rcases t.filter_error condition maxDepth hnative e h with
    ⟨c, hc, _, hdeep, rfl⟩ | ⟨leaf, hleaf, ctx, hfails⟩
  · refine hcommon _ (.deep c ?_ hdeep)
    rcases hpart with rfl | rfl
    · exact .inl hc
    · exact .inr hc
  · exact hleaves leaf hleaf ctx e hfails

end Shared

namespace Sql

theorem sameName_takes (arity : Arity) : FunctionHandler.Takes sameName arity :=
  fun _ _ _ => ⟨_, rfl⟩

theorem named_takes (name : String) (arity : Arity) : FunctionHandler.Takes (named name) arity :=
  fun _ _ _ => ⟨_, rfl⟩

theorem word_takes (keyword : Keyword) (arity : Arity) :
    FunctionHandler.Takes (word keyword) arity :=
  fun _ _ _ => ⟨_, rfl⟩

theorem concatenation_takes : FunctionHandler.Takes concatenation (.atLeast 2) := by
  intro function arguments haccepts
  cases arguments with
  | nil => exact absurd haccepts (by decide)
  | cons first rest => exact ⟨_, rfl⟩

theorem location_takes : FunctionHandler.Takes location (.exactly 2) :=
  takes_two fun _ _ _ => ⟨_, rfl⟩

theorem nullWhenEqual_takes : FunctionHandler.Takes nullWhenEqual (.exactly 2) := by
  refine takes_two fun function first second => ?_
  cases second <;> exact ⟨_, rfl⟩

/-- Every function has a handler, and the handler takes the arguments of the function. -/
theorem functionTable_takes (function : Function) :
    ∃ handler, functionTable.handlers.lookup function = some handler ∧
      FunctionHandler.Takes handler function.arity := by
  cases function with
  | concat => exact ⟨_, rfl, concatenation_takes⟩
  | locate => exact ⟨_, rfl, location_takes⟩
  | nullif => exact ⟨_, rfl, nullWhenEqual_takes⟩
  | substring => exact ⟨_, rfl, named_takes _ _⟩
  | trim => exact ⟨_, rfl, named_takes _ _⟩
  | currentDate => exact ⟨_, rfl, word_takes _ _⟩
  | currentTime => exact ⟨_, rfl, word_takes _ _⟩
  | currentTimestamp => exact ⟨_, rfl, word_takes _ _⟩
  | _ => exact ⟨_, rfl, sameName_takes _⟩

/-- Why parts have no statement. -/
inductive Hindered (schema : Schema) (root : String) (parts : QueryParts) :
    CompileError → Prop where
  | common (e : CompileError) (h : parts.Hindered schema.maxDepth e) : Hindered schema root parts e
  /-- A path breaks off. -/
  | relation (use : PathUse) (h : use ∈ pathUses parts) (entity segment : String)
    (hbreaks : schema.Breaks root use.path entity segment) :
    Hindered schema root parts (.unknownRelation entity segment)

variable (schema : Schema) (root : String) {P : CompileError → Prop}

theorem resolve_raises (path : String)
    (h : ∀ entity segment, schema.Breaks root path entity segment →
      P (.unknownRelation entity segment)) :
    Raises P (schema.resolve root path) := by
  rcases registered_or_breaks schema root path with hregistered | ⟨entity, segment, hbreaks⟩
  · rcases resolve_registered schema root path hregistered with ⟨column, hcolumn⟩
    exact .total ⟨_, hcolumn⟩
  · rw [resolve_broken schema root path entity segment hbreaks]
    exact .error (h entity segment hbreaks)

theorem length_ofArguments (arguments : List Argument) (es : List Expr)
    (h : ofArguments schema root arguments = .ok es) : es.length = arguments.length := by
  induction arguments generalizing es with
  | nil =>
      simp only [ofArguments] at h
      rw [← Except.ok.inj h]
      rfl
  | cons argument rest ih =>
      cases argument with
      | expression value =>
          simp only [ofArguments] at h
          rcases bind_eq_ok.mp h with ⟨first, _, h⟩
          rcases bind_eq_ok.mp h with ⟨others, hothers, h⟩
          rw [← Except.ok.inj h, List.length_cons, List.length_cons, ih others hothers]
      | literal value =>
          simp only [ofArguments] at h
          rcases bind_eq_ok.mp h with ⟨others, hothers, h⟩
          rw [← Except.ok.inj h, List.length_cons, List.length_cons, ih others hothers]

mutual

/-- An expression fails only where one of its paths does. -/
theorem ofExpression_raises : ∀ x : Expression, x.valid = true →
    (∀ path ∈ x.paths, Raises P (schema.resolve root path)) →
    Raises P (ofExpression schema root x)
  | .property path label, _, hpaths => by
      simp only [Expression.paths, List.forall_mem_singleton] at hpaths
      simp only [ofExpression]
      exact .map _ hpaths
  | .call function arguments label, hvalid, hpaths => by
      simp only [Expression.valid, Bool.and_eq_true] at hvalid
      simp only [Expression.paths] at hpaths
      simp only [ofExpression]
      refine .bind (ofArguments_raises arguments hvalid.2 hpaths) fun es hes => .total ?_
      -- The call itself takes as many arguments as there are.
      have haccepts : function.arity.accepts es.length = true := by
        rw [length_ofArguments schema root arguments es hes]
        exact hvalid.1
      exact apply_of_takes functionTable_takes function es haccepts

theorem ofArguments_raises : ∀ arguments : List Argument,
    Expression.validArguments arguments = true →
    (∀ path ∈ Expression.argumentPaths arguments, Raises P (schema.resolve root path)) →
    Raises P (ofArguments schema root arguments)
  | [], _, _ => by
      simp only [ofArguments]
      exact .ok _
  | .expression value :: rest, hvalid, hpaths => by
      simp only [Expression.validArguments, Bool.and_eq_true] at hvalid
      simp only [Expression.argumentPaths, List.forall_mem_append] at hpaths
      simp only [ofArguments]
      exact .bind (ofExpression_raises value hvalid.1 hpaths.1) fun _ _ =>
        .bind (ofArguments_raises rest hvalid.2 hpaths.2) fun _ _ => .ok _
  | .literal value :: rest, hvalid, hpaths => by
      simp only [Expression.validArguments] at hvalid
      simp only [Expression.argumentPaths] at hpaths
      simp only [ofArguments]
      exact .bind (ofArguments_raises rest hvalid hpaths) fun _ _ => .ok _

end

/-- A comparison that passes the checks fails only where one of its paths does. -/
theorem leafTest_raises (leaf : SimpleCondition) (hvalid : leaf.Valid)
    (hcheck : checkValue leaf = .ok ())
    (hpaths : ∀ x ∈ leaf.expressions, ∀ path ∈ x.paths, Raises P (schema.resolve root path))
    (ctx : WalkContext) : Raises P (leafTest schema root leaf ctx) := by
  have hshape := shape_of_checked leaf hvalid hcheck
  refine .bind (ofExpression_raises schema root leaf.left hvalid.left
    (hpaths _ List.mem_cons_self)) fun left _ => ?_
  dsimp only
  cases hvalue : leaf.value with
  | none => exact .ok _
  | some value =>
      cases value with
      | list values => exact .ok _
      | field path =>
          have hfield := hpaths _ (field_mem_expressions leaf path hvalue) path
            (by simp only [Expression.paths, List.mem_singleton])
          exact .bind (.map _ hfield) fun _ _ => .ok _
      | scalar literal =>
          -- The shape settles which test it is: a pattern has a text, and the rest takes any
          -- literal.
          rw [hvalue] at hshape
          simp only [Mongo.polarity_isPattern]
          cases hshape with
          | pattern hpattern text =>
              simp only [hpattern, if_true, Literal.asString?]
              exact .ok _
          | scalar hfield literal =>
              have hplain : leaf.operator.isPattern = false := by
                revert hfield
                cases leaf.operator <;> decide
              simp only [hplain, Bool.false_eq_true, if_false]
              exact .ok _

theorem path_of_leaf (condition : Option Condition) (leaf : SimpleCondition)
    (hleaf : leaf ∈ leavesOf condition) (x : Expression) (hx : x ∈ leaf.expressions)
    (path : String) (hpath : path ∈ x.paths) :
    path ∈ (leavesOf condition).flatMap leafPaths := by
  refine List.mem_flatMap.mpr ⟨leaf, hleaf, ?_⟩
  rcases List.mem_cons.mp hx with rfl | hfield
  · exact List.mem_append_left _ hpath
  · -- The other side is the property that the comparison is made with.
    rcases List.mem_map.mp hfield with ⟨other, hother, rfl⟩
    rw [Expression.paths, List.mem_singleton] at hpath
    have hvalue : leaf.value = some (.field other) := by
      rw [Option.mem_toList] at hother
      unfold SimpleCondition.field? at hother
      split at hother
      · rename_i named hvalue
        rw [hvalue, Option.some.inj hother]
      · exact absurd hother (by simp only [reduceCtorEq, not_false_eq_true])
    refine List.mem_append_right _ ?_
    simp only [hvalue, hpath, List.mem_singleton]

/-- Every path of an expression that a query reads is planned for. -/
theorem use_of_read (parts : QueryParts) (x : Expression) (hx : x ∈ parts.read)
    (path : String) (hpath : path ∈ x.paths) : ∃ use ∈ pathUses parts, use.path = path := by
  -- The select and the group-by are planned for together.
  have hcolumn : ∀ columns : Selection, x ∈ columns.expressions →
      parts.select = some columns ∨ parts.groupBy = some columns →
      path ∈ (parts.select.toList ++ parts.groupBy.toList).flatMap fun selection =>
        selection.expressions.flatMap Expression.paths := by
    intro columns hmem hselection
    refine List.mem_flatMap.mpr ⟨columns, ?_, List.mem_flatMap.mpr ⟨x, hmem, hpath⟩⟩
    rw [List.mem_append, Option.mem_toList, Option.mem_toList]
    exact hselection
  -- Filter and sorts are planned for with the paths that count, the rest without.
  have huse : path ∈ ((leavesOf parts.filter).flatMap leafPaths ++
        parts.sorts.flatMap sortPaths) ∨
      path ∈ (((parts.select.toList ++ parts.groupBy.toList).flatMap fun selection =>
        selection.expressions.flatMap Expression.paths) ++
          (leavesOf parts.having).flatMap leafPaths) := by
    simp only [QueryParts.read, List.mem_append] at hx
    simp only [List.mem_append]
    rcases hx with ((hcompared | hkey) | hreturned) | hsort
    · rcases List.mem_flatMap.mp hcompared with ⟨leaf, hmem, hside⟩
      rcases (mem_leaves parts leaf).mp hmem with hfilter | hhaving
      · exact .inl (.inl (path_of_leaf _ leaf hfilter x hside path hpath))
      · exact .inr (.inr (path_of_leaf _ leaf hhaving x hside path hpath))
    · rcases mem_keys parts x hkey with ⟨columns, hgroup, hmem⟩
      exact .inr (.inl (hcolumn columns hmem (.inr hgroup)))
    · rcases mem_returned parts x hreturned with ⟨columns, hselection, hmem⟩
      exact .inr (.inl (hcolumn columns hmem hselection))
    · rcases (mem_sortExpressions parts x).mp hsort with ⟨key, hkey, rfl⟩
      exact .inl (.inr (List.mem_flatMap.mpr ⟨_, hkey, hpath⟩))
  unfold pathUses
  rcases huse with hcounted | hother
  · exact ⟨⟨path, true⟩, List.mem_append_left _ (List.mem_map.mpr ⟨path, hcounted, rfl⟩), rfl⟩
  · exact ⟨⟨path, false⟩, List.mem_append_right _ (List.mem_map.mpr ⟨path, hother, rfl⟩), rfl⟩

theorem joinPlan_raises (uses : List PathUse)
    (h : ∀ use ∈ uses, Raises P (schema.resolve root use.path)) :
    Raises P (joinPlan schema root uses) := by
  -- The plan so far does not matter for what can fail.
  have hfrom : ∀ plan, Raises P (uses.foldlM (JoinPlan.add schema root) plan) := by
    induction uses with
    | nil => exact fun _ => .ok _
    | cons use rest ih =>
        intro plan
        rw [List.forall_mem_cons] at h
        rw [List.foldlM_cons]
        exact .bind (.bind h.1 fun _ _ => .ok _) fun _ _ => ih h.2 _
  exact hfrom _

theorem sortClause_raises (distinct : Bool) (projection : Projection) (keys : List SortKey)
    (hnative : ∀ key ∈ keys, key.isNative = false)
    (h : ∀ key, .simple key ∈ keys → Raises P (ofExpression schema root key.expression)) :
    ∀ index, Raises P (sortClauseFrom schema root distinct projection index keys) := by
  induction keys with
  | nil => exact fun _ => .ok _
  | cons key rest ih =>
      intro index
      rw [List.forall_mem_cons] at hnative
      cases key with
      | native piece => exact absurd hnative.1 (by
          simp only [SortKey.isNative, reduceCtorEq, not_false_eq_true])
      | simple key =>
          exact .bind (h key List.mem_cons_self) fun _ _ =>
            .bind (ih hnative.2 (fun other hother => h other (List.mem_cons_of_mem _ hother)) _)
              fun _ _ => .ok _

/-- Parts that can be made and pass the checks have a statement, unless they are hindered. -/
theorem compileParts_hindered (parts : QueryParts) (hnative : parts.NativeFree)
    (hvalid : parts.Valid) (hchecked : parts.Checked) :
    Raises (Hindered schema root parts) (compileParts schema root parts) := by
  have huse : ∀ use ∈ pathUses parts,
      Raises (Hindered schema root parts) (schema.resolve root use.path) := fun use hmem =>
    resolve_raises schema root use.path (.relation use hmem)
  have hpaths : ∀ x ∈ parts.read, ∀ path ∈ x.paths,
      Raises (Hindered schema root parts) (schema.resolve root path) := by
    intro x hx path hpath
    rcases use_of_read parts x hx path hpath with ⟨use, hmem, rfl⟩
    exact huse use hmem
  -- An expression can only fail at one of its paths, for the calls in it are valid.
  have hexpression : ∀ x ∈ parts.read, x.valid = true →
      Raises (Hindered schema root parts) (ofExpression schema root x) := fun x hx hmade =>
    ofExpression_raises schema root x hmade (hpaths x hx)
  have hfilter := filter_hindered parts schema.maxDepth (interpretation schema root) parts.filter
    (.inl rfl) hnative.filter .common fun leaf hleaf ctx =>
      leafTest_raises schema root leaf (hvalid.filter leaf hleaf) (hchecked.filter leaf hleaf)
        (fun x hx => hpaths x (leaf_mem_read parts leaf (filter_mem_leaves parts leaf hleaf) x hx))
        ctx
  have hhaving := filter_hindered parts schema.maxDepth (interpretation schema root) parts.having
    (.inr rfl) hnative.having .common fun leaf hleaf ctx =>
      leafTest_raises schema root leaf (hvalid.having leaf hleaf) (hchecked.having leaf hleaf)
        (fun x hx => hpaths x (leaf_mem_read parts leaf (having_mem_leaves parts leaf hleaf) x hx))
        ctx
  -- The keys are among the expressions that the query reads.
  have hgroups : Raises (Hindered schema root parts) (groupKeys schema root parts.groupBy) := by
    cases hgroup : parts.groupBy with
    | none => exact .ok _
    | some columns =>
        cases columns with
        | native piece => exact absurd (hnative.groupBy _ hgroup) (by
            simp only [Selection.isNative, reduceCtorEq, not_false_eq_true])
        | items list =>
            have hkeys : parts.keys = list.effective := by
              simp only [QueryParts.keys, hgroup, Selection.expressions]
            refine .mapM fun x hx => ?_
            rw [← hkeys] at hx
            exact hexpression x (key_mem_read parts x hx) (hvalid.keys x hx)
  -- One step after the other; the select list and the sorts are left to show.
  refine .bind (joinPlan_raises schema root _ huse) fun _ _ =>
    .bind (fun e h => .common e (projection_hindered parts _ e h)) fun projection hprojection =>
    .bind ?_ fun _ _ => .bind hfilter fun _ _ => .bind hgroups fun _ _ =>
    .bind hhaving fun _ _ => .bind (sortClause_raises schema root _ _ _ hnative.sorts ?_ _)
      fun _ _ => .ok _
  · rcases projection_returned _ hnative projection hprojection with ⟨hplain, hreturned⟩
    cases projection with
    | entity => exact .ok _
    | native piece => exact absurd rfl (hplain piece)
    | items columns =>
        refine .mapM fun column hcolumn => .map _ ?_
        have hmem : column.2 ∈ parts.returned := hreturned ▸ List.mem_map_of_mem hcolumn
        exact hexpression column.2 (returned_mem_read parts _ hmem) (hvalid.returned _ hmem)
  · intro key hkey
    have hmem : key.expression ∈ parts.sortExpressions :=
      (mem_sortExpressions parts _).mpr ⟨key, hkey, rfl⟩
    exact hexpression _ (sort_mem_read parts _ hmem) (hvalid.sorts key hkey)

end Sql

namespace Mongo

/-- Why parts have no command. -/
inductive Hindered (parts : QueryParts) (maxDepth : Nat) : CompileError → Prop where
  | common (e : CompileError) (h : parts.Hindered maxDepth e) : Hindered parts maxDepth e
  /-- A property of what is read after a grouping has no value. -/
  | ungrouped (hgroups : parts.Groups) (x : Expression) (h : x ∈ parts.later) (path : String)
    (hpath : path ∈ x.paths) : Hindered parts maxDepth (.typeMismatch (.ungrouped path))

section Missing

variable (scope : Scope)

mutual

/-- The properties without a value are properties. -/
theorem missing_subset : ∀ x : Expression, scope.missing x ⊆ x.paths
  | .property path label => by
      simp only [Scope.missing, Expression.paths]
      split
      · exact List.nil_subset _
      · unfold Scope.missingProperty
        split
        · exact List.nil_subset _
        · split
          · exact List.nil_subset _
          · exact List.Subset.refl _
  | .call function arguments label => by
      simp only [Scope.missing, Expression.paths]
      split
      · exact List.nil_subset _
      · exact missingArguments_subset arguments

theorem missingArguments_subset : ∀ arguments : List Argument,
    scope.missingArguments arguments ⊆ Expression.argumentPaths arguments
  | [] => List.nil_subset _
  | .expression value :: rest => by
      simp only [Scope.missingArguments, Expression.argumentPaths]
      exact List.append_subset.mpr
        ⟨List.subset_append_of_subset_left _ (missing_subset value),
          List.subset_append_of_subset_right _ (missingArguments_subset rest)⟩
  | .literal _ :: rest => by
      simp only [Scope.missingArguments, Expression.argumentPaths]
      exact missingArguments_subset rest

end

end Missing

theorem findSort_total (keys : List SortKey) (h : ∀ key ∈ keys, key.isNative = false) :
    ∀ sort, ∃ found, findSort sort keys = .ok found := by
  induction keys with
  | nil => exact fun sort => ⟨sort, rfl⟩
  | cons key rest ih =>
      intro sort
      rw [List.forall_mem_cons] at h
      cases key with
      | native piece => exact absurd h.1 (by
          simp only [SortKey.isNative, reduceCtorEq, not_false_eq_true])
      | simple key =>
          simp only [findSort]
          split
          · exact ih h.2 _
          · exact ih h.2 _

section Compiling

variable {parts : QueryParts} (hnative : parts.NativeFree) (hvalid : parts.Valid)
  (hchecked : parts.Checked)

include hnative in
/-- Only a pipeline that groups leaves properties without a value. -/
theorem missing_scopeAfter (projection : Projection)
    (hprojection : parts.projection = .ok projection)
    (grouping : Option (Stage × GroupScope)) (h : groupingOf parts projection = .ok grouping)
    (x : Expression) (path : String) (hpath : path ∈ (scopeAfter grouping).missing x) :
    parts.Groups ∧ path ∈ x.paths := by
  refine ⟨?_, missing_subset _ x hpath⟩
  cases grouping with
  | none =>
      rw [scopeAfter, Scope.missing_document x] at hpath
      exact absurd hpath List.not_mem_nil
  | some group =>
      unfold groupingOf at h
      split at h
      · rename_i hcondition
        rw [Bool.or_eq_true] at hcondition
        rcases hcondition with hkeys | haggregate
        · exact .inl hkeys
        · exact .inr ((hasAggregate_iff _ hnative projection hprojection).mp haggregate)
      · exact absurd (Except.ok.inj h) (by simp only [reduceCtorEq, not_false_eq_true])

include hnative hvalid in
/-- A pipeline always comes to the end of its grouping. -/
theorem groupingOf_total (projection : Projection)
    (hprojection : parts.projection = .ok projection) :
    ∃ grouping, groupingOf parts projection = .ok grouping := by
  have hmade : (parts.withCustomizers []).Valid :=
    ⟨hvalid.filter, hvalid.sorts, hvalid.select, hvalid.groupBy, hvalid.having⟩
  unfold groupingOf
  split
  · rcases groupStage_total _ hnative hmade projection hprojection with ⟨stage, group, hstage⟩
    exact ⟨some (stage, group), map_eq_ok.mpr ⟨_, hstage, rfl⟩⟩
  · exact ⟨none, rfl⟩

include hnative hvalid hchecked

/-- A pipeline fails only where a property has no value after its grouping, and where its filter
    of groups is too deep. -/
theorem pipeline_hindered (filter : Option Filter) (projection : Projection) (maxDepth : Nat)
    (hprojection : parts.projection = .ok projection) :
    Raises (Hindered parts maxDepth) (pipeline filter parts projection maxDepth) := by
  rw [pipeline_eq]
  refine .bind (.total (groupingOf_total hnative hvalid projection hprojection))
    fun grouping hgrouping => ?_
  have hmissing := missing_scopeAfter hnative projection hprojection grouping hgrouping
  -- What a later stage misses has no value after the grouping.
  have hlater : ∀ xs : List Expression, xs ⊆ parts.later → ∀ e,
      firstUngrouped (xs.flatMap (scopeAfter grouping).missing) = some e →
      Hindered parts maxDepth e := by
    intro xs hxs e he
    rcases firstUngrouped_eq_some he with ⟨path, hpath, rfl⟩
    rcases List.mem_flatMap.mp hpath with ⟨x, hx, hmem⟩
    rcases hmissing x path hmem with ⟨hgroups, hpath⟩
    exact .ungrouped hgroups x (hxs hx) path hpath
  refine .bind ?_ fun _ _ => .bind ?_ fun _ _ => .bind ?_ fun _ _ => .ok _
  · refine filter_hindered parts maxDepth _ parts.having (.inr rfl) hnative.having .common ?_
    intro leaf hleaf ctx e h
    rw [← errorOf?_eq_some] at h
    refine hlater leaf.expressions (having_mem_later parts leaf hleaf) e ?_
    rw [← h]
    exact (leafFilter_missing _ leaf (hvalid.having leaf hleaf) (hchecked.having leaf hleaf)
      ctx).symm
  · intro e h
    rw [← errorOf?_eq_some, sortStage_missing _ parts.sorts hnative.sorts hvalid.sorts] at h
    exact hlater parts.sortExpressions (sort_subset_later parts) e h
  · rcases projection_returned _ hnative projection hprojection with ⟨hplain, hreturned⟩
    cases projection with
    | entity => exact .ok _
    | native piece => exact absurd rfl (hplain piece)
    | items columns =>
        have hcolumns : columns.map (·.2) = parts.returned := hreturned
        intro e h
        rw [← errorOf?_eq_some,
          projectStage_missing _ _ columns (hcolumns ▸ hvalid.returned), hcolumns] at h
        exact hlater parts.returned (returned_subset_later parts) e h

/-- Parts that can be made and pass the checks have a command, unless they are hindered. -/
theorem compileParts_hindered (schema : Schema) (root : String) :
    Raises (Hindered parts schema.maxDepth) (compileParts schema root parts) := by
  have hfilter := filter_hindered parts schema.maxDepth (interpretation .document) parts.filter
    (.inl rfl) hnative.filter (P := Hindered parts schema.maxDepth) .common
    fun leaf hleaf ctx => by
      -- A document has a value for every property.
      refine .total (errorOf?_eq_none.mp ?_)
      have hside : Scope.document.missingSides leaf = [] := by
        rw [Scope.missingSides, List.flatMap_eq_nil_iff]
        exact fun x _ => Scope.missing_document x
      exact (leafFilter_missing _ leaf (hvalid.filter leaf hleaf) (hchecked.filter leaf hleaf)
        ctx).trans (by rw [hside]; rfl)
  refine .bind hfilter fun filter _ =>
    .bind (fun e h => .common e (projection_hindered parts _ e h)) fun projection hprojection => ?_
  have hpipeline := pipeline_hindered hnative hvalid hchecked filter projection schema.maxDepth
    hprojection
  dsimp only
  split
  · split
    · exact .bind hpipeline fun _ _ => .ok _
    · rcases findSort_total parts.sorts hnative.sorts [] with ⟨sort, hsort⟩
      exact .bind (.bind (.total ⟨sort, hsort⟩) fun _ _ => .ok _) fun _ _ => .ok _
  · exact .bind hpipeline fun _ _ => .ok _

end Compiling

end Mongo

namespace Search

/-- Why parts have no request. -/
inductive Hindered (parts : QueryParts) (maxDepth : Nat) : CompileError → Prop where
  | common (e : CompileError) (h : parts.Hindered maxDepth e) : Hindered parts maxDepth e
  /-- No call can be searched. -/
  | call (function : Function) (arguments : List Argument) (label : Option String)
    (h : .call function arguments label ∈ parts.read) :
    Hindered parts maxDepth (.unsupportedFunction backendName function)
  /-- Documents are not grouped. -/
  | groupBy (h : parts.groupBy.isSome = true) :
    Hindered parts maxDepth (.unsupportedByBackend backendName .groupBy)
  | having (h : parts.having.isSome = true) :
    Hindered parts maxDepth (.unsupportedByBackend backendName .having)
  /-- Equal rows of columns are not dropped. -/
  | distinct (h : parts.distinct = true) (hcolumns : parts.select.isSome = true) :
    Hindered parts maxDepth (.unsupportedByBackend backendName .distinctProjection)
  /-- A field is not compared with another one. -/
  | field (leaf : SimpleCondition) (h : leaf ∈ parts.leaves) (path : String)
    (hvalue : leaf.value = some (.field path)) :
    Hindered parts maxDepth (.unsupportedByBackend backendName .fieldComparison)

variable {P : CompileError → Prop}

theorem fieldOf_raises (x : Expression)
    (h : ∀ function arguments label, x = .call function arguments label →
      P (.unsupportedFunction backendName function)) : Raises P (fieldOf x) := by
  cases x with
  | property path label => exact .ok _
  | call function arguments label => exact .error (h _ _ _ rfl)

/-- A comparison that passes the checks fails only if its left side is a call or its right side
    another field. -/
theorem leafClause_raises (leaf : SimpleCondition) (hvalid : leaf.Valid)
    (hcheck : checkValue leaf = .ok ()) (ctx : WalkContext)
    (hcall : ∀ function arguments label, leaf.left = .call function arguments label →
      P (.unsupportedFunction backendName function))
    (hfield : ∀ path, leaf.value = some (.field path) →
      P (.unsupportedByBackend backendName .fieldComparison)) :
    Raises P (leafClause leaf ctx) := by
  have hshape := shape_of_checked leaf hvalid hcheck
  refine .bind (fieldOf_raises leaf.left hcall) fun field _ => ?_
  by_cases hright : ∃ path, leaf.value = some (.field path)
  · rcases hright with ⟨path, hvalue⟩
    rw [hvalue, fieldClause_field]
    exact .error (hfield path hvalue)
  · exact .total (fieldClause_ok leaf.operator leaf.value hshape
      (fun path hvalue => hright ⟨path, hvalue⟩) field ctx.negated)

/-- Parts that can be made and pass the checks have a request, unless they are hindered. -/
theorem compileParts_hindered (schema : Schema) (root : String) (parts : QueryParts)
    (hnative : parts.NativeFree) (hvalid : parts.Valid) (hchecked : parts.Checked) :
    Raises (Hindered parts schema.maxDepth) (compileParts schema root parts) := by
  have hfield : ∀ x ∈ parts.read, Raises (Hindered parts schema.maxDepth) (fieldOf x) := by
    intro x hx
    refine fieldOf_raises x ?_
    rintro function arguments label rfl
    exact .call function arguments label hx
  have hfilter := filter_hindered parts schema.maxDepth interpretation parts.filter (.inl rfl)
    hnative.filter (P := Hindered parts schema.maxDepth) .common fun leaf hleaf ctx => by
      have hmem := filter_mem_leaves parts leaf hleaf
      refine leafClause_raises leaf (hvalid.filter leaf hleaf) (hchecked.filter leaf hleaf) ctx ?_
        (.field leaf hmem)
      intro function arguments label hleft
      exact .call function arguments label
        (leaf_mem_read parts leaf hmem _ (hleft ▸ List.mem_cons_self))
  have hsort : ∀ key ∈ parts.sorts, Raises (Hindered parts schema.maxDepth) (sortEntry key) := by
    intro key hkey
    cases key with
    | native piece => exact absurd (hnative.sorts _ hkey) (by
        simp only [SortKey.isNative, reduceCtorEq, not_false_eq_true])
    | simple key =>
        exact .map _ (hfield _ (sort_mem_read parts _
          ((mem_sortExpressions parts _).mpr ⟨key, hkey, rfl⟩)))
  unfold compileParts
  dsimp only
  split
  · rename_i hgroup
    exact .refused (.groupBy hgroup)
  · rename_i hgroup
    split
    · rename_i hhaving
      exact .refused (.having hhaving)
    · refine .bind hfilter fun _ _ =>
        .bind (fun e h => .common e (projection_hindered parts _ e h)) fun projection hprojection =>
        .bind ?_ fun _ _ => .bind (.mapM hsort) fun _ _ => .ok _
      rcases projection_returned _ hnative projection hprojection with ⟨hplain, hreturned⟩
      cases projection with
      | entity => exact .ok _
      | native piece => exact absurd rfl (hplain piece)
      | items columns =>
          simp only [sourceOf]
          split
          · rename_i hdistinct
            refine .error (.distinct hdistinct ?_)
            -- Without a group-by the columns are those of the select.
            cases hselect : parts.select with
            | some _ => rfl
            | none =>
                have hnone : parts.groupBy = none := by
                  rw [Bool.not_eq_true, Option.isSome_eq_false_iff, Option.isNone_iff_eq_none]
                    at hgroup
                  exact hgroup
                rw [QueryParts.projection, hselect, hnone] at hprojection
                exact absurd (Except.ok.inj hprojection)
                  (by simp only [reduceCtorEq, not_false_eq_true])
          · refine .bind (.mapM fun column hcolumn => hfield column.2 ?_) fun _ _ => .ok _
            exact returned_mem_read parts _ (hreturned ▸ List.mem_map_of_mem hcolumn)

end Search

section Memory

variable (clock : Clock)

theorem columnEvaluators_total (columns : List (String × Expression))
    (h : ∀ x ∈ columns.map (·.2), x.valid = true) :
    ∃ evaluators, columnEvaluators clock columns = .ok evaluators := by
  rw [← errorOf?_eq_none, columnEvaluators, errorOf?_mapM, List.findSome?_eq_none_iff]
  intro column hcolumn
  rw [errorOf?_map]
  exact errorOf?_eq_none.mpr
    (Expression.evaluator_of_valid clock column.2 (h _ (List.mem_map_of_mem hcolumn)))

theorem SortPlan.ofKeys_total (keys : List SortKey) (hnative : ∀ key ∈ keys, key.isNative = false)
    (hvalid : ∀ key, .simple key ∈ keys → key.expression.valid = true) :
    ∃ plan, SortPlan.ofKeys clock keys = .ok plan := by
  have hfrom : ∀ count, ∃ plan, SortPlan.ofKeysFrom clock count keys = .ok plan := by
    induction keys with
    | nil => exact fun _ => ⟨_, rfl⟩
    | cons key rest ih =>
        intro count
        rw [List.forall_mem_cons] at hnative
        cases key with
        | native piece => exact absurd hnative.1 (by
            simp only [SortKey.isNative, reduceCtorEq, not_false_eq_true])
        | simple key =>
            rcases Expression.evaluator_of_valid clock key.expression
              (hvalid key List.mem_cons_self) with ⟨evaluator, hevaluator⟩
            rcases ih hnative.2 (fun other hother => hvalid other (List.mem_cons_of_mem _ hother))
              (count + 1) with ⟨plan, hplan⟩
            exact ⟨_, by simp only [SortPlan.ofKeysFrom, hevaluator, hplan, ok_bind]; rfl⟩
  exact hfrom 0

theorem groupRecords_total (parts : QueryParts) (hnative : parts.NativeFree)
    (hvalid : parts.Valid) (records : List Record) :
    ∃ groups, Store.groupRecords clock parts records = .ok groups := by
  unfold Store.groupRecords
  split
  · rename_i piece hgroup
    exact absurd (hnative.groupBy _ hgroup) (by
      simp only [Selection.isNative, reduceCtorEq, not_false_eq_true])
  · rename_i list hgroup
    have hkeys : ∃ keys, (list.effective.mapM fun e => e.evaluator clock) = .ok keys := by
      rw [← errorOf?_eq_none, errorOf?_mapM, List.findSome?_eq_none_iff]
      intro x hx
      exact errorOf?_eq_none.mpr
        (Expression.evaluator_of_valid clock x (hvalid.groupBy _ hgroup x hx))
    rcases hkeys with ⟨keys, hkeys⟩
    rw [hkeys]
    exact ⟨_, rfl⟩
  · split <;> exact ⟨_, rfl⟩

/-- A comparison that passes the checks has a test. -/
theorem rowTest_total (leaf : SimpleCondition) (hvalid : leaf.Valid)
    (hcheck : checkValue leaf = .ok ()) (ctx : WalkContext) :
    ∃ test, leaf.rowTest clock ctx = .ok test := by
  rcases rowTest_answers clock leaf ctx ⟨hvalid.left, shape_of_checked leaf hvalid hcheck⟩ with
    ⟨test, htest, _⟩
  exact ⟨test, htest⟩

namespace Store

/-- Why a query has no answer from a store. -/
inductive Hindered (store : Store) (q : AnyQuery) : CompileError → Prop where
  | common (e : CompileError) (h : q.effective.Hindered store.maxDepth e) : Hindered store q e
  /-- An advanced query returns columns. -/
  | whole (p : AdvancedQuery) (h : q = .advanced p) (hselect : q.effective.select = none)
    (hgroup : q.effective.groupBy = none) :
    Hindered store q (.unsupportedByBackend memoryName .projectionWithoutSelect)

variable (store : Store) (q : AnyQuery) (hnative : q.effective.NativeFree)
  (hvalid : q.effective.Valid) (hchecked : q.effective.Checked)

include hnative hvalid hchecked

theorem tests_hindered (condition : Option Condition)
    (hpart : condition = q.effective.filter ∨ condition = q.effective.having) :
    Raises (Hindered store q) ((rowInterpretation clock).filter condition store.maxDepth) := by
  refine filter_hindered q.effective store.maxDepth _ condition hpart ?_ .common ?_
  · rcases hpart with rfl | rfl
    · exact hnative.filter
    · exact hnative.having
  · intro leaf hleaf ctx
    rcases hpart with rfl | rfl
    · exact .total (rowTest_total clock leaf (hvalid.filter leaf hleaf)
        (hchecked.filter leaf hleaf) ctx)
    · exact .total (rowTest_total clock leaf (hvalid.having leaf hleaf)
        (hchecked.having leaf hleaf) ctx)

/-- The parts of a plain query that can be made and pass the checks have an answer, unless they
    are hindered. -/
theorem recordsOf_hindered : Raises (Hindered store q) (store.recordsOf clock q.effective) := by
  refine .bind (fun e h => .common e (projection_hindered _ _ e h)) fun projection hprojection =>
    .bind ?_ fun _ _ => .bind (tests_hindered clock store q hnative hvalid hchecked _ (.inl rfl))
      fun _ _ => .bind (.total (SortPlan.ofKeys_total clock _ hnative.sorts hvalid.sorts))
      fun _ _ => .ok _
  rcases projection_returned _ hnative projection hprojection with ⟨hplain, hreturned⟩
  cases projection with
  | entity => exact .ok _
  | native piece => exact absurd rfl (hplain piece)
  | items columns =>
      refine .map _ (.total (columnEvaluators_total clock columns ?_))
      exact fun x hx => hvalid.returned x (hreturned ▸ hx)

/-- So do the parts of an advanced query, which has to return columns. -/
theorem rowsOf_hindered (p : AdvancedQuery) (hq : q = .advanced p) :
    Raises (Hindered store q) (store.rowsOf clock q.effective) := by
  refine .bind (fun e h => .common e (projection_hindered _ _ e h)) fun projection hprojection =>
    .bind ?_ fun _ _ => .bind (tests_hindered clock store q hnative hvalid hchecked _ (.inl rfl))
      fun _ _ => .bind (.total (groupRecords_total clock _ hnative hvalid _))
      fun _ _ => .bind (tests_hindered clock store q hnative hvalid hchecked _ (.inr rfl))
      fun _ _ => .bind (.total (SortPlan.ofKeys_total clock _ hnative.sorts hvalid.sorts))
      fun _ _ => .ok _
  cases projection with
  | entity =>
      rcases projection_entity _ hnative hprojection with ⟨hselect, hgroup⟩
      exact .error (.whole p hq hselect hgroup)
  | native piece =>
      exact absurd rfl ((projection_returned _ hnative _ hprojection).1 piece)
  | items columns =>
      refine .total (columnEvaluators_total clock columns ?_)
      have hreturned : columns.map (·.2) = q.effective.returned :=
        (projection_returned _ hnative _ hprojection).2
      exact hreturned ▸ hvalid.returned

omit hnative hvalid hchecked in
/-- Counting records fails only if the filter is too deep. -/
theorem count_hindered (p : Query) (hnative : (AnyQuery.plain p).NativeFree)
    (hprepares : (AnyQuery.plain p).Prepares) (hvalid : (AnyQuery.plain p).effective.Valid)
    (hchecked : (AnyQuery.plain p).effective.Checked) :
    Raises ((AnyQuery.plain p).effective.Hindered store.maxDepth) (store.count clock p) := by
  rcases hprepares with ⟨prepared, hprepared⟩
  have hself := prepare_eq_self p prepared (preprocessors_nativeFree _ hnative) hprepared
  refine .bind (.total ⟨_, hprepared⟩) fun other hother => .bind ?_ fun _ _ => .ok _
  rw [Except.ok.inj (hother.symm.trans hprepared), hself]
  intro e h
  have hportable : Query.Portable { p with customizers := [] } := hnative
  rcases (rowInterpretation clock).filter_error p.filter store.maxDepth hportable.filter e h with
    ⟨c, hc, hne, hdeep, rfl⟩ | ⟨leaf, hleaf, ctx, hfails⟩
  · refine .deep c (.inl ?_) hdeep
    -- A condition that is too deep is not empty, so it is the effective filter.
    have heffective : effectiveCondition p.filter = some c := by
      simp only [effectiveCondition, hc, Option.filter, hne, Bool.not_false, if_true]
    exact heffective
  · rw [← leavesOf_effective] at hleaf
    rcases rowTest_total clock leaf (hvalid.filter leaf hleaf) (hchecked.filter leaf hleaf) ctx with
      ⟨test, htest⟩
    replace hfails : leaf.rowTest clock ctx = .error e := hfails
    rw [htest] at hfails
    exact absurd hfails (by simp only [reduceCtorEq, not_false_eq_true])

end Store

end Memory

/-- A query that can be made, holds no native piece, has no preprocessor and passes the checks
    fails only for the reasons on the list of the backend. There is no mismatch among them but
    the one of a property after a grouping, and no missing function but in a search. -/
theorem hindered_of_error (q : AnyQuery) (hmade : (Component.query q).Made) (hnative : q.NativeFree)
    (hprepares : q.Prepares) :
    (∀ schema root e,
      q.handle (Sql.compileQuery schema root) (Sql.compileAdvanced schema root) = .error e →
      Sql.Hindered schema root q.effective e) ∧
    (∀ schema root e,
      q.handle (Mongo.compileQuery schema root) (Mongo.compileAdvanced schema root) = .error e →
      Mongo.Hindered q.effective schema.maxDepth e) ∧
    (∀ schema root e,
      q.handle (Search.compileQuery schema root) (Search.compileAdvanced schema root) = .error e →
      Search.Hindered q.effective schema.maxDepth e) ∧
    (∀ (store : Store) clock e,
      q.handle (store.findAll clock) (store.findRows clock) = .error e → store.Hindered q e) ∧
    (∀ (store : Store) clock p e, q = .plain p → store.count clock p = .error e →
      q.effective.Hindered store.maxDepth e) := by
  have hparts := nativeFree_effective q hnative
  have hvalid := effective_valid q (sound_of_made _ hmade)
  have hchecked := checked_nativeFree q hnative hprepares
  refine ⟨?_, ?_, ?_, ?_, ?_⟩
  · intro schema root e h
    replace h := (handle_nativeFree (Sql.compileParts schema root) q hnative hprepares).symm.trans h
    exact Sql.compileParts_hindered schema root q.effective hparts hvalid hchecked e h
  · intro schema root e h
    replace h :=
      (handle_nativeFree (Mongo.compileParts schema root) q hnative hprepares).symm.trans h
    exact Mongo.compileParts_hindered hparts hvalid hchecked schema root e h
  · intro schema root e h
    replace h :=
      (handle_nativeFree (Search.compileParts schema root) q hnative hprepares).symm.trans h
    exact Search.compileParts_hindered schema root q.effective hparts hvalid hchecked e h
  · intro store clock e h
    cases q with
    | plain p =>
        replace h := (store.findAll_eq clock p).symm.trans h
        replace h :=
          (handle_nativeFree (store.recordsOf clock) (.plain p) hnative hprepares).symm.trans h
        exact store.recordsOf_hindered clock _ hparts hvalid hchecked e h
    | advanced p =>
        replace h := (store.findRows_eq clock p).symm.trans h
        replace h :=
          (handle_nativeFree (store.rowsOf clock) (.advanced p) hnative hprepares).symm.trans h
        exact store.rowsOf_hindered clock _ hparts hvalid hchecked p rfl e h
  · rintro store clock p e rfl h
    exact store.count_hindered clock p hnative hprepares hvalid hchecked e h

/-- The comparison of groups with a property of a related record. -/
def sampleHinderedLeaf : SimpleCondition :=
  ⟨.call .max [.expression (.property "amount" none)] none, .greaterThan,
    some (.field "customer.credit")⟩

/-- A query for groups with that comparison, and with a customizer. -/
def sampleHindered : AdvancedQuery where
  customizers := [⟨0, "Limit", .statementLimit 3⟩]
  groupBy := some (.items ⟨["region"], []⟩)
  having := some (.simple sampleHinderedLeaf)

theorem sampleHindered_made : (Component.query (.advanced sampleHindered)).Made := by
  have hcolumns : (Component.edit (.setGroupBy (.items ⟨["region"], []⟩))).Made :=
    .edit _ (List.forall_mem_singleton.mpr (.items _ (.columns ["region"] [] _
      (fun x hx => absurd hx List.not_mem_nil) rfl)))
  have hleft : (Component.expression sampleHinderedLeaf.left).Made :=
    .call .max _ _ (List.forall_mem_singleton.mpr (.argument _ (.path "amount" _ rfl))) rfl
  have hleaf : (Component.comparison sampleHinderedLeaf).Made := by
    refine .comparison _ .greaterThan (some (.field "customer.credit")) _ hleft ?_ rfl
    rintro v ⟨⟩
    exact .field "customer.credit" _ rfl
  have hhaving : (Component.edit (.setHaving (.simple sampleHinderedLeaf))).Made :=
    .edit _ (List.forall_mem_singleton.mpr (.simple _ hleaf))
  have hlimit : (Component.edit (.addCustomizer ⟨0, "Limit", .statementLimit 3⟩)).Made :=
    .edit _ fun p hp => absurd hp List.not_mem_nil
  exact .built _ _ (.changed _ _ _ (.changed _ _ _ (.changed _ _ _ .blankBuilder hcolumns rfl)
    hhaving rfl) hlimit rfl) rfl

/-- The query breaks off at a relation in SQL, at the property in Mongo, at the group-by in a
    search, and at the depth in a store that allows none. -/
theorem hindered_of_error_sample :
    Sql.Hindered .default "Order" (AnyQuery.advanced sampleHindered).effective
        (.unknownRelation "Order" "customer") ∧
      Mongo.Hindered (AnyQuery.advanced sampleHindered).effective defaultMaxDepth
        (.typeMismatch (.ungrouped "customer.credit")) ∧
      Search.Hindered (AnyQuery.advanced sampleHindered).effective defaultMaxDepth
        (.unsupportedByBackend Search.backendName .groupBy) ∧
      Store.Hindered ⟨[], 0⟩ (.advanced sampleHindered) (.depthExceeded 0) := by
  have hnative : (AnyQuery.advanced sampleHindered).NativeFree :=
    ⟨⟨by rintro c ⟨⟩, by decide, by rintro columns ⟨⟩, rfl, rfl⟩,
      by rintro columns ⟨⟩; rfl, by rintro c ⟨⟩; rfl⟩
  have hprepares : (AnyQuery.advanced sampleHindered).Prepares := ⟨_, rfl⟩
  rcases hindered_of_error (.advanced sampleHindered) sampleHindered_made hnative hprepares with
    ⟨hsql, hmongo, hsearch, hstore, _⟩
  exact ⟨hsql .default "Order" _ rfl, hmongo .default "Order" _ rfl, hsearch .default "Order" _ rfl,
    hstore ⟨[], 0⟩ ⟨"", "", ""⟩ _ rfl⟩

end Polyquery
