import Polyquery.Proofs.Backend.Functions
import Polyquery.Proofs.Condition.Faults
import Polyquery.Proofs.Mongo.Stages
import Polyquery.Proofs.Mongo.Reads

/-!
# Properties without a Value

When an expression fails to compile, and with which error. Functions never fail
on the arguments that they take, so the only thing that can go wrong in an
expression is a property that has no value in the scope. These properties are
read off the expression and the scope (`Scope.missing`), and the first one
decides the error (`ofExpression_missing`). On a document every property has a
value.

The same is true of all that is made of expressions: comparisons that pass the
checks, sort keys and columns. In a filter one more thing can go wrong, the
depth of its condition.

## Main definitions

* `Scope.missing`: The properties in an expression that have no value.
* `firstUngrouped`: The error for several properties of which one may be
  missing.

## Theorems

* `functionTable_takes`: Every function takes its arguments.
* `ofExpression_missing`: The error of an expression.
* `condition_missing`, `leafFilter_missing`: The error of a comparison.
* `filter_fault`, `filter_covers`: The error of a filter, and a filter without
  one.
* `sortStage_missing`, `projectStage_missing`: The error of a stage.
-/

namespace Polyquery.Mongo

section Tables

theorem unary_takes (operation : Operation) :
    FunctionHandler.Takes (unary operation) (.exactly 1) :=
  takes_one fun _ _ => ⟨_, rfl⟩

theorem variadic_takes (operation : Operation) (arity : Arity) :
    FunctionHandler.Takes (variadic operation) arity :=
  fun _ _ _ => ⟨_, rfl⟩

theorem fixed_takes (e : Expr) (arity : Arity) : FunctionHandler.Takes (fixed e) arity :=
  fun _ _ _ => ⟨_, rfl⟩

theorem trimming_takes (side : TrimSide) : FunctionHandler.Takes (trimming side) (.exactly 1) :=
  takes_one fun _ _ => ⟨_, rfl⟩

theorem substring_takes : FunctionHandler.Takes substring (.exactly 3) :=
  takes_three fun _ _ _ _ => ⟨_, rfl⟩

theorem location_takes : FunctionHandler.Takes location (.exactly 2) :=
  takes_two fun _ _ _ => ⟨_, rfl⟩

theorem firstPresent_takes (arity : Arity) : FunctionHandler.Takes firstPresent arity := by
  intro function arguments _
  unfold firstPresent
  split <;> exact ⟨_, rfl⟩

theorem nullWhenEqual_takes : FunctionHandler.Takes nullWhenEqual (.exactly 2) :=
  takes_two fun _ _ _ => ⟨_, rfl⟩

theorem counting_takes : FunctionHandler.Takes counting (.exactly 1) :=
  takes_one fun _ _ => ⟨_, rfl⟩

/-- Every function has a handler, and the handler takes the arguments of the function. -/
theorem functionTable_takes (function : Function) :
    ∃ handler, functionTable.handlers.lookup function = some handler ∧
      FunctionHandler.Takes handler function.arity := by
  cases function with
  | abs => exact ⟨_, rfl, unary_takes _⟩
  | sqrt => exact ⟨_, rfl, unary_takes _⟩
  | mod => exact ⟨_, rfl, variadic_takes _ _⟩
  | concat => exact ⟨_, rfl, variadic_takes _ _⟩
  | substring => exact ⟨_, rfl, substring_takes⟩
  | trim => exact ⟨_, rfl, trimming_takes _⟩
  | ltrim => exact ⟨_, rfl, trimming_takes _⟩
  | rtrim => exact ⟨_, rfl, trimming_takes _⟩
  | length => exact ⟨_, rfl, unary_takes _⟩
  | locate => exact ⟨_, rfl, location_takes⟩
  | lower => exact ⟨_, rfl, unary_takes _⟩
  | upper => exact ⟨_, rfl, unary_takes _⟩
  | currentDate => exact ⟨_, rfl, fixed_takes _ _⟩
  | currentTime => exact ⟨_, rfl, fixed_takes _ _⟩
  | currentTimestamp => exact ⟨_, rfl, fixed_takes _ _⟩
  | coalesce => exact ⟨_, rfl, firstPresent_takes _⟩
  | nullif => exact ⟨_, rfl, nullWhenEqual_takes⟩
  | count => exact ⟨_, rfl, counting_takes⟩
  | sum => exact ⟨_, rfl, unary_takes _⟩
  | avg => exact ⟨_, rfl, unary_takes _⟩
  | min => exact ⟨_, rfl, unary_takes _⟩
  | max => exact ⟨_, rfl, unary_takes _⟩

end Tables

namespace Scope

/-- A property that has no value of its own in a scope. -/
def missingProperty (scope : Scope) (path : String) : List String :=
  match scope with
  | .document => []
  | .grouped group => if group.nativeKey then [] else [path]

mutual

/-- The properties in an expression that have no value in a scope. -/
def missing (scope : Scope) : Expression → List String
  | .property path label =>
    if (scope.fieldOf? (.property path label)).isSome then [] else scope.missingProperty path
  | .call function arguments label =>
    if (scope.fieldOf? (.call function arguments label)).isSome then []
    else missingArguments scope arguments

/-- The properties in the arguments of a call that have no value in a scope. -/
def missingArguments (scope : Scope) : List Argument → List String
  | [] => []
  | .expression value :: rest => missing scope value ++ missingArguments scope rest
  | .literal _ :: rest => missingArguments scope rest

end

mutual

/-- A document has a value for every property. -/
theorem missing_document : ∀ x : Expression, Scope.document.missing x = []
  | .property _ _ => rfl
  | .call _ arguments _ => by
      simp only [missing, fieldOf?, missingArguments_document arguments]
      rfl

theorem missingArguments_document :
    ∀ arguments : List Argument, Scope.document.missingArguments arguments = []
  | [] => rfl
  | .expression value :: rest => by
      simp only [missingArguments, missing_document value, missingArguments_document rest,
        List.append_nil]
  | .literal _ :: rest => by
      simp only [missingArguments, missingArguments_document rest]

end

end Scope

/-- The error for the first one of several properties that have no value. -/
def firstUngrouped (paths : List String) : Option CompileError :=
  paths.head?.map fun path => .typeMismatch (.ungrouped path)

theorem firstUngrouped_append (paths others : List String) :
    firstUngrouped (paths ++ others) = (firstUngrouped paths).or (firstUngrouped others) := by
  cases paths <;> rfl

theorem firstUngrouped_flatMap {α : Type} (f : α → List String) (as : List α) :
    firstUngrouped (as.flatMap f) = as.findSome? fun a => firstUngrouped (f a) := by
  induction as with
  | nil => rfl
  | cons a rest ih =>
      rw [List.flatMap_cons, firstUngrouped_append, ih, List.findSome?_cons]
      cases firstUngrouped (f a) <;> rfl

theorem firstUngrouped_eq_none {paths : List String} :
    firstUngrouped paths = none ↔ paths = [] := by
  cases paths <;> simp only [firstUngrouped, List.head?_nil, List.head?_cons, Option.map_none,
    Option.map_some, reduceCtorEq]

theorem firstUngrouped_eq_some {paths : List String} {e : CompileError}
    (h : firstUngrouped paths = some e) : ∃ path ∈ paths, e = .typeMismatch (.ungrouped path) := by
  cases paths with
  | nil => exact absurd h (by simp only [firstUngrouped, List.head?_nil, Option.map_none,
      reduceCtorEq, not_false_eq_true])
  | cons path rest => exact ⟨path, List.mem_cons_self, (Option.some.inj h).symm⟩

variable (scope : Scope)

section Expressions

theorem property_missing (path : String) :
    errorOf? (scope.property path) = firstUngrouped (scope.missingProperty path) := by
  cases scope with
  | document => rfl
  | grouped group =>
      simp only [Scope.property, Scope.missingProperty]
      split <;> rfl

mutual

/-- The error of an expression is that of the first property without a value. -/
theorem ofExpression_missing :
    ∀ x : Expression, x.valid = true →
      errorOf? (ofExpression scope x) = firstUngrouped (scope.missing x)
  | .property path label, _ => by
      simp only [ofExpression, Scope.missing]
      cases hfield : scope.fieldOf? (.property path label) with
      | some field => rfl
      | none => exact property_missing scope path
  | .call function arguments label, hvalid => by
      simp only [Expression.valid, Bool.and_eq_true] at hvalid
      simp only [ofExpression, Scope.missing]
      cases hfield : scope.fieldOf? (.call function arguments label) with
      | some field => rfl
      | none =>
          simp only [Option.isSome_none, Bool.false_eq_true, if_false]
          rw [← ofArguments_missing arguments hvalid.2]
          -- The call itself takes as many arguments as there are.
          apply errorOf?_bind_total
          intro es hes
          have haccepts : function.arity.accepts es.length = true := by
            rw [length_ofArguments scope arguments es hes]
            exact hvalid.1
          exact errorOf?_eq_none.mpr (apply_of_takes functionTable_takes function es haccepts)

/-- So is the error of the arguments of a call. -/
theorem ofArguments_missing :
    ∀ arguments : List Argument, Expression.validArguments arguments = true →
      errorOf? (ofArguments scope arguments) = firstUngrouped (scope.missingArguments arguments)
  | [], _ => by
      simp only [ofArguments, Scope.missingArguments]
      rfl
  | .expression value :: rest, hvalid => by
      simp only [Expression.validArguments, Bool.and_eq_true] at hvalid
      simp only [ofArguments, Scope.missingArguments]
      rw [errorOf?_bind, firstUngrouped_append, ofExpression_missing value hvalid.1,
        ofArguments_missing rest hvalid.2]
  | .literal value :: rest, hvalid => by
      simp only [Expression.validArguments] at hvalid
      simp only [ofArguments, Scope.missingArguments]
      rw [← ofArguments_missing rest hvalid]
      exact errorOf?_bind_total _ _ fun _ _ => rfl

end

/-- On a document every expression compiles. -/
theorem ofExpression_document (x : Expression) (h : x.valid = true) :
    ∃ e, ofExpression .document x = .ok e := by
  rw [← errorOf?_eq_none, ofExpression_missing .document x h, Scope.missing_document]
  rfl

end Expressions

section Comparisons

/-- The properties in a comparison that have no value in a scope. -/
def Scope.missingSides (scope : Scope) (leaf : SimpleCondition) : List String :=
  leaf.expressions.flatMap scope.missing

theorem rightSide_missing (path : String) (h : Text.isBlank path = false) :
    errorOf? (rightSide scope (.field path)) =
      firstUngrouped (scope.missing (.property path none)) := by
  have hproperty : Expression.ofPath path = .ok (.property path none) := by
    simp only [Expression.ofPath, Expression.checkPath, h, Bool.false_eq_true, if_false]
    rfl
  have hvalid : (Expression.property path none).valid = true := by
    simp only [Expression.valid, h, Bool.not_false]
  rw [← ofExpression_missing scope _ hvalid]
  simp only [rightSide, hproperty]
  rfl

/-- The error of a comparison of expressions is that of its sides. -/
theorem condition_missing (leaf : SimpleCondition) (hvalid : leaf.Valid)
    (hcheck : checkValue leaf = .ok ()) (negated : Bool) :
    errorOf? (condition scope leaf (Polarity.of leaf.operator negated)) =
      firstUngrouped (scope.missingSides leaf) := by
  have hshape := shape_of_checked leaf hvalid hcheck
  have hleft := ofExpression_missing scope leaf.left hvalid.left
  -- Only a property on the right side can fail, too.
  have hsides : scope.missingSides leaf = scope.missing leaf.left ++
      (leaf.field?.toList.flatMap fun path => scope.missing (.property path none)) := by
    rw [Scope.missingSides, SimpleCondition.expressions, List.flatMap_cons, List.flatMap_map]
  rw [hsides, firstUngrouped_append, ← hleft]
  unfold condition
  cases hvalue : leaf.value with
  | none =>
      have hnone : leaf.field? = none := by simp only [SimpleCondition.field?, hvalue]
      rw [hnone, Option.toList_none, List.flatMap_nil]
      refine (errorOf?_bind_total _ _ fun left _ => rfl).trans (Option.or_none).symm
  | some value =>
      cases value with
      | list values =>
          have hnone : leaf.field? = none := by simp only [SimpleCondition.field?, hvalue]
          rw [hnone, Option.toList_none, List.flatMap_nil]
          refine (errorOf?_bind_total _ _ fun left _ => rfl).trans (Option.or_none).symm
      | scalar literal =>
          have hnone : leaf.field? = none := by simp only [SimpleCondition.field?, hvalue]
          rw [hnone, Option.toList_none, List.flatMap_nil]
          refine (errorOf?_bind_total _ _ fun left _ => ?_).trans (Option.or_none).symm
          rw [hvalue] at hshape
          simp only [polarity_isPattern]
          cases hshape with
          | pattern hpattern text =>
              simp only [hpattern, if_true, patternText, Literal.asString?, ok_bind]
              rfl
          | scalar hfield literal =>
              have hplain : leaf.operator.isPattern = false := by
                revert hfield
                cases leaf.operator <;> decide
              simp only [hplain, Bool.false_eq_true, if_false]
              rfl
      | field path =>
          have hfield : leaf.field? = some path := by simp only [SimpleCondition.field?, hvalue]
          have hpath := hvalid.value _ hvalue
          simp only [ConditionValue.valid, Bool.not_eq_true'] at hpath
          rw [hfield, Option.toList_some, List.flatMap_cons, List.flatMap_nil, List.append_nil,
            ← rightSide_missing scope path hpath]
          exact errorOf?_bind _ _ _

/-- A clause on a field never fails. -/
theorem clause_total (op : Operator) (value : Option ConditionValue) (hshape : Shape op value)
    (hfield : ∀ path, value ≠ some (.field path)) (negated : Bool) :
    errorOf? (clause (Polarity.of op negated) value) = none := by
  cases hshape with
  | nullTest h => cases op <;> first | exact absurd h (by decide) | (cases negated <;> rfl)
  | listTest h items => cases op <;> first | exact absurd h (by decide) | (cases negated <;> rfl)
  | pattern h text => cases op <;> first | exact absurd h (by decide) | (cases negated <;> rfl)
  | scalar h literal => cases op <;> first | exact absurd h (by decide) | (cases negated <;> rfl)
  | field h path => exact absurd rfl (hfield path)

/-- The error of a comparison is that of its sides, whatever it is compiled to. -/
theorem leafFilter_missing (leaf : SimpleCondition) (hvalid : leaf.Valid)
    (hcheck : checkValue leaf = .ok ()) (ctx : WalkContext) :
    errorOf? (leafFilter scope leaf ctx) = firstUngrouped (scope.missingSides leaf) := by
  unfold leafFilter
  cases hclause : clauseField? scope leaf with
  | none =>
      -- The comparison is an expression, which misses what its sides miss.
      simp only []
      rw [errorOf?_map, condition_missing scope leaf hvalid hcheck]
  | some path =>
      simp only []
      cases scope with
      | grouped group =>
          exact absurd hclause (by simp only [clauseField?, reduceCtorEq, not_false_eq_true])
      | document =>
          -- A clause of one field is made for documents only, where nothing is missing.
          have hfield : ∀ path, leaf.value ≠ some (.field path) := by
            intro path hvalue
            simp only [clauseField?, hvalue, reduceCtorEq] at hclause
          have hnone : Scope.document.missingSides leaf = [] := by
            rw [Scope.missingSides, List.flatMap_eq_nil_iff]
            exact fun x _ => Scope.missing_document x
          rw [errorOf?_map, clause_total _ _ (shape_of_checked leaf hvalid hcheck) hfield, hnone]
          rfl

end Comparisons

section Filters

variable (condition : Option Condition) (maxDepth : Nat)
  (hnative : ∀ c, condition = some c → c.nativeFree = true)
  (hleaves : ∀ leaf ∈ leavesOf condition, leaf.Valid ∧ checkValue leaf = .ok ())

include hnative hleaves

/-- The error of a filter comes from its depth or from a property without a value. -/
theorem filter_fault (e : CompileError)
    (h : (interpretation scope).filter condition maxDepth = .error e) :
    (∃ c, condition = some c ∧ maxDepth < c.height ∧ e = .depthExceeded maxDepth) ∨
      ∃ leaf ∈ leavesOf condition, ∃ path ∈ scope.missingSides leaf,
        e = .typeMismatch (.ungrouped path) := by
  rcases (interpretation scope).filter_error condition maxDepth hnative e h with
    ⟨c, hc, _, hdeep, he⟩ | ⟨leaf, hleaf, ctx, hfails⟩
  · exact .inl ⟨c, hc, hdeep, he⟩
  · rcases hleaves leaf hleaf with ⟨hvalid, hcheck⟩
    replace hfails : errorOf? (leafFilter scope leaf ctx) = some e := errorOf?_eq_some.mpr hfails
    rw [leafFilter_missing scope leaf hvalid hcheck] at hfails
    exact .inr ⟨leaf, hleaf, firstUngrouped_eq_some hfails⟩

/-- In a filter without an error every property has a value. -/
theorem filter_covers (f : Option Filter)
    (h : (interpretation scope).filter condition maxDepth = .ok f) :
    ∀ leaf ∈ leavesOf condition, scope.missingSides leaf = [] := by
  intro leaf hleaf
  cases hcondition : condition with
  | none =>
      rw [hcondition] at hleaf
      exact absurd hleaf List.not_mem_nil
  | some c =>
      rw [hcondition] at h hleaf hleaves
      simp only [Interpretation.filter] at h
      split at h
      · -- An empty condition has no comparisons.
        rename_i hempty
        rw [leavesOf_some, leaves_of_empty c hempty] at hleaf
        exact absurd hleaf List.not_mem_nil
      · -- The condition is compiled without a fault, so each visited comparison is as well.
        rcases map_eq_ok.mp h with ⟨g, hg, _⟩
        have hfaultless := (Interpretation.condition_ok_iff _ c (.root maxDepth)).mp ⟨g, hg⟩
        rw [leavesOf_some, ← visits_leaves c false 0, List.mem_filterMap] at hleaf
        rcases hleaf with ⟨visit, hvisit, hfound⟩
        have hplain := visits_nativeFree c false 0 (hnative c hcondition) visit hvisit
        rcases ((Interpretation.fault_eq_none_iff _ maxDepth visit hplain).mp
          (hfaultless visit hvisit)).2 leaf hfound with ⟨compiled, hcompiled⟩
        have hmem : leaf ∈ leavesOf (some c) := by
          rw [leavesOf_some, ← visits_leaves c false 0, List.mem_filterMap]
          exact ⟨visit, hvisit, hfound⟩
        rcases hleaves leaf hmem with ⟨hvalid, hcheck⟩
        rw [← firstUngrouped_eq_none, ← leafFilter_missing scope leaf hvalid hcheck]
        exact errorOf?_eq_none.mpr ⟨compiled, hcompiled⟩

end Filters

section Stages

/-- The error of sort keys. -/
theorem sortStage_missing (keys : List SortKey)
    (hportable : ∀ key ∈ keys, key.isNative = false)
    (hvalid : ∀ key, .simple key ∈ keys → key.expression.valid = true) :
    errorOf? (sortStage scope keys) =
      firstUngrouped ((keys.flatMap SortKey.expressions).flatMap scope.missing) := by
  -- What was collected before does not matter for what is missing.
  have hfrom : ∀ (keys : List SortKey) (index : Nat) (before : SortStage),
      (∀ key ∈ keys, key.isNative = false) →
      (∀ key, .simple key ∈ keys → key.expression.valid = true) →
      errorOf? (sortStageFrom scope index before keys) =
        firstUngrouped ((keys.flatMap SortKey.expressions).flatMap scope.missing) := by
    intro keys
    induction keys with
    | nil => exact fun index before _ _ => rfl
    | cons key rest ih =>
        intro index before hportable hvalid
        rw [List.forall_mem_cons] at hportable
        cases key with
        | native piece => exact absurd hportable.1 (by
            simp only [SortKey.isNative, reduceCtorEq, not_false_eq_true])
        | simple key =>
            rw [List.flatMap_cons, List.flatMap_append, firstUngrouped_append]
            simp only [sortStageFrom, SortKey.expressions, List.flatMap_cons, List.flatMap_nil,
              List.append_nil]
            rw [← ofExpression_missing scope key.expression (hvalid key List.mem_cons_self)]
            cases ofExpression scope key.expression with
            | error e => rfl
            | ok value =>
                exact ih _ _ hportable.2 fun key hkey => hvalid key (List.mem_cons_of_mem _ hkey)
  exact hfrom keys 0 _ hportable hvalid

/-- The error of columns. -/
theorem projectStage_missing (computed : List (String × Expr))
    (columns : List (String × Expression))
    (hvalid : ∀ x ∈ columns.map (·.2), x.valid = true) :
    errorOf? (projectStage scope computed (.items columns)) =
      firstUngrouped ((columns.map (·.2)).flatMap scope.missing) := by
  rw [firstUngrouped_flatMap, List.findSome?_map]
  refine (errorOf?_bind_total _ _ fun fields _ => rfl).trans ?_
  rw [errorOf?_mapM]
  induction columns with
  | nil => rfl
  | cons column rest ih =>
      rw [List.map_cons, List.forall_mem_cons] at hvalid
      rw [List.findSome?_cons, List.findSome?_cons, ih hvalid.2]
      simp only [errorOf?_map, Function.comp, ofExpression_missing scope column.2 hvalid.1]

end Stages

end Polyquery.Mongo
