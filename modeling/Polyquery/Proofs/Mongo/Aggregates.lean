import Polyquery.Proofs.Backend.Functions
import Polyquery.Proofs.Expression.Text
import Polyquery.Proofs.Mongo.Reads
import Polyquery.Proofs.Mongo.Stages

/-!
# Aggregates in Documents

An aggregate is computed where documents are grouped, and nowhere else does
Mongo take one for what a query means by it. Whether a document applies an
aggregate is read off its member names. An expression without aggregates has
none in its document, whatever fields stand for its parts.

After the grouping an expression with aggregates is compiled, too. `Replaced`
says what has to be made of it: each outermost aggregate call has turned into
the field of its accumulator, and what stands above these calls is built again
around the fields. No aggregate is left then (`Replaced.plain`).

## Main definitions

* `aggregates`, `Expr.aggregates`: Whether an aggregate is applied.
* `Accumulates`: What an accumulated value stands for.
* `Replaced`: An expression after the grouping.

## Theorems

* `functionTable_plain`, `ofExpression_plain`: Expressions without aggregates.
* `Replaced.plain`: Expressions after the grouping.
* `condition_plain`: Comparisons.
-/

namespace Polyquery.Mongo

/-- The operators of aggregates. -/
def Operation.isAggregate : Operation → Bool
  | .sum | .average | .least | .greatest => true
  | _ => false

/-- The names of the operators of aggregates. -/
def aggregateNames : List String :=
  [Operation.sum, .average, .least, .greatest].map Operation.name

mutual

/-- Whether an aggregate is applied in a document. -/
def aggregates : Json → Bool
  | .array items => itemsAggregate items
  | .object members => membersAggregate members
  | _ => false

/-- Whether an aggregate is applied in one of several documents. -/
def itemsAggregate : List Json → Bool
  | [] => false
  | item :: rest => aggregates item || itemsAggregate rest

/-- Whether an aggregate is applied in the members of a document. -/
def membersAggregate : List (String × Json) → Bool
  | [] => false
  | (key, value) :: rest =>
    aggregateNames.contains key || aggregates value || membersAggregate rest

end

/-- Whether an aggregate is applied in an expression. -/
def Expr.aggregates (e : Expr) : Bool :=
  Mongo.aggregates e.toJson

section Nodes

theorem aggregates_single (key : String) (value : Json) :
    aggregates (single key value) = (aggregateNames.contains key || aggregates value) := by
  simp only [single, aggregates, membersAggregate, Bool.or_false]

theorem aggregates_ofFloat (x : Float) : aggregates (.ofFloat x) = false := by
  unfold Json.ofFloat
  split <;> rfl

theorem aggregates_literal (literal : Literal) : aggregates literal.toJson = false := by
  cases literal with
  | float x => exact aggregates_ofFloat x
  | string s => rfl
  | integer n => rfl
  | boolean b => rfl

theorem aggregates_field (path : String) : (Expr.field path).aggregates = false := rfl

theorem aggregates_constant (literal : Literal) : (Expr.constant literal).aggregates = false := by
  unfold Expr.aggregates
  simp only [Expr.toJson]
  cases literal with
  | string s =>
      unfold constantJson
      simp only []
      split
      · have hname : aggregateNames.contains "$literal" = false := by decide
        rw [aggregates_single, hname]
        rfl
      · rfl
  | float x => exact aggregates_ofFloat x
  | integer n => rfl
  | boolean b => rfl

theorem itemsAggregate_toJsons (es : List Expr) :
    itemsAggregate (Expr.toJsons es) = es.any Expr.aggregates := by
  induction es with
  | nil => rfl
  | cons e rest ih =>
      simp only [Expr.toJsons, itemsAggregate, ih, List.any_cons, Expr.aggregates]

/-- An operator applies an aggregate if it is one itself. -/
theorem contains_name (operation : Operation) :
    aggregateNames.contains operation.name = operation.isAggregate := by
  cases operation <;> decide

theorem aggregates_unary (operation : Operation) (a : Expr) :
    (Expr.unary operation a).aggregates = (operation.isAggregate || a.aggregates) := by
  simp only [Expr.aggregates, Expr.toJson, aggregates_single, contains_name]

theorem aggregates_apply (operation : Operation) (arguments : List Expr) :
    (Expr.apply operation arguments).aggregates =
      (operation.isAggregate || arguments.any Expr.aggregates) := by
  simp only [Expr.aggregates, Expr.toJson, aggregates_single, contains_name, aggregates,
    itemsAggregate_toJsons]

theorem aggregates_trim (side : TrimSide) (text : Expr) :
    (Expr.trim side text).aggregates = text.aggregates := by
  have hside : aggregateNames.contains side.name = false := by
    cases side <;> decide
  have hinput : aggregateNames.contains "input" = false := by decide
  simp only [Expr.aggregates, Expr.toJson, aggregates_single, hside, hinput, Bool.false_or]

theorem aggregates_compare (comparison : Comparison) (left right : Expr) :
    (Expr.compare comparison left right).aggregates = (left.aggregates || right.aggregates) := by
  have hname : aggregateNames.contains comparison.name = false := by
    cases comparison <;> decide
  simp only [Expr.aggregates, Expr.toJson, aggregates_single, hname, Bool.false_or, aggregates,
    itemsAggregate, Bool.or_false]

theorem aggregates_isIn (left : Expr) (values : List Literal) :
    (Expr.isIn left values).aggregates = left.aggregates := by
  have hvalues : aggregates (literalArray values) = false := by
    simp only [literalArray, aggregates]
    induction values with
    | nil => rfl
    | cons value rest ih =>
        simp only [List.map_cons, itemsAggregate, aggregates_literal, ih, Bool.or_false]
  have hname : aggregateNames.contains "$in" = false := by decide
  simp only [Expr.aggregates, Expr.toJson, aggregates_single, hname, Bool.false_or, aggregates,
    itemsAggregate, hvalues, Bool.or_false]

theorem aggregates_regexMatch (text : Expr) (pattern : String) :
    (Expr.regexMatch text pattern).aggregates = text.aggregates := by
  have hname : aggregateNames.contains "$regexMatch" = false := by decide
  have hinput : aggregateNames.contains "input" = false := by decide
  have hregex : aggregateNames.contains "regex" = false := by decide
  have hoptions : aggregateNames.contains "options" = false := by decide
  simp only [Expr.aggregates, Expr.toJson, aggregates_single, hname, hinput, hregex, hoptions,
    Bool.false_or, aggregates, membersAggregate, Bool.or_false]

theorem aggregates_and (operands : List Expr) :
    (Expr.and operands).aggregates = operands.any Expr.aggregates := by
  have hname : aggregateNames.contains "$and" = false := by decide
  simp only [Expr.aggregates, Expr.toJson, aggregates_single, hname, Bool.false_or, aggregates,
    itemsAggregate_toJsons]

theorem aggregates_not (operand : Expr) : (Expr.not operand).aggregates = operand.aggregates := by
  have hname : aggregateNames.contains "$not" = false := by decide
  simp only [Expr.aggregates, Expr.toJson, notJson, aggregates_single, hname, Bool.false_or,
    aggregates, itemsAggregate, Bool.or_false]

theorem aggregates_present (e : Expr) : (present e).aggregates = e.aggregates := by
  rw [present, aggregates_compare]
  exact Bool.or_false _

theorem aggregates_number (n : Int) : (number n).aggregates = false :=
  aggregates_constant _

end Nodes

/-- An expression in which no aggregate is applied. -/
def Plain (e : Expr) : Prop :=
  e.aggregates = false

instance (e : Expr) : Decidable (Plain e) :=
  inferInstanceAs (Decidable (_ = _))

section Calls

theorem unary_plain (operation : Operation) (h : operation.isAggregate = false) :
    FunctionHandler.Keeps (unary operation) Plain := by
  intro function arguments e harguments hcompiled
  rcases bind_eq_ok.mp hcompiled with ⟨a, ha, hcompiled⟩
  rw [one_eq_ok.mp ha, List.forall_mem_singleton] at harguments
  rw [← Except.ok.inj hcompiled, Plain, aggregates_unary, h, harguments]
  rfl

theorem any_plain (arguments : List Expr) (h : ∀ a ∈ arguments, Plain a) :
    arguments.any Expr.aggregates = false :=
  List.any_eq_false.mpr fun a ha => by rw [h a ha]; exact Bool.false_ne_true

theorem variadic_plain (operation : Operation) (h : operation.isAggregate = false) :
    FunctionHandler.Keeps (variadic operation) Plain := by
  intro function arguments e harguments hcompiled
  rw [← Except.ok.inj hcompiled, Plain, aggregates_apply, h, any_plain arguments harguments]
  rfl

theorem trimming_plain (side : TrimSide) : FunctionHandler.Keeps (trimming side) Plain := by
  intro function arguments e harguments hcompiled
  rcases bind_eq_ok.mp hcompiled with ⟨a, ha, hcompiled⟩
  rw [one_eq_ok.mp ha, List.forall_mem_singleton] at harguments
  rw [← Except.ok.inj hcompiled, Plain, aggregates_trim]
  exact harguments

theorem substring_plain : FunctionHandler.Keeps substring Plain := by
  intro function arguments e harguments hcompiled
  rcases bind_eq_ok.mp hcompiled with ⟨⟨text, start, length⟩, hthree, hcompiled⟩
  rw [three_eq_ok.mp hthree] at harguments
  simp only [List.forall_mem_cons, Plain] at harguments
  rw [← Except.ok.inj hcompiled, Plain]
  simp only [aggregates_apply, aggregates_number, List.any_cons, List.any_nil, harguments.1,
    harguments.2.1, harguments.2.2.1, Operation.isAggregate, Bool.or_false]

theorem location_plain : FunctionHandler.Keeps location Plain := by
  intro function arguments e harguments hcompiled
  rcases bind_eq_ok.mp hcompiled with ⟨⟨needle, hay⟩, htwo, hcompiled⟩
  rw [two_eq_ok.mp htwo] at harguments
  simp only [List.forall_mem_cons, Plain] at harguments
  rw [← Except.ok.inj hcompiled, Plain]
  simp only [aggregates_apply, aggregates_number, List.any_cons, List.any_nil, harguments.1,
    harguments.2.1, Operation.isAggregate, Bool.or_false]

theorem firstPresent_plain : FunctionHandler.Keeps firstPresent Plain := by
  intro function arguments e harguments hcompiled
  unfold firstPresent at hcompiled
  split at hcompiled
  · rw [← Except.ok.inj hcompiled]
    exact harguments _ List.mem_cons_self
  · rw [← Except.ok.inj hcompiled, Plain, aggregates_apply, any_plain _ harguments]
    rfl

theorem nullWhenEqual_plain : FunctionHandler.Keeps nullWhenEqual Plain := by
  intro function arguments e harguments hcompiled
  rcases bind_eq_ok.mp hcompiled with ⟨⟨first, second⟩, htwo, hcompiled⟩
  rw [two_eq_ok.mp htwo] at harguments
  simp only [List.forall_mem_cons, Plain] at harguments
  rw [← Except.ok.inj hcompiled, Plain, aggregates_apply]
  simp only [List.any_cons, List.any_nil, aggregates_compare, harguments.1, harguments.2.1]
  rfl

/-- A function that is no aggregate applies none. -/
theorem functionTable_plain (function : Function) (h : function.isAggregate = false)
    (arguments : List Expr) (e : Expr) (harguments : ∀ a ∈ arguments, Plain a)
    (hcompiled : functionTable.apply function arguments = .ok e) : Plain e := by
  cases function with
  | abs => exact unary_plain .abs rfl .abs arguments e harguments hcompiled
  | sqrt => exact unary_plain .sqrt rfl .sqrt arguments e harguments hcompiled
  | mod => exact variadic_plain .mod rfl .mod arguments e harguments hcompiled
  | concat => exact variadic_plain .concat rfl .concat arguments e harguments hcompiled
  | substring => exact substring_plain .substring arguments e harguments hcompiled
  | trim => exact trimming_plain .both .trim arguments e harguments hcompiled
  | ltrim => exact trimming_plain .left .ltrim arguments e harguments hcompiled
  | rtrim => exact trimming_plain .right .rtrim arguments e harguments hcompiled
  | length => exact unary_plain .length rfl .length arguments e harguments hcompiled
  | locate => exact location_plain .locate arguments e harguments hcompiled
  | lower => exact unary_plain .lower rfl .lower arguments e harguments hcompiled
  | upper => exact unary_plain .upper rfl .upper arguments e harguments hcompiled
  | currentDate =>
      rw [← Except.ok.inj hcompiled]
      decide
  | currentTime =>
      rw [← Except.ok.inj hcompiled]
      decide
  | currentTimestamp =>
      rw [← Except.ok.inj hcompiled]
      decide
  | coalesce => exact firstPresent_plain .coalesce arguments e harguments hcompiled
  | nullif => exact nullWhenEqual_plain .nullif arguments e harguments hcompiled
  | count => exact absurd h (by decide)
  | sum => exact absurd h (by decide)
  | avg => exact absurd h (by decide)
  | min => exact absurd h (by decide)
  | max => exact absurd h (by decide)

end Calls

section Expressions

variable (scope : Scope)

theorem property_plain (path : String) (e : Expr) (h : scope.property path = .ok e) : Plain e := by
  rcases property_field scope path e h with ⟨field, rfl⟩
  exact aggregates_field field

mutual

/-- An expression without aggregates applies none in any scope. -/
theorem ofExpression_plain :
    ∀ (x : Expression) (e : Expr), x.aggregate? = none → ofExpression scope x = .ok e → Plain e
  | .property path label, e, _, h => by
      simp only [ofExpression] at h
      split at h
      · rw [← Except.ok.inj h]
        exact aggregates_field _
      · exact property_plain scope path e h
  | .call function arguments label, e, hnone, h => by
      simp only [Expression.aggregate?] at hnone
      simp only [ofExpression] at h
      split at h
      · rw [← Except.ok.inj h]
        exact aggregates_field _
      · rcases bind_eq_ok.mp h with ⟨es, hes, happly⟩
        split at hnone
        · exact absurd hnone (by simp only [reduceCtorEq, not_false_eq_true])
        · rename_i hother
          exact functionTable_plain function (Bool.not_eq_true _ ▸ hother) es e
            (ofArguments_plain arguments es hnone hes) happly

/-- Nor do the arguments of a call. -/
theorem ofArguments_plain :
    ∀ (arguments : List Argument) (es : List Expr),
      Expression.argumentAggregate? arguments = none → ofArguments scope arguments = .ok es →
      ∀ e ∈ es, Plain e
  | [], es, _, h => by
      simp only [ofArguments] at h
      rw [← Except.ok.inj h]
      exact fun e he => absurd he List.not_mem_nil
  | .expression value :: rest, es, hnone, h => by
      simp only [Expression.argumentAggregate?] at hnone
      simp only [ofArguments] at h
      rcases bind_eq_ok.mp h with ⟨first, hfirst, h⟩
      rcases bind_eq_ok.mp h with ⟨others, hothers, h⟩
      rw [← Except.ok.inj h, List.forall_mem_cons]
      cases hvalue : value.aggregate? with
      | some function =>
          -- The first argument would aggregate, and with it the whole list.
          rw [hvalue] at hnone
          exact absurd hnone (by simp only [reduceCtorEq, not_false_eq_true])
      | none =>
          rw [hvalue] at hnone
          exact ⟨ofExpression_plain value first hvalue hfirst,
            ofArguments_plain rest others hnone hothers⟩
  | .literal value :: rest, es, hnone, h => by
      simp only [Expression.argumentAggregate?] at hnone
      simp only [ofArguments] at h
      rcases bind_eq_ok.mp h with ⟨others, hothers, h⟩
      rw [← Except.ok.inj h, List.forall_mem_cons]
      exact ⟨aggregates_constant value, ofArguments_plain rest others hnone hothers⟩

end

theorem negateIf_plain (negated : Bool) (e : Expr) (h : Plain e) : Plain (negateIf negated e) := by
  unfold negateIf
  split
  · rw [Plain, aggregates_not]
    exact h
  · exact h

theorem guarded_plain (polarity : Polarity) (left right : Expr) (hleft : Plain left)
    (hright : Plain right) : Plain (guardedComparison polarity left right) := by
  have hcompare : ∀ comparison, (Expr.compare comparison left right).aggregates = false := by
    intro comparison
    rw [aggregates_compare, hleft, hright]
    rfl
  have hnegated : ∀ comparison, (negateIf polarity.wrapped
      (.compare comparison left right)).aggregates = false :=
    fun comparison => negateIf_plain _ _ (hcompare comparison)
  have hleft : left.aggregates = false := hleft
  have hright : right.aggregates = false := hright
  unfold guardedComparison
  split <;>
    simp only [Plain, aggregates_not, aggregates_and, aggregates_present, List.any_cons,
      List.any_nil, hcompare, hnegated, hleft, hright, Bool.or_false]

/-- A comparison applies no aggregate beyond those of its left side. -/
theorem condition_plain (leaf : SimpleCondition) (polarity : Polarity) (e : Expr)
    (hleft : ∀ left, ofExpression scope leaf.left = .ok left → Plain left)
    (h : condition scope leaf polarity = .ok e) : Plain e := by
  unfold condition at h
  rcases bind_eq_ok.mp h with ⟨left, hcompiled, h⟩
  have hplain : left.aggregates = false := hleft left hcompiled
  cases hform : leaf.value with
  | none =>
      -- A test for null adds no call of its own.
      rw [hform] at h
      rw [← Except.ok.inj h]
      split
      · rw [Plain, aggregates_compare, hplain]
        rfl
      · rw [Plain, aggregates_present, hplain]
  | some value =>
      rw [hform] at h
      cases value with
      | list values =>
          rw [← Except.ok.inj h]
          split <;>
            simp only [Plain, aggregates_and, aggregates_not, aggregates_present, aggregates_isIn,
              List.any_cons, List.any_nil, hplain, Bool.or_false]
      | scalar literal =>
          simp only [] at h
          split at h
          · -- A pattern is matched against the left side only.
            rcases bind_eq_ok.mp h with ⟨text, _, h⟩
            have hfound := negateIf_plain polarity.wrapped
              (.regexMatch left (regexPattern polarity.operator text))
              ((aggregates_regexMatch left _).trans hplain)
            rw [Plain] at hfound
            rw [← Except.ok.inj h]
            simp only [Plain, aggregates_and, aggregates_present, List.any_cons, List.any_nil,
              hplain, hfound, Bool.or_false]
          · rw [← Except.ok.inj h]
            exact guarded_plain polarity left _ hplain (aggregates_constant literal)
      | field path =>
          -- The other side is a property, and no property aggregates.
          rcases bind_eq_ok.mp h with ⟨right, hright, h⟩
          rcases bind_eq_ok.mp hright with ⟨property, hproperty, hright⟩
          rw [mapError_eq_ok] at hproperty
          rcases map_eq_ok.mp hproperty with ⟨checked, _, hproperty⟩
          rw [← hproperty] at hright
          rw [← Except.ok.inj h]
          exact guarded_plain polarity left right hplain
            (ofExpression_plain scope (.property checked none) right rfl hright)

end Expressions

/-- An accumulated value stands for an expression: a call with its expression string has been
    compiled to it on a document. -/
def Accumulates (values : List (String × Expr)) (index : Nat) (x : Expression) : Prop :=
  ∃ call value, call.text = x.text ∧ ofExpression .document call = .ok value ∧
    values[index]? = some (valueName index, value)

mutual

/-- What is made of an expression after the grouping, with the accumulators of the groups. -/
inductive Replaced (group : GroupScope) (values : List (String × Expr)) :
    Expression → Expr → Prop where
  /-- Without an aggregate there is nothing to replace. -/
  | free (x : Expression) (e : Expr) (hfree : x.aggregate? = none)
    (h : ofExpression (.grouped group) x = .ok e) : Replaced group values x e
  /-- An aggregate call is the field of an accumulator that stands for it. -/
  | accumulated (x : Expression) (haggregate : x.isAggregateCall = true) (index : Nat)
    (h : Accumulates values index x) : Replaced group values x (.field (valueName index))
  /-- A call above aggregate calls is built again. -/
  | rebuilt (function : Function) (hfunction : function.isAggregate = false)
    (arguments : List Argument) (label : Option String) (es : List Expr) (e : Expr)
    (hes : ReplacedAll group values arguments es) (h : functionTable.apply function es = .ok e) :
    Replaced group values (.call function arguments label) e

/-- What is made of the arguments of a call. -/
inductive ReplacedAll (group : GroupScope) (values : List (String × Expr)) :
    List Argument → List Expr → Prop where
  | nil : ReplacedAll group values [] []
  | expression (x : Expression) (e : Expr) (rest : List Argument) (es : List Expr)
    (h : Replaced group values x e) (hes : ReplacedAll group values rest es) :
    ReplacedAll group values (.expression x :: rest) (e :: es)
  | literal (value : Literal) (rest : List Argument) (es : List Expr)
    (hes : ReplacedAll group values rest es) :
    ReplacedAll group values (.literal value :: rest) (.constant value :: es)

end

section Replacing

variable {group : GroupScope} {values : List (String × Expr)}

mutual

/-- After the grouping no aggregate is applied again. -/
theorem Replaced.plain {x : Expression} {e : Expr} : Replaced group values x e → Plain e
  | .free x e hfree h => ofExpression_plain _ x e hfree h
  | .accumulated _ _ _ _ => aggregates_field _
  | .rebuilt function hfunction _ _ es e hes h =>
    functionTable_plain function hfunction es e hes.plain h

theorem ReplacedAll.plain {arguments : List Argument} {es : List Expr} :
    ReplacedAll group values arguments es → ∀ e ∈ es, Plain e
  | .nil => fun _ he => absurd he List.not_mem_nil
  | .expression _ _ _ _ h hes => List.forall_mem_cons.mpr ⟨h.plain, hes.plain⟩
  | .literal value _ _ hes => List.forall_mem_cons.mpr ⟨aggregates_constant value, hes.plain⟩

end

end Replacing

end Polyquery.Mongo
