import Polyquery.Proofs.Mongo.Positions
import Polyquery.Proofs.Mongo.Reads

/-!
# Literals in Commands

A constant of a query is data, and Mongo should not read it as anything else.
In an expression it is read as a reference when it is a text that starts with a
dollar sign, and as a choice of columns when it is a number or a truth value
that stands by itself in a projection.

Every place of a command where an expression is read is looked at. What stands
there comes from one part of the query, and it brings what that part brings and
nothing else (`Brings`). So a reference has one of the origins of `Named`: it is
a path, the clock, a field of a group or the whole document. There are two more
that are no references of the query, the items of a list and the end of the
empty text, for these are written as they are. A number or truth value by
itself is the only argument of a function that returns its only argument.

## Main definitions

* `Brings`, `Explained`: What a part of a query brings to a command.
* `Named`: The references that a command may hold.
* `LiteralsMarked`: What is known of the literals in a command.

## Theorems

* `Source.explained`: What an expression of a command brings.
* `origin_brings`: Where the references of a command come from.
* `ofExpression_flag`, `projectStage_flag`: Expressions and columns that are a
  number or a truth value.
* `literals_marked`: Commands.
-/

namespace Polyquery

/-- The constant that a call returns because it is its only argument. -/
def Expression.coalesced? : Expression → Option Literal
  | .call .coalesce [.literal value] _ => some value
  | .call .coalesce [.expression value] _ => value.coalesced?
  | _ => none

/-- Whether a value by itself in a projection says if a column is kept. -/
def Json.isFlag : Json → Bool
  | .bool _ => true
  | .number _ => true
  | _ => false

namespace Mongo

/-- What a part of a query brings to a command, with the scope of the later stages. -/
inductive Brings (parts : QueryParts) (later : Scope) : List Mark → Prop where
  | filter (leaf : SimpleCondition) (h : leaf ∈ leavesOf parts.filter) :
    Brings parts later (Scope.document.leafMarks leaf)
  | key (x : Expression) (h : x ∈ parts.keys) : Brings parts later (Scope.document.marks x)
  | accumulator (x : Expression) (h : x ∈ parts.calls) :
    Brings parts later (Scope.document.marks x)
  | having (leaf : SimpleCondition) (h : leaf ∈ leavesOf parts.having) :
    Brings parts later (later.leafMarks leaf)
  | column (x : Expression) (h : x ∈ parts.returned) : Brings parts later (later.marks x)
  | sort (key : SimpleSort) (h : .simple key ∈ parts.sorts) :
    Brings parts later (later.marks key.expression)
  /-- Equal rows are found by grouping whole documents. -/
  | distinct (h : parts.distinct = true) : Brings parts later [.reference "$$ROOT"]

/-- An expression brings what some part of the query brings, and nothing else. -/
def Explained (parts : QueryParts) (later : Scope) (j : Json) : Prop :=
  ∃ brought, Brings parts later brought ∧ ∀ m, m ∈ marks j ↔ m ∈ brought

section Parts

variable {parts : QueryParts} {later : Scope} (hvalid : parts.Valid) {j : Json}

include hvalid

theorem After.explained (h : After parts later j) : Explained parts later j := by
  cases h with
  | having leaf h negated e hcompiled =>
      exact ⟨_, .having leaf h, condition_marks later leaf negated e (hvalid.having leaf h).left
        (hvalid.having leaf h).value hcompiled⟩
  | projected x h e hcompiled =>
      rcases h with hreturned | hsort
      · exact ⟨_, .column x hreturned,
          ofExpression_marks later x e (hvalid.returned x hreturned) hcompiled⟩
      · rcases (mem_sortExpressions parts x).mp hsort with ⟨key, hkey, rfl⟩
        exact ⟨_, .sort key hkey,
          ofExpression_marks later key.expression e (hvalid.sorts key hkey) hcompiled⟩

/-- An expression of a command brings what the part brings that it comes from. -/
theorem Source.explained (h : Source parts later j) : Explained parts later j := by
  cases h with
  | filter leaf h negated e hcompiled =>
      exact ⟨_, .filter leaf h, condition_marks .document leaf negated e (hvalid.filter leaf h).left
        (hvalid.filter leaf h).value hcompiled⟩
  | key x h e hcompiled =>
      exact ⟨_, .key x h, ofExpression_marks .document x e (hvalid.keys x h) hcompiled⟩
  | accumulator x h e hcompiled =>
      exact ⟨_, .accumulator x h, ofExpression_marks .document x e (hvalid.calls x h) hcompiled⟩
  | after j h => exact h.explained hvalid
  | distinct h => exact ⟨_, .distinct h, fun m => Iff.rfl⟩

end Parts

section Origins

variable (parts : QueryParts)

/-- The references that a command may hold. The last two are constants of the query. -/
inductive Named (later : Scope) : String → Prop where
  | path (x : Expression) (hx : x ∈ parts.read) (path : String) (h : path ∈ x.paths) :
    Named later ("$" ++ path)
  | clock : Named later "$$NOW"
  /-- A field of a group, which stands for an expression. -/
  | field (x : Expression) (field : String) (h : later.fieldOf? x = some field) :
    Named later ("$" ++ field)
  /-- The whole document, where equal rows are dropped. -/
  | document (h : parts.distinct = true) : Named later "$$ROOT"
  /-- An item of a list, which is written as it is. -/
  | item (leaf : SimpleCondition) (hleaf : leaf ∈ parts.leaves) (values : List Literal)
    (hvalues : leaf.value = some (.list values)) (s : String) (h : .string s ∈ values) :
    Named later s
  /-- The end of the empty text as a regular expression. -/
  | emptyEnd (leaf : SimpleCondition) (hleaf : leaf ∈ parts.leaves)
    (hop : leaf.operator = .endsWith) (h : leaf.value = some (.scalar (.string ""))) :
    Named later "$"

/-- What is known of a reference and of a text under the mark of literals. -/
def Origin (later : Scope) : Mark → Prop
  | .reference text => Named parts later text
  | .quoted text => .string text ∈ parts.literals ∧ Signed text

/-- What the paths, the clock and the constants of a part of an expression bring. -/
theorem origin_from (later : Scope) (x y : Expression) (hy : y ∈ parts.read)
    (hpart : Expression.PartOf x y) (paths : List String) (hpaths : paths ⊆ x.paths) (m : Mark)
    (h : BringsFrom paths x.readsClock x.literals m) : Origin parts later m := by
  rcases h with ⟨path, hpath, hm⟩ | ⟨_, hm⟩ | ⟨s, hs, hsigned, hm⟩
  · rw [hm]
    exact .path y hy path (hpart.paths (hpaths hpath))
  · rw [hm]
    exact .clock
  · rw [hm]
    refine ⟨?_, hsigned⟩
    exact List.mem_append_left _ (List.mem_flatMap.mpr ⟨y, hy, hpart.literals hs⟩)

variable {parts} in
/-- What an expression brings on a document or after the grouping. -/
theorem origin_marks (later scope : Scope) (hscope : scope = .document ∨ scope = later)
    (hlater : ∀ group, later = .grouped group → group.nativeKey = false)
    (x y : Expression) (hy : y ∈ parts.read) (hpart : Expression.PartOf x y) (m : Mark)
    (h : m ∈ scope.marks x) : Origin parts later m := by
  cases scope with
  | document =>
      exact origin_from parts later x y hy hpart x.paths (List.Subset.refl _) m
        ((marks_document x m).mp h)
  | grouped group =>
      rcases hscope with hnone | heq
      · exact absurd hnone (by simp only [reduceCtorEq, not_false_eq_true])
      · rcases marks_grouped group (hlater group heq.symm) x m h with
          ⟨text, field, hlookup, hm⟩ | hbrings
        · rw [hm]
          refine .field (.property text none) field ?_
          rw [← heq]
          exact hlookup
        · exact origin_from parts later x y hy hpart [] (List.nil_subset _) m hbrings

/-- What a comparison brings. -/
theorem origin_leafMarks (later scope : Scope) (hscope : scope = .document ∨ scope = later)
    (hlater : ∀ group, later = .grouped group → group.nativeKey = false)
    (leaf : SimpleCondition) (hleaf : leaf ∈ parts.leaves) (m : Mark)
    (h : m ∈ scope.leafMarks leaf) : Origin parts later m := by
  rcases leafMarks_cases scope leaf m h with
    ⟨x, hx, hm⟩ | ⟨s, hs, hsigned, hm⟩ | ⟨s, hs, hm, _⟩ | ⟨hop, hvalue, hm⟩
  · exact origin_marks later scope hscope hlater x x (leaf_mem_read parts leaf hleaf x hx) .self
      m hm
  · rw [hm]
    exact ⟨List.mem_append_right _ (List.mem_flatMap.mpr ⟨leaf, hleaf, hs⟩), hsigned⟩
  · rw [hm]
    unfold SimpleCondition.items at hs
    split at hs
    · rename_i values hvalues
      exact .item leaf hleaf values hvalues s hs
    · exact absurd hs List.not_mem_nil
  · rw [hm]
    exact .emptyEnd leaf hleaf hop hvalue

/-- What a part of the query brings comes from the query. -/
theorem origin_brings (later : Scope)
    (hlater : ∀ group, later = .grouped group → group.nativeKey = false)
    (brought : List Mark) (h : Brings parts later brought) :
    ∀ m ∈ brought, Origin parts later m := by
  intro m hm
  -- Each part reads its expressions in the scope of its stage: documents up to the grouping, and
  -- what the grouping leaves after it.
  cases h with
  | filter leaf h =>
      exact origin_leafMarks parts later .document (.inl rfl) hlater leaf
        (filter_mem_leaves parts leaf h) m hm
  | key x h =>
      exact origin_marks later .document (.inl rfl) hlater x x (key_mem_read parts x h) .self m hm
  | accumulator x h =>
      rcases call_part parts x h with ⟨y, hy, hpart⟩
      exact origin_marks later .document (.inl rfl) hlater x y hy hpart m hm
  | having leaf h =>
      exact origin_leafMarks parts later later (.inr rfl) hlater leaf
        (having_mem_leaves parts leaf h) m hm
  | column x h =>
      exact origin_marks later later (.inr rfl) hlater x x (returned_mem_read parts x h) .self m hm
  | sort key h =>
      exact origin_marks later later (.inr rfl) hlater key.expression key.expression
        (sort_mem_read parts _ ((mem_sortExpressions parts _).mpr ⟨key, h, rfl⟩)) .self m hm
  | distinct h =>
      rw [List.mem_singleton.mp hm]
      exact .document h

end Origins

section Flags

/-- A call that is never a number or a truth value by itself. -/
def FlagFree (handler : FunctionHandler Expr) : Prop :=
  ∀ function arguments e, handler function arguments = .ok e → e.toJson.isFlag = false

theorem unary_flagFree (operation : Operation) : FlagFree (unary operation) := by
  intro function arguments e h
  rcases bind_eq_ok.mp h with ⟨a, _, h⟩
  rw [← Except.ok.inj h]
  rfl

theorem variadic_flagFree (operation : Operation) : FlagFree (variadic operation) := by
  intro function arguments e h
  rw [← Except.ok.inj h]
  rfl

theorem trimming_flagFree (side : TrimSide) : FlagFree (trimming side) := by
  intro function arguments e h
  rcases bind_eq_ok.mp h with ⟨a, _, h⟩
  rw [← Except.ok.inj h]
  rfl

theorem substring_flagFree : FlagFree substring := by
  intro function arguments e h
  rcases bind_eq_ok.mp h with ⟨⟨text, start, length⟩, _, h⟩
  rw [← Except.ok.inj h]
  rfl

theorem location_flagFree : FlagFree location := by
  intro function arguments e h
  rcases bind_eq_ok.mp h with ⟨⟨needle, hay⟩, _, h⟩
  rw [← Except.ok.inj h]
  rfl

theorem nullWhenEqual_flagFree : FlagFree nullWhenEqual := by
  intro function arguments e h
  rcases bind_eq_ok.mp h with ⟨⟨first, second⟩, _, h⟩
  rw [← Except.ok.inj h]
  rfl

theorem counting_flagFree : FlagFree counting := by
  intro function arguments e h
  rcases bind_eq_ok.mp h with ⟨a, _, h⟩
  rw [← Except.ok.inj h]
  rfl

theorem fixed_flagFree (value : Expr) (hvalue : value.toJson.isFlag = false) :
    FlagFree (fixed value) := by
  intro function arguments e h
  rw [← Except.ok.inj h]
  exact hvalue

/-- Only the function that returns its only argument can return a number or a truth value. -/
theorem apply_flag (function : Function) (arguments : List Expr) (e : Expr)
    (h : functionTable.apply function arguments = .ok e) (hflag : e.toJson.isFlag = true) :
    function = .coalesce ∧ arguments = [e] := by
  -- A handler that always gives an operation has no such result.
  have hfree : ∀ handler, FlagFree handler → handler function arguments = .ok e →
      function = .coalesce ∧ arguments = [e] := by
    intro handler hhandler hcompiled
    rw [hhandler function arguments e hcompiled] at hflag
    exact absurd hflag Bool.false_ne_true
  cases function with
  | abs => exact hfree _ (unary_flagFree .abs) h
  | sqrt => exact hfree _ (unary_flagFree .sqrt) h
  | mod => exact hfree _ (variadic_flagFree .mod) h
  | concat => exact hfree _ (variadic_flagFree .concat) h
  | substring => exact hfree _ substring_flagFree h
  | trim => exact hfree _ (trimming_flagFree .both) h
  | ltrim => exact hfree _ (trimming_flagFree .left) h
  | rtrim => exact hfree _ (trimming_flagFree .right) h
  | length => exact hfree _ (unary_flagFree .length) h
  | locate => exact hfree _ location_flagFree h
  | lower => exact hfree _ (unary_flagFree .lower) h
  | upper => exact hfree _ (unary_flagFree .upper) h
  | currentDate => exact hfree _ (fixed_flagFree .today rfl) h
  | currentTime => exact hfree _ (fixed_flagFree .timeOfDay rfl) h
  | currentTimestamp => exact hfree _ (fixed_flagFree .now rfl) h
  | nullif => exact hfree _ nullWhenEqual_flagFree h
  | count => exact hfree _ counting_flagFree h
  | sum => exact hfree _ (unary_flagFree .sum) h
  | avg => exact hfree _ (unary_flagFree .average) h
  | min => exact hfree _ (unary_flagFree .least) h
  | max => exact hfree _ (unary_flagFree .greatest) h
  | coalesce =>
      -- With one argument it is the argument itself; with more it is an operation.
      refine ⟨rfl, ?_⟩
      have hcoalesced : firstPresent .coalesce arguments = .ok e := h
      unfold firstPresent at hcoalesced
      split at hcoalesced
      · rw [Except.ok.inj hcoalesced]
      · rw [← Except.ok.inj hcoalesced] at hflag
        exact absurd hflag Bool.false_ne_true

variable (scope : Scope)

theorem property_flagFree (path : String) (e : Expr) (h : scope.property path = .ok e) :
    e.toJson.isFlag = false := by
  rcases property_field scope path e h with ⟨field, rfl⟩
  rfl

/-- A call that is a number or a truth value returns its only argument. -/
theorem call_flag (function : Function) (arguments : List Argument) (label : Option String)
    (e : Expr) (h : ofExpression scope (.call function arguments label) = .ok e)
    (hflag : e.toJson.isFlag = true) :
    function = .coalesce ∧ ofArguments scope arguments = .ok [e] := by
  simp only [ofExpression] at h
  -- What a group has a field for is a reference to it.
  cases hfield : scope.fieldOf? (.call function arguments label) with
  | some field =>
      rw [hfield] at h
      rw [← Except.ok.inj h] at hflag
      exact absurd hflag Bool.false_ne_true
  | none =>
      rw [hfield] at h
      rcases bind_eq_ok.mp h with ⟨es, hes, happly⟩
      rcases apply_flag function es e happly hflag with ⟨hfunction, hargument⟩
      rw [hargument] at hes
      exact ⟨hfunction, hes⟩

/-- An expression that is a number or a truth value is a constant that is passed through. -/
theorem ofExpression_flag :
    ∀ (x : Expression) (e : Expr), ofExpression scope x = .ok e → e.toJson.isFlag = true →
      ∃ literal, x.coalesced? = some literal ∧ e = .constant literal
  | .property path label, e, h, hflag => by
      simp only [ofExpression] at h
      split at h
      · rw [← Except.ok.inj h] at hflag
        exact absurd hflag Bool.false_ne_true
      · rw [property_flagFree scope path e h] at hflag
        exact absurd hflag Bool.false_ne_true
  | .call function [.expression value] label, e, h, hflag => by
      rcases call_flag scope function _ label e h hflag with ⟨hfunction, harguments⟩
      rcases bind_eq_ok.mp harguments with ⟨first, hfirst, harguments⟩
      have heq : first = e := (List.cons.inj (Except.ok.inj harguments)).1
      rw [heq] at hfirst
      -- The constant is passed through by the argument, in which it is found in the same way.
      rcases ofExpression_flag value e hfirst hflag with ⟨literal, hliteral, he⟩
      refine ⟨literal, ?_, he⟩
      rw [hfunction]
      exact hliteral
  | .call function [.literal value] label, e, h, hflag => by
      rcases call_flag scope function _ label e h hflag with ⟨hfunction, harguments⟩
      have heq : .constant value = e := (List.cons.inj (Except.ok.inj harguments)).1
      refine ⟨value, ?_, heq.symm⟩
      rw [hfunction]
      rfl
  | .call function [] label, e, h, hflag => by
      have hlength := length_ofArguments scope _ _ (call_flag scope function _ label e h hflag).2
      exact absurd hlength (by simp only [List.length_cons, List.length_nil]; decide)
  | .call function (first :: second :: rest) label, e, h, hflag => by
      have hlength := length_ofArguments scope _ _ (call_flag scope function _ label e h hflag).2
      simp only [List.length_cons, List.length_nil] at hlength
      omega

/-- A constant that is a number or a truth value is written as it is. -/
theorem constant_flag (literal : Literal) (h : (Expr.constant literal).toJson.isFlag = true) :
    (Expr.constant literal).toJson = literal.toJson := by
  cases literal with
  | string s =>
      simp only [Expr.toJson, constantJson] at h
      split at h <;> exact absurd h Bool.false_ne_true
  | integer n => rfl
  | float x => rfl
  | boolean b => rfl

/-- A column that is a number or a truth value comes from an expression that is one. -/
theorem projectStage_flag (parts : QueryParts) (hportable : parts.Portable)
    (projection : Projection) (hprojection : parts.projection = .ok projection)
    (sorts : SortStage) (hsorts : sortStage scope parts.sorts = .ok sorts)
    (projected : List Stage) (h : projectStage scope sorts.computed projection = .ok projected) :
    ∀ j ∈ projected.flatMap Stage.columns, j.isFlag = true → ∃ x literal,
      (x ∈ parts.returned ∨ ∃ key, .simple key ∈ parts.sorts ∧ x = key.expression) ∧
        x.coalesced? = some literal ∧ j = literal.toJson := by
  intro j hj hflag
  rcases List.mem_flatMap.mp hj with ⟨stage, hstage, hj⟩
  rcases projectStage_compiles parts hportable scope projection hprojection sorts hsorts projected h
    stage hstage j (columns_subset stage hj) with ⟨x, e, hx, hcompiled, heq⟩
  rw [heq] at hflag
  rcases ofExpression_flag scope x e hcompiled hflag with ⟨literal, hliteral, hconstant⟩
  rw [hconstant] at hflag
  refine ⟨x, literal, hx.imp_right (mem_sortExpressions parts x).mp, hliteral, ?_⟩
  rw [heq, hconstant, constant_flag literal hflag]

end Flags

/-- What is known of the literals of a query in its command. -/
structure LiteralsMarked (parts : QueryParts) (later : Scope) (command : Command) : Prop where
  /-- The later stages read documents or groups. -/
  scope : later = .document ∨ ∃ keys values known stage group,
    Grouped parts keys values known stage group ∧ later = .grouped group
  exact : ∀ j ∈ command.expressions, Explained parts later j
  origin : ∀ j ∈ command.expressions, ∀ m ∈ marks j, Origin parts later m
  /-- A number or a truth value that chooses columns is a constant that is passed through. -/
  flags : ∀ j ∈ command.columns, j.isFlag = true → ∃ x literal,
    (x ∈ parts.returned ∨ ∃ key, .simple key ∈ parts.sorts ∧ x = key.expression) ∧
      x.coalesced? = some literal ∧ j = literal.toJson

/-- The command of portable parts that can be made. -/
theorem compileParts_marked (schema : Schema) (root : String) (parts : QueryParts)
    (hportable : parts.Portable) (hvalid : parts.Valid) (compiled : Compiled)
    (h : compileParts schema root parts = .ok compiled) :
    ∃ later, LiteralsMarked parts later compiled.command := by
  rcases command_cases schema root parts hportable.customizers compiled h with
    ⟨filter, projection, hfilter, hprojection, ⟨_, _, sort, skip, limit, _, hfind⟩ |
      ⟨grouping, having, sorts, projected, hmade⟩⟩
  · -- A find has expressions in its filter only.
    have hexact : ∀ j ∈ compiled.command.expressions, Explained parts .document j := by
      intro j hj
      rw [hfind] at hj
      cases filter with
      | none => exact absurd hj List.not_mem_nil
      | some f =>
          rcases filter_compares .document parts.filter schema.maxDepth f hportable.filter hfilter j
            hj with ⟨leaf, hleaf, negated, e, hcompiled, heq⟩
          rw [heq]
          exact Source.explained hvalid (.filter leaf hleaf negated e hcompiled)
    refine ⟨.document, .inl rfl, hexact, ?_, ?_⟩
    · intro j hj m hm
      rcases hexact j hj with ⟨brought, hbrings, hmarks⟩
      exact origin_brings parts .document
        (fun group heq => absurd heq (by simp only [reduceCtorEq, not_false_eq_true])) brought
        hbrings m ((hmarks m).mp hm)
    · intro j hj
      rw [hfind] at hj
      exact absurd hj List.not_mem_nil
  · -- The later stages read what a grouping leaves, if there is one, and else the documents.
    have hscope : scopeAfter grouping = .document ∨ ∃ keys values known stage group,
        Grouped parts keys values known stage group ∧ scopeAfter grouping = .grouped group := by
      cases hgroup : grouping with
      | none => exact .inl rfl
      | some group =>
          have hgroups := hmade.grouped
          rw [hgroup] at hgroups
          rcases groupStage_grouped parts hportable projection hprojection group.1 group.2
            (groupStage_of_groupingOf parts projection group.1 group.2 hgroups) with
            ⟨keys, values, known, hgrouped⟩
          exact .inr ⟨keys, values, known, group.1, group.2, hgrouped, rfl⟩
    -- There is no native grouping in portable parts.
    have hlater : ∀ group, scopeAfter grouping = .grouped group → group.nativeKey = false := by
      intro group heq
      rcases hscope with hnone | ⟨keys, values, known, stage, found, hgrouped, hfound⟩
      · rw [heq] at hnone
        exact absurd hnone (by simp only [reduceCtorEq, not_false_eq_true])
      · rw [heq] at hfound
        rw [Scope.grouped.inj hfound]
        exact hgrouped.portable
    -- Every expression of the pipeline stands where a part of the query is compiled.
    have hexact : ∀ j ∈ compiled.command.expressions, Explained parts (scopeAfter grouping) j :=
      fun j hj => (pipeline_source hportable hfilter hprojection hmade j hj).explained hvalid
    refine ⟨scopeAfter grouping, hscope, hexact, ?_, ?_⟩
    · intro j hj m hm
      rcases hexact j hj with ⟨brought, hbrings, hmarks⟩
      exact origin_brings parts _ hlater brought hbrings m ((hmarks m).mp hm)
    · intro j hj
      exact projectStage_flag _ parts hportable projection hprojection sorts hmade.sorted projected
        hmade.projects j (pipeline_columns hportable hprojection hmade j hj)

/-- Where a command of a portable query reads an expression, it finds what a part of the query
    brings and nothing else: references that are paths, the clock, fields of a group or the
    whole document, and constants with the sign of references under the mark of literals. The
    constants that are not marked are the items of lists and the end of the empty text, and the
    ones that may choose columns are the only arguments of a function that returns them. -/
theorem literals_marked (schema : Schema) (root : String) (q : AnyQuery) (hportable : q.Portable)
    (hvalid : q.effective.Valid) (compiled : Compiled)
    (h : q.handle (compileQuery schema root) (compileAdvanced schema root) = .ok compiled) :
    ∃ later, LiteralsMarked q.effective later compiled.command := by
  have hcompile : compileParts schema root q.effective = .ok compiled := by
    rw [← handle_prepared (compileParts schema root) q hportable
      (prepares_of_compiles (compileParts schema root) q compiled h)]
    exact h
  exact compileParts_marked schema root q.effective (portable_effective q hportable) hvalid compiled
    hcompile

/-- A list with an item that starts with the sign of references, and a constant column. -/
def sampleLeaking : Query where
  filter := some (.simple
    ⟨.call .upper [.expression (.property "name" none)] none, .isIn,
      some (.list [.string "$secret"])⟩)
  select := some (.items ⟨[], [
    .call .coalesce [.literal (.integer 1)] (some "one"),
    .call .concat [.expression (.property "name" none), .literal (.string "$x")] (some "two")]⟩)

/-- In the command of the sample the item is a reference and the first column is a number. The
    argument of the second column is marked. -/
theorem literals_marked_sample :
    ∃ compiled later, compileQuery .default "Person" sampleLeaking = .ok compiled ∧
      LiteralsMarked (AnyQuery.plain sampleLeaking).effective later compiled.command ∧
      (∃ j ∈ compiled.command.expressions, .reference "$secret" ∈ marks j) ∧
      (∃ j ∈ compiled.command.columns, j.isFlag = true) ∧
      ∃ j ∈ compiled.command.expressions, .quoted "$x" ∈ marks j := by
  have hportable : sampleLeaking.Portable :=
    ⟨by rintro c ⟨⟩; rfl, by decide, by rintro columns ⟨⟩; rfl, rfl, rfl⟩
  have hvalid : (AnyQuery.plain sampleLeaking).effective.Valid := by
    constructor
    case filter =>
      intro leaf hleaf
      rw [List.mem_singleton.mp hleaf]
      exact ⟨by decide, by rintro v ⟨⟩; rfl, rfl⟩
    case sorts => exact fun key hkey => absurd hkey List.not_mem_nil
    case select =>
      rintro columns ⟨⟩
      decide
    case groupBy => rintro columns ⟨⟩
    case having => exact fun leaf hleaf => absurd hleaf List.not_mem_nil
  rcases literals_marked .default "Person" (.plain sampleLeaking) hportable hvalid _ rfl with
    ⟨later, hmarked⟩
  exact ⟨_, later, rfl, hmarked, by decide, by decide, by decide⟩

end Mongo

end Polyquery
