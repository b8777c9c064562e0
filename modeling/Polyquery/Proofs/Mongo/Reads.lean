import Polyquery.Proofs.Mongo.Marks
import Polyquery.Proofs.Query.Expressions

/-!
# What a Query Reads in Mongo

The references and the marked literals that expressions and comparisons of a
query bring, found out from the query and the scope in which it is read.

In a scope an expression brings a reference to the field that stands for it. If
none does, a property brings the reference to its path, and a call brings what
its arguments bring, the clock if it is a function of time. A constant brings
itself, under the mark, if it starts with the sign of references. The document
of an expression has these marks and no others (`ofExpression_marks`). On a
document no field stands for anything, so the references are the paths and the
clock whatever the constants are (`marks_document`).

A comparison brings what its two sides bring (`condition_marks`). The items of
a list are not marked, and neither is a pattern, so here a constant of a query
may become a reference: an item does if it starts with the sign, and a pattern
only if it is the end of the empty text (`plainMarks_regexPattern`).

## Main definitions

* `Mongo.Scope.marks`, `Mongo.Scope.leafMarks`: What an expression and a
  comparison bring.
* `Mongo.BringsFrom`: What paths, the clock and constants bring.

## Theorems

* `ofExpression_marks`: An expression in any scope.
* `marks_document`, `marks_grouped`: An expression on a document, and one after
  documents have been grouped.
* `condition_marks`, `leafMarks_cases`: A comparison.
* `plainMarks_regexPattern`: A pattern.
-/

namespace Polyquery

namespace Mongo

namespace Scope

/-- What a property brings that no field stands for. -/
def propertyMarks (scope : Scope) (path : String) : List Mark :=
  match scope with
  | .document => [.reference ("$" ++ path)]
  | .grouped group => if group.nativeKey then [.reference ("$" ++ ("_id." ++ path))] else []

mutual

/-- What an expression brings in a scope. -/
def marks (scope : Scope) : Expression → List Mark
  | .property path label =>
    match scope.fieldOf? (.property path label) with
    | some field => [.reference ("$" ++ field)]
    | none => scope.propertyMarks path
  | .call function arguments label =>
    match scope.fieldOf? (.call function arguments label) with
    | some field => [.reference ("$" ++ field)]
    | none => (if function.readsClock then [clock] else []) ++ argumentMarks scope arguments

/-- What the arguments of a call bring in a scope. -/
def argumentMarks (scope : Scope) : List Argument → List Mark
  | [] => []
  | .expression value :: rest => marks scope value ++ argumentMarks scope rest
  | .literal value :: rest => literalMarks value ++ argumentMarks scope rest

end

/-- What a comparison of expressions brings in a scope. -/
def leafMarks (scope : Scope) (leaf : SimpleCondition) : List Mark :=
  scope.marks leaf.left ++
    match leaf.value with
    | none => []
    | some (.list values) => listMarks values
    | some (.scalar literal) =>
      if leaf.operator.isPattern then
        (literal.asString?.toList).flatMap fun text => plainMarks (regexPattern leaf.operator text)
      else literalMarks literal
    | some (.field path) => scope.marks (.property path none)

end Scope

section Expressions

variable (scope : Scope)

/-- A property that has a value is a field. -/
theorem property_field (path : String) (e : Expr) (h : scope.property path = .ok e) :
    ∃ field, e = .field field := by
  unfold Scope.property at h
  split at h
  · exact ⟨_, (Except.ok.inj h).symm⟩
  · split at h
    · exact ⟨_, (Except.ok.inj h).symm⟩
    · exact absurd h (by simp only [reduceCtorEq, not_false_eq_true])

theorem property_marks (path : String) (e : Expr) (h : scope.property path = .ok e) :
    e.marks = scope.propertyMarks path := by
  cases scope with
  | document =>
      rw [← Except.ok.inj h, marks_field]
      rfl
  | grouped group =>
      simp only [Scope.property] at h
      split at h
      · rename_i hnative
        rw [← Except.ok.inj h, marks_field]
        simp only [Scope.propertyMarks, if_pos hnative]
      · exact absurd h (by simp only [reduceCtorEq, not_false_eq_true])

theorem length_ofArguments (arguments : List Argument) (es : List Expr)
    (h : ofArguments scope arguments = .ok es) : es.length = arguments.length := by
  induction arguments generalizing es with
  | nil =>
      simp only [ofArguments] at h
      rw [← Except.ok.inj h]
      rfl
  | cons argument rest ih =>
      cases argument with
      | expression value =>
          simp only [ofArguments] at h
          rcases bind_eq_ok.mp h with ⟨first, _, h⟩
          rcases bind_eq_ok.mp h with ⟨others, hothers, h⟩
          rw [← Except.ok.inj h, List.length_cons, List.length_cons, ih others hothers]
      | literal value =>
          simp only [ofArguments] at h
          rcases bind_eq_ok.mp h with ⟨others, hothers, h⟩
          rw [← Except.ok.inj h, List.length_cons, List.length_cons, ih others hothers]

mutual

/-- The document of an expression brings what the expression brings in its scope. -/
theorem ofExpression_marks :
    ∀ (x : Expression) (e : Expr), x.valid = true → ofExpression scope x = .ok e →
      ∀ m, m ∈ e.marks ↔ m ∈ scope.marks x
  | .property path label, e, _, h, m => by
      simp only [ofExpression] at h
      simp only [Scope.marks]
      cases hfield : scope.fieldOf? (.property path label) with
      | some field =>
          rw [hfield] at h
          rw [← Except.ok.inj h, marks_field]
      | none =>
          rw [hfield] at h
          rw [property_marks scope path e h]
  | .call function arguments label, e, hvalid, h, m => by
      simp only [Expression.valid, Bool.and_eq_true] at hvalid
      simp only [ofExpression] at h
      simp only [Scope.marks]
      -- What a group has a field for is one reference, whatever it was made of.
      cases hfield : scope.fieldOf? (.call function arguments label) with
      | some field =>
          rw [hfield] at h
          rw [← Except.ok.inj h, marks_field]
      | none =>
          rw [hfield] at h
          rcases bind_eq_ok.mp h with ⟨es, hes, happly⟩
          -- A call gathers what its arguments bring, and the clock if it reads it.
          have hcount : function.arity.accepts es.length = true := by
            rw [length_ofArguments scope arguments es hes]
            exact hvalid.1
          rw [functionTable_gathers function es e hcount happly,
            ofArguments_marks arguments es hvalid.2 hes, List.mem_append]
          refine or_congr_left ?_
          split
          · rename_i hclock
            simp only [hclock, true_and, List.mem_singleton]
          · rename_i hclock
            simp only [hclock, Bool.false_eq_true, false_and, List.not_mem_nil]

/-- So do the documents of the arguments of a call. -/
theorem ofArguments_marks :
    ∀ (arguments : List Argument) (es : List Expr), Expression.validArguments arguments = true →
      ofArguments scope arguments = .ok es →
      ∀ m, (∃ a ∈ es, m ∈ a.marks) ↔ m ∈ scope.argumentMarks arguments
  | [], es, _, h, m => by
      simp only [ofArguments] at h
      rw [← Except.ok.inj h]
      simp only [List.not_mem_nil, false_and, exists_false, Scope.argumentMarks]
  | .expression value :: rest, es, hvalid, h, m => by
      simp only [Expression.validArguments, Bool.and_eq_true] at hvalid
      simp only [ofArguments] at h
      rcases bind_eq_ok.mp h with ⟨first, hfirst, h⟩
      rcases bind_eq_ok.mp h with ⟨others, hothers, h⟩
      rw [← Except.ok.inj h]
      simp only [List.mem_cons, exists_eq_or_imp, Scope.argumentMarks, List.mem_append]
      rw [ofExpression_marks value first hvalid.1 hfirst,
        ofArguments_marks rest others hvalid.2 hothers]
  | .literal value :: rest, es, hvalid, h, m => by
      simp only [Expression.validArguments] at hvalid
      simp only [ofArguments] at h
      rcases bind_eq_ok.mp h with ⟨others, hothers, h⟩
      rw [← Except.ok.inj h]
      simp only [List.mem_cons, exists_eq_or_imp, Scope.argumentMarks, List.mem_append,
        marks_constant]
      rw [ofArguments_marks rest others hvalid hothers]

end

theorem mem_literalMarks (literal : Literal) (m : Mark) :
    m ∈ literalMarks literal ↔ ∃ s, literal = .string s ∧ Signed s ∧ m = .quoted s := by
  cases literal with
  | string s =>
      simp only [literalMarks, Literal.string.injEq, exists_eq_left']
      split
      · rename_i hsigned
        simp only [List.mem_singleton, hsigned, true_and]
      · rename_i hplain
        simp only [List.not_mem_nil, hplain, false_and]
  | integer n => simp only [literalMarks, List.not_mem_nil, reduceCtorEq, false_and, exists_false]
  | float x => simp only [literalMarks, List.not_mem_nil, reduceCtorEq, false_and, exists_false]
  | boolean b => simp only [literalMarks, List.not_mem_nil, reduceCtorEq, false_and, exists_false]

/-- What paths, the clock and constants bring. The references are the paths and the clock,
    whatever the constants are. -/
def BringsFrom (paths : List String) (readsClock : Bool) (literals : List Literal)
    (m : Mark) : Prop :=
  (∃ path ∈ paths, m = .reference ("$" ++ path)) ∨ (readsClock = true ∧ m = clock) ∨
    ∃ s, .string s ∈ literals ∧ Signed s ∧ m = .quoted s

/-- What two parts bring together. -/
theorem bringsFrom_append (paths paths' : List String) (reads reads' : Bool)
    (literals literals' : List Literal) (m : Mark) :
    BringsFrom (paths ++ paths') (reads || reads') (literals ++ literals') m ↔
      BringsFrom paths reads literals m ∨ BringsFrom paths' reads' literals' m := by
  simp only [BringsFrom, List.mem_append, Bool.or_eq_true, or_and_right, exists_or]
  exact (or_congr_right or_or_or_comm).trans or_or_or_comm

mutual

/-- What an expression brings on a document. -/
theorem marks_document :
    ∀ (x : Expression) (m : Mark), m ∈ Scope.document.marks x ↔
      BringsFrom x.paths x.readsClock x.literals m
  | .property path label, m => by
      simp only [Scope.marks, Scope.fieldOf?, Scope.propertyMarks, BringsFrom,
        Expression.paths, Expression.readsClock, Expression.literals, List.mem_singleton,
        exists_eq_left, Bool.false_eq_true, false_and, List.not_mem_nil, exists_false, or_false]
  | .call function arguments label, m => by
      simp only [Scope.marks, Scope.fieldOf?, List.mem_append, argumentMarks_document arguments m,
        Expression.paths, Expression.readsClock, Expression.literals]
      cases hclock : function.readsClock with
      | false =>
          simp only [Bool.false_eq_true, if_false, List.not_mem_nil, false_or, Bool.false_or]
      | true =>
          simp only [if_true, List.mem_singleton, Bool.true_or, BringsFrom, true_and]
          rw [or_left_comm, ← or_assoc (a := m = clock), or_iff_left_of_imp And.right]

/-- What the arguments of a call bring on a document. -/
theorem argumentMarks_document :
    ∀ (arguments : List Argument) (m : Mark), m ∈ Scope.document.argumentMarks arguments ↔
      BringsFrom (Expression.argumentPaths arguments)
        (Expression.argumentsReadClock arguments) (Expression.argumentLiterals arguments) m
  | [], m => by
      simp only [Scope.argumentMarks, BringsFrom, Expression.argumentPaths,
        Expression.argumentsReadClock, Expression.argumentLiterals, List.not_mem_nil,
        Bool.false_eq_true, false_and, exists_false, or_self]
  | .expression value :: rest, m => by
      simp only [Scope.argumentMarks, Expression.argumentPaths, Expression.argumentsReadClock,
        Expression.argumentLiterals, List.mem_append, bringsFrom_append,
        marks_document value m, argumentMarks_document rest m]
  | .literal value :: rest, m => by
      simp only [Scope.argumentMarks, Expression.argumentPaths, Expression.argumentsReadClock,
        Expression.argumentLiterals, List.mem_append, mem_literalMarks,
        argumentMarks_document rest m, BringsFrom, List.mem_cons, or_and_right, exists_or,
        eq_comm (a := value)]
      exact or_left_comm.trans (or_congr_right or_left_comm)

end

/-- What a reference to a group key or to an accumulated value brings. -/
def GroupScope.Refers (group : GroupScope) (m : Mark) : Prop :=
  ∃ text field, group.fields.lookup text = some field ∧ m = .reference ("$" ++ field)

mutual

/-- After documents have been grouped, an expression refers to fields of the group and to no
    path of a document. -/
theorem marks_grouped (group : GroupScope) (hportable : group.nativeKey = false) :
    ∀ (x : Expression) (m : Mark), m ∈ (Scope.grouped group).marks x →
      group.Refers m ∨ BringsFrom [] x.readsClock x.literals m
  | .property path label, m, hm => by
      simp only [Scope.marks] at hm
      -- A property without a field is missing in a group and brings nothing.
      cases hfield : (Scope.grouped group).fieldOf? (.property path label) with
      | some field =>
          rw [hfield] at hm
          exact .inl ⟨_, field, hfield, List.mem_singleton.mp hm⟩
      | none =>
          rw [hfield] at hm
          simp only [Scope.propertyMarks, hportable, Bool.false_eq_true, if_false] at hm
          exact absurd hm List.not_mem_nil
  | .call function arguments label, m, hm => by
      simp only [Scope.marks] at hm
      cases hfield : (Scope.grouped group).fieldOf? (.call function arguments label) with
      | some field =>
          rw [hfield] at hm
          exact .inl ⟨_, field, hfield, List.mem_singleton.mp hm⟩
      | none =>
          rw [hfield] at hm
          simp only [Expression.readsClock, Expression.literals]
          -- Without a field a call brings the clock, or what an argument of it brings.
          rcases List.mem_append.mp hm with hclock | harguments
          · refine .inr (.inr (.inl ?_))
            split at hclock
            · rename_i hreads
              simp only [hreads, Bool.true_or, List.mem_singleton.mp hclock, and_self]
            · exact absurd hclock List.not_mem_nil
          · rcases argumentMarks_grouped group hportable arguments m harguments with
              hrefers | hbrings
            · exact .inl hrefers
            · exact .inr ((bringsFrom_append [] [] _ _ [] _ m).mpr (.inr hbrings))

/-- So do the arguments of a call. -/
theorem argumentMarks_grouped (group : GroupScope) (hportable : group.nativeKey = false) :
    ∀ (arguments : List Argument) (m : Mark), m ∈ (Scope.grouped group).argumentMarks arguments →
      group.Refers m ∨ BringsFrom [] (Expression.argumentsReadClock arguments)
        (Expression.argumentLiterals arguments) m
  | [], m, hm => absurd hm List.not_mem_nil
  | .expression value :: rest, m, hm => by
      simp only [Expression.argumentsReadClock, Expression.argumentLiterals]
      rcases List.mem_append.mp hm with hfirst | hrest
      · rcases marks_grouped group hportable value m hfirst with hrefers | hbrings
        · exact .inl hrefers
        · exact .inr ((bringsFrom_append [] [] _ _ _ _ m).mpr (.inl hbrings))
      · rcases argumentMarks_grouped group hportable rest m hrest with hrefers | hbrings
        · exact .inl hrefers
        · exact .inr ((bringsFrom_append [] [] _ _ _ _ m).mpr (.inr hbrings))
  | .literal value :: rest, m, hm => by
      simp only [Expression.argumentsReadClock, Expression.argumentLiterals]
      rcases List.mem_append.mp hm with hfirst | hrest
      · rcases (mem_literalMarks value m).mp hfirst with ⟨s, hvalue, hquoted⟩
        refine .inr (.inr (.inr ⟨s, ?_, hquoted⟩))
        rw [hvalue]
        exact List.mem_cons_self
      · rcases argumentMarks_grouped group hportable rest m hrest with hrefers | hbrings
        · exact .inl hrefers
        · exact .inr ((bringsFrom_append [] [] false _ [value] _ m).mpr (.inr hbrings))

end

end Expressions

section Comparisons

/-- Patterns stay patterns under the flag, and no other operator becomes one. -/
theorem polarity_isPattern (op : Operator) (negated : Bool) :
    (Polarity.of op negated).operator.isPattern = op.isPattern := by
  cases op <;> cases negated <;> rfl

theorem marks_negateIf (negated : Bool) (e : Expr) : (negateIf negated e).marks = e.marks := by
  unfold negateIf
  split
  · exact marks_not e
  · rfl

/-- Each side of a comparison is written several times, and nothing else is. -/
theorem mem_marks_guarded (polarity : Polarity) (left right : Expr) (m : Mark) :
    m ∈ (guardedComparison polarity left right).marks ↔ m ∈ left.marks ∨ m ∈ right.marks := by
  unfold guardedComparison
  split <;>
    simp only [marks_not, marks_negateIf, marks_and, marks_present, marks_compare,
      List.flatMap_cons, List.flatMap_nil, List.append_nil, List.mem_append, or_self]

/-- A comparison of expressions brings what its sides bring. -/
theorem condition_marks (scope : Scope) (leaf : SimpleCondition) (negated : Bool) (e : Expr)
    (hleft : leaf.left.valid = true)
    (hvalue : ∀ v, leaf.value = some v → v.valid = true)
    (h : condition scope leaf (Polarity.of leaf.operator negated) = .ok e) (m : Mark) :
    m ∈ e.marks ↔ m ∈ scope.leafMarks leaf := by
  unfold condition at h
  rcases bind_eq_ok.mp h with ⟨left, hcompiled, h⟩
  unfold Scope.leafMarks
  rw [List.mem_append, ← ofExpression_marks scope leaf.left left hleft hcompiled]
  cases hform : leaf.value with
  | none =>
      rw [hform] at h
      rw [← Except.ok.inj h]
      split
      · simp only [marks_compare, marks_null, List.append_nil, List.not_mem_nil, or_false]
      · simp only [marks_present, List.not_mem_nil, or_false]
  | some value =>
      rw [hform] at h
      cases value with
      | list values =>
          rw [← Except.ok.inj h]
          split
          · simp only [marks_and, marks_present, marks_isIn, List.flatMap_cons, List.flatMap_nil,
              List.append_nil, List.mem_append, or_self_left]
          · simp only [marks_not, marks_isIn, List.mem_append]
      | scalar literal =>
          simp only [polarity_isPattern] at h
          by_cases hpattern : leaf.operator.isPattern = true
          · simp only [hpattern, if_true, polarity_pattern _ hpattern] at h
            rcases bind_eq_ok.mp h with ⟨text, htext, h⟩
            have hliteral : literal.asString? = some text := by
              unfold patternText at htext
              split at htext
              · rename_i found hfound
                rw [hfound, Except.ok.inj htext]
              · exact absurd htext (by simp only [reduceCtorEq, not_false_eq_true])
            rw [← Except.ok.inj h]
            simp only [hpattern, if_true, hliteral, Option.toList_some, marks_and, marks_present,
              marks_negateIf, marks_regexMatch, List.flatMap_cons, List.flatMap_nil,
              List.append_nil, List.mem_append, or_self_left]
          · simp only [hpattern, Bool.false_eq_true, if_false] at h
            rw [← Except.ok.inj h]
            simp only [hpattern, Bool.false_eq_true, if_false, mem_marks_guarded, marks_constant]
      | field path =>
          rcases bind_eq_ok.mp h with ⟨right, hright, h⟩
          rcases bind_eq_ok.mp hright with ⟨property, hproperty, hright⟩
          rw [mapError_eq_ok] at hproperty
          -- The other property is known to have a path that is not blank.
          have hpath := hvalue _ hform
          simp only [ConditionValue.valid] at hpath
          have heq : property = .property path none := by
            unfold Expression.ofPath Expression.checkPath at hproperty
            rw [if_neg (by simpa only [Bool.not_eq_true', Bool.not_eq_true] using hpath)]
              at hproperty
            exact (Except.ok.inj hproperty).symm
          rw [heq] at hright
          rw [← Except.ok.inj h, mem_marks_guarded,
            ofExpression_marks scope (.property path none) right hpath hright]

/-- No text that stands for itself in a regular expression starts with the sign. -/
theorem head_escaped (text : List Char) : (text.flatMap escapeRegex).head? ≠ some '$' := by
  cases text with
  | nil => simp only [List.flatMap_nil, List.head?_nil, ne_eq, reduceCtorEq, not_false_eq_true]
  | cons c rest =>
      rw [List.flatMap_cons]
      unfold escapeRegex
      by_cases hmeta : regexMeta.contains c = true
      · rw [if_pos hmeta]
        simp only [List.cons_append, List.head?_cons, ne_eq, Option.some.injEq]
        decide
      · rw [if_neg hmeta]
        simp only [List.cons_append, List.head?_cons, ne_eq, Option.some.injEq]
        rintro rfl
        exact hmeta (by decide)

/-- A pattern is a reference only if it is the end of the empty text. -/
theorem plainMarks_regexPattern (op : Operator) (text : String) :
    plainMarks (regexPattern op text) =
      if op = .endsWith ∧ text = "" then [.reference "$"] else [] := by
  by_cases hend : op = .endsWith ∧ text = ""
  · rw [if_pos hend, hend.1, hend.2]
    decide
  · rw [if_neg hend]
    have hplain : ¬ Signed (regexPattern op text) := by
      have hescaped := head_escaped text.toList
      unfold Signed
      cases op
      case endsWith =>
        cases htext : text.toList with
        | nil => exact absurd ⟨rfl, String.toList_eq_nil_iff.mp htext⟩ hend
        | cons c rest =>
            rw [htext] at hescaped
            simp only [regexPattern, String.toList_ofList, htext]
            rw [List.head?_append]
            cases hhead : ((c :: rest).flatMap escapeRegex).head? with
            | some first =>
                rw [hhead] at hescaped
                exact hescaped
            | none =>
                -- Every character leaves something.
                rw [List.head?_eq_none_iff, List.flatMap_cons] at hhead
                have hempty := (List.append_eq_nil_iff.mp hhead).1
                unfold escapeRegex at hempty
                split at hempty <;>
                  exact absurd hempty (by simp only [reduceCtorEq, not_false_eq_true])
      case startsWith =>
        simp only [regexPattern, String.toList_ofList, List.head?_cons, Option.some.injEq]
        decide
      all_goals
        simp only [regexPattern, String.toList_ofList]
        exact hescaped
    simp only [plainMarks, if_neg hplain]

/-- What a comparison brings: what its sides bring, a constant under the mark of literals, an
    item of a list as it is, or the end of the empty text. -/
theorem leafMarks_cases (scope : Scope) (leaf : SimpleCondition) (m : Mark)
    (h : m ∈ scope.leafMarks leaf) :
    (∃ x ∈ leaf.expressions, m ∈ scope.marks x) ∨
      (∃ s, .string s ∈ leaf.scalar ∧ Signed s ∧ m = .quoted s) ∨
      (∃ s, .string s ∈ leaf.items ∧ m = .reference s ∧ Signed s) ∨
      (leaf.operator = .endsWith ∧ leaf.value = some (.scalar (.string "")) ∧
        m = .reference "$") := by
  -- A mark is brought by the left side or by the value.
  rcases List.mem_append.mp h with hleft | hright
  · exact .inl ⟨leaf.left, List.mem_cons_self, hleft⟩
  · unfold SimpleCondition.scalar SimpleCondition.items
    cases hvalue : leaf.value with
    | none =>
        rw [hvalue] at hright
        exact absurd hright List.not_mem_nil
    | some value =>
        rw [hvalue] at hright
        cases value with
        | list values =>
            -- Of the items only strings with the sign are read as references.
            rcases List.mem_flatMap.mp hright with ⟨item, hitem, hm⟩
            cases item with
            | string s =>
                simp only [plainMarks] at hm
                split at hm
                · rename_i hsigned
                  exact .inr (.inr (.inl ⟨s, hitem, List.mem_singleton.mp hm, hsigned⟩))
                · exact absurd hm List.not_mem_nil
            | integer n => exact absurd hm List.not_mem_nil
            | float x => exact absurd hm List.not_mem_nil
            | boolean b => exact absurd hm List.not_mem_nil
        | scalar literal =>
            simp only [] at hright
            split at hright
            · -- A pattern has a sign of its own in one case: the end of the empty text.
              rcases List.mem_flatMap.mp hright with ⟨text, htext, hm⟩
              rw [plainMarks_regexPattern] at hm
              split at hm
              · rename_i hend
                refine .inr (.inr (.inr ⟨hend.1, ?_, List.mem_singleton.mp hm⟩))
                rw [hend.2, Option.mem_toList] at htext
                cases literal <;>
                  simp only [Literal.asString?, Option.some.injEq, reduceCtorEq] at htext
                rw [htext]
              · exact absurd hm List.not_mem_nil
            · -- Another literal is marked, if it has the sign at all.
              rcases (mem_literalMarks literal m).mp hright with ⟨s, hs, hsigned, hm⟩
              rw [hs]
              exact .inr (.inl ⟨s, List.mem_singleton.mpr rfl, hsigned, hm⟩)
        | field path =>
            exact .inl ⟨.property path none, field_mem_expressions leaf path hvalue, hright⟩

end Comparisons

end Mongo

end Polyquery
