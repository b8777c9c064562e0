import Polyquery.Mongo.Filter
import Polyquery.Mongo.Printer
import Polyquery.Proofs.Backend.Functions
import Polyquery.Proofs.Expression.Parts

/-!
# References in Expressions

What an expression of Mongo reads, found out from the document that is sent. A
text with a dollar sign in front is a reference, wherever in an expression it
stands, unless it is marked as a literal. So the texts of a query that start
with that sign are of interest: each of them is to be found as a reference or
under the mark, and `marks` collects both kinds.

A node of an expression adds nothing to what its parts bring and leaves nothing
of it out. There is one lemma for each node, and from these the same is found
for the functions (`functionTable_gathers`). The items of a list and the
pattern of a text are written without the mark, so they are references if they
start with the sign.

## Main definitions

* `Signed`, `Mark`, `marks`: References and marked literals of a document.
* `Expr.marks`: Those of an expression.
* `Gathers`: A function that brings what its arguments bring.

## Theorems

* `marks_constant` and its siblings: One node of an expression.
* `functionTable_gathers`: A call.
-/

namespace Polyquery

namespace Mongo

/-- A text has the sign of references in front. -/
def Signed (s : String) : Prop :=
  s.toList.head? = some '$'

instance (s : String) : Decidable (Signed s) :=
  inferInstanceAs (Decidable (_ = _))

/-- A text in an expression that starts with the sign of references. -/
inductive Mark where
  | reference (text : String)
  /-- The text stands under the mark of literals. -/
  | quoted (text : String)
  deriving Repr, DecidableEq

/-- The reference to the clock. -/
def clock : Mark := .reference "$$NOW"

/-- A string under the mark of literals. -/
def quotedMarks : Json → List Mark
  | .string s => [.quoted s]
  | _ => []

mutual

/-- The references and the marked literals in the document of an expression. -/
def marks : Json → List Mark
  | .null => []
  | .bool _ => []
  | .number _ => []
  | .string s => if Signed s then [.reference s] else []
  | .array items => itemMarks items
  | .object members => memberMarks members

/-- The references and the marked literals in several documents. -/
def itemMarks : List Json → List Mark
  | [] => []
  | item :: rest => marks item ++ itemMarks rest

/-- The references and the marked literals in the members of a document. -/
def memberMarks : List (String × Json) → List Mark
  | [] => []
  | (key, value) :: rest =>
    (if key = "$literal" then quotedMarks value else marks value) ++ memberMarks rest

end

/-- The references and the marked literals of an expression. -/
def Expr.marks (e : Expr) : List Mark :=
  Mongo.marks e.toJson

/-- What a constant that is written as it should be brings. -/
def literalMarks : Literal → List Mark
  | .string s => if Signed s then [.quoted s] else []
  | _ => []

/-- What a text brings that is written as it is. -/
def plainMarks (s : String) : List Mark :=
  if Signed s then [.reference s] else []

/-- What the items of a list bring, which are written as they are. -/
def listMarks (values : List Literal) : List Mark :=
  values.flatMap fun value =>
    match value with
    | .string s => plainMarks s
    | _ => []

section Nodes

theorem memberMarks_single (key : String) (value : Json) (h : key ≠ "$literal") :
    marks (single key value) = marks value := by
  simp only [single, marks, memberMarks, if_neg h, List.append_nil]

/-- Only strings bring something, and a number that cannot be written is null. -/
theorem marks_ofFloat (x : Float) : marks (.ofFloat x) = [] := by
  unfold Json.ofFloat
  split <;> simp only [marks]

theorem marks_field (path : String) : (Expr.field path).marks = [.reference ("$" ++ path)] := by
  have hsigned : Signed ("$" ++ path) := by
    unfold Signed
    rw [String.toList_append]
    rfl
  simp only [Expr.marks, Expr.toJson, marks, if_pos hsigned]

theorem marks_null : Expr.null.marks = [] := by
  simp only [Expr.marks, Expr.toJson, marks]

theorem marks_constant (literal : Literal) :
    (Expr.constant literal).marks = literalMarks literal := by
  simp only [Expr.marks, Expr.toJson]
  cases literal with
  | string s =>
      simp only [constantJson, literalMarks]
      by_cases hsigned : Signed s
      · have hhead : s.toList.head? = some '$' := hsigned
        simp only [if_pos hsigned, if_pos hhead, single, marks, memberMarks, quotedMarks, if_true,
          List.append_nil]
      · have hhead : ¬ s.toList.head? = some '$' := hsigned
        simp only [if_neg hsigned, if_neg hhead, marks]
  | integer n => simp only [constantJson, Literal.toJson, Json.ofInt, marks, literalMarks]
  | float x => simp only [constantJson, Literal.toJson, marks_ofFloat, literalMarks]
  | boolean b => simp only [constantJson, Literal.toJson, marks, literalMarks]

theorem marks_nowJson : marks nowJson = [clock] := by
  decide

theorem marks_now : Expr.now.marks = [clock] := by
  simp only [Expr.marks, Expr.toJson, marks_nowJson]

theorem marks_today : Expr.today.marks = [clock] := by
  decide

theorem marks_timeOfDay : Expr.timeOfDay.marks = [clock] := by
  decide

theorem operation_ne_literal (operation : Operation) : operation.name ≠ "$literal" := by
  cases operation <;> decide

theorem comparison_ne_literal (comparison : Comparison) : comparison.name ≠ "$literal" := by
  cases comparison <;> decide

theorem itemMarks_toJsons (es : List Expr) :
    itemMarks (Expr.toJsons es) = es.flatMap Expr.marks := by
  induction es with
  | nil => simp only [Expr.toJsons, itemMarks, List.flatMap_nil]
  | cons e rest ih => simp only [Expr.toJsons, itemMarks, List.flatMap_cons, ih, Expr.marks]

theorem marks_unary (operation : Operation) (a : Expr) :
    (Expr.unary operation a).marks = a.marks := by
  simp only [Expr.marks, Expr.toJson, memberMarks_single _ _ (operation_ne_literal operation)]

theorem marks_apply (operation : Operation) (arguments : List Expr) :
    (Expr.apply operation arguments).marks = arguments.flatMap Expr.marks := by
  simp only [Expr.marks, Expr.toJson, memberMarks_single _ _ (operation_ne_literal operation),
    marks, itemMarks_toJsons]

theorem marks_trim (side : TrimSide) (text : Expr) : (Expr.trim side text).marks = text.marks := by
  have hside : side.name ≠ "$literal" := by
    cases side <;> decide
  simp only [Expr.marks, Expr.toJson, memberMarks_single _ _ hside,
    memberMarks_single "input" _ (by decide)]

theorem marks_compare (comparison : Comparison) (left right : Expr) :
    (Expr.compare comparison left right).marks = left.marks ++ right.marks := by
  simp only [Expr.marks, Expr.toJson, memberMarks_single _ _ (comparison_ne_literal comparison),
    marks, itemMarks, List.append_nil]

/-- The items of a list stand there as they are. -/
theorem marks_literalArray (values : List Literal) :
    marks (literalArray values) = listMarks values := by
  unfold literalArray
  simp only [marks]
  induction values with
  | nil => rfl
  | cons value rest ih =>
      simp only [List.map_cons, itemMarks, ih, listMarks, List.flatMap_cons]
      congr 1
      cases value with
      | string s => simp only [Literal.toJson, marks, plainMarks]
      | integer n => simp only [Literal.toJson, Json.ofInt, marks]
      | float x => simp only [Literal.toJson, marks_ofFloat]
      | boolean b => simp only [Literal.toJson, marks]

theorem marks_isIn (left : Expr) (values : List Literal) :
    (Expr.isIn left values).marks = left.marks ++ listMarks values := by
  simp only [Expr.marks, Expr.toJson, memberMarks_single "$in" _ (by decide), marks, itemMarks,
    marks_literalArray, List.append_nil]

theorem marks_regexMatch (text : Expr) (pattern : String) :
    (Expr.regexMatch text pattern).marks = text.marks ++ plainMarks pattern := by
  have hoptions : ¬ Signed "i" := by decide
  simp only [Expr.marks, Expr.toJson, memberMarks_single "$regexMatch" _ (by decide), marks,
    memberMarks, if_neg (show "input" ≠ "$literal" by decide),
    if_neg (show "regex" ≠ "$literal" by decide), if_neg (show "options" ≠ "$literal" by decide),
    if_neg hoptions, List.append_nil, plainMarks]

theorem marks_and (operands : List Expr) :
    (Expr.and operands).marks = operands.flatMap Expr.marks := by
  simp only [Expr.marks, Expr.toJson, memberMarks_single "$and" _ (by decide), marks,
    itemMarks_toJsons]

theorem marks_not (operand : Expr) : (Expr.not operand).marks = operand.marks := by
  simp only [Expr.marks, Expr.toJson, notJson, memberMarks_single "$not" _ (by decide), marks,
    itemMarks, List.append_nil]

theorem marks_present (e : Expr) : (present e).marks = e.marks := by
  rw [present, marks_compare, marks_null, List.append_nil]

theorem marks_number (n : Int) : (number n).marks = [] := by
  rw [number, marks_constant]
  rfl

end Nodes

section Calls

/-- A call has the marks of its arguments and no others. -/
def Gathers (handler : FunctionHandler Expr) : Prop :=
  ∀ function arguments e, handler function arguments = .ok e →
    ∀ m, m ∈ e.marks ↔ ∃ a ∈ arguments, m ∈ a.marks

theorem unary_gathers (operation : Operation) : Gathers (unary operation) := by
  intro function arguments e h m
  rcases bind_eq_ok.mp h with ⟨a, ha, h⟩
  rw [one_eq_ok.mp ha, ← Except.ok.inj h, marks_unary]
  simp only [List.mem_singleton, exists_eq_left]

theorem variadic_gathers (operation : Operation) : Gathers (variadic operation) := by
  intro function arguments e h m
  rw [← Except.ok.inj h, marks_apply, List.mem_flatMap]

theorem trimming_gathers (side : TrimSide) : Gathers (trimming side) := by
  intro function arguments e h m
  rcases bind_eq_ok.mp h with ⟨a, ha, h⟩
  rw [one_eq_ok.mp ha, ← Except.ok.inj h, marks_trim]
  simp only [List.mem_singleton, exists_eq_left]

theorem substring_gathers : Gathers substring := by
  intro function arguments e h m
  rcases bind_eq_ok.mp h with ⟨⟨text, start, length⟩, harguments, h⟩
  rw [three_eq_ok.mp harguments, ← Except.ok.inj h]
  simp only [marks_apply, marks_number, List.flatMap_cons, List.flatMap_nil, List.append_nil,
    List.mem_append, List.mem_cons, List.not_mem_nil, or_false, exists_eq_or_imp, exists_eq_left]

theorem location_gathers : Gathers location := by
  intro function arguments e h m
  rcases bind_eq_ok.mp h with ⟨⟨needle, hay⟩, harguments, h⟩
  rw [two_eq_ok.mp harguments, ← Except.ok.inj h]
  simp only [marks_apply, marks_number, List.flatMap_cons, List.flatMap_nil, List.append_nil,
    List.mem_append, List.mem_cons, List.not_mem_nil, or_false, exists_eq_or_imp, exists_eq_left]
  exact or_comm

theorem firstPresent_gathers : Gathers firstPresent := by
  intro function arguments e h m
  unfold firstPresent at h
  split at h
  · rw [← Except.ok.inj h]
    simp only [List.mem_singleton, exists_eq_left]
  · rw [← Except.ok.inj h, marks_apply, List.mem_flatMap]

theorem nullWhenEqual_gathers : Gathers nullWhenEqual := by
  intro function arguments e h m
  rcases bind_eq_ok.mp h with ⟨⟨first, second⟩, harguments, h⟩
  rw [two_eq_ok.mp harguments, ← Except.ok.inj h]
  simp only [marks_apply, marks_compare, marks_null, List.flatMap_cons, List.flatMap_nil,
    List.append_nil, List.mem_append, List.mem_cons, List.not_mem_nil, or_false, false_or,
    exists_eq_or_imp, exists_eq_left]
  -- The first argument is written twice.
  constructor
  · rintro ((hfirst | hsecond) | hfirst)
    · exact .inl hfirst
    · exact .inr hsecond
    · exact .inl hfirst
  · rintro (hfirst | hsecond)
    · exact .inr hfirst
    · exact .inl (.inr hsecond)

theorem counting_gathers : Gathers counting := by
  intro function arguments e h m
  rcases bind_eq_ok.mp h with ⟨a, ha, h⟩
  rw [one_eq_ok.mp ha, ← Except.ok.inj h]
  simp only [marks_unary, marks_apply, marks_present, marks_number, List.flatMap_cons,
    List.flatMap_nil, List.append_nil, List.mem_singleton, exists_eq_left]

/-- A call with as many arguments as its function takes has the marks of its arguments, and
    a function of time reads the clock. -/
theorem functionTable_gathers (function : Function) (arguments : List Expr) (e : Expr)
    (hcount : function.arity.accepts arguments.length = true)
    (h : functionTable.apply function arguments = .ok e) (m : Mark) :
    m ∈ e.marks ↔ (function.readsClock = true ∧ m = clock) ∨ ∃ a ∈ arguments, m ∈ a.marks := by
  have hgathers : ∀ handler : FunctionHandler Expr, Gathers handler →
      function.readsClock = false → handler function arguments = .ok e →
      (m ∈ e.marks ↔ (function.readsClock = true ∧ m = clock) ∨ ∃ a ∈ arguments, m ∈ a.marks) := by
    intro handler hhandler hclock hcompiled
    rw [hclock, hhandler function arguments e hcompiled m]
    simp only [Bool.false_eq_true, false_and, false_or]
  have hfixed : ∀ value : Expr, value.marks = [clock] → function.readsClock = true →
      function.arity = .none → fixed value function arguments = .ok e →
      (m ∈ e.marks ↔ (function.readsClock = true ∧ m = clock) ∨ ∃ a ∈ arguments, m ∈ a.marks) := by
    intro value hvalue hclock harity hcompiled
    -- A function of time takes no arguments.
    rw [harity] at hcount
    have hnil : arguments = [] := List.length_eq_zero_iff.mp (beq_iff_eq.mp hcount)
    rw [← Except.ok.inj hcompiled, hvalue, hclock, hnil]
    simp only [List.mem_singleton, true_and, List.not_mem_nil, false_and, exists_false, or_false]
  cases function with
  | abs => exact hgathers _ (unary_gathers .abs) rfl h
  | sqrt => exact hgathers _ (unary_gathers .sqrt) rfl h
  | mod => exact hgathers _ (variadic_gathers .mod) rfl h
  | concat => exact hgathers _ (variadic_gathers .concat) rfl h
  | substring => exact hgathers _ substring_gathers rfl h
  | trim => exact hgathers _ (trimming_gathers .both) rfl h
  | ltrim => exact hgathers _ (trimming_gathers .left) rfl h
  | rtrim => exact hgathers _ (trimming_gathers .right) rfl h
  | length => exact hgathers _ (unary_gathers .length) rfl h
  | locate => exact hgathers _ location_gathers rfl h
  | lower => exact hgathers _ (unary_gathers .lower) rfl h
  | upper => exact hgathers _ (unary_gathers .upper) rfl h
  | currentDate => exact hfixed _ marks_today rfl rfl h
  | currentTime => exact hfixed _ marks_timeOfDay rfl rfl h
  | currentTimestamp => exact hfixed _ marks_now rfl rfl h
  | coalesce => exact hgathers _ firstPresent_gathers rfl h
  | nullif => exact hgathers _ nullWhenEqual_gathers rfl h
  | count => exact hgathers _ counting_gathers rfl h
  | sum => exact hgathers _ (unary_gathers .sum) rfl h
  | avg => exact hgathers _ (unary_gathers .average) rfl h
  | min => exact hgathers _ (unary_gathers .least) rfl h
  | max => exact hgathers _ (unary_gathers .greatest) rfl h

end Calls

end Mongo

end Polyquery
