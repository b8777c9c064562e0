import Polyquery.Query.Preprocess

/-!
# Queries and Their Parts

What can be got hold of in a query, from the query itself down to the path of a
property, and the rule that each kind of part has to keep. The rules are local:
a comparison has a value if its operator takes one, a call has as many arguments
as its function takes, a path is not blank. That they are kept at every level is
said once, by following the parts (`Component.Within`), and not by one more
recursion for every type.

Parts are what the accessors of a value return. A list of columns returns its
names as properties, so these are parts as well. The edits of a preprocessor are
among the parts of a query: they are not yet part of what it says but may become
so. An advanced query in the making is a value of its own, because it need not
keep the rule of a finished one.

## Main definitions

* `Component`: A query or a part of one.
* `Component.parts`: What can be read off.
* `Component.Within`: Everything that can be read off in several steps.
* `Component.Everywhere`: What holds at all levels.
* `Component.Lawful`: The rule of a part.
* `Component.Sound`: All rules at all levels.
* `Query.Each`, `AdvancedQuery.Each`: What holds of each part of a query.
* `Query.Sound`, `AdvancedQuery.Sound`: Queries with sound parts.

## Theorems

* `everywhere_iff`, `sound_iff`: A value by itself and its parts.
* `sound_property`, `sound_call`, `sound_comparison`, `sound_not`,
  `sound_columns`, `sound_page` and their siblings: Parts of queries.
* `sound_plain`, `sound_builder`, `sound_advanced`: Queries.
-/

namespace Polyquery

/-- A query, or a part of a query that can be held by itself. -/
inductive Component where
  | expression (value : Expression)
  | argument (value : Argument)
  | operand (value : ConditionValue)
  | comparison (leaf : SimpleCondition)
  | condition (value : Condition)
  | sortKey (key : SortKey)
  | columns (list : ExpressionList)
  | selection (selection : Selection)
  | page (page : Pagination)
  | edit (edit : Edit)
  | preprocessor (preprocessor : Preprocessor)
  /-- An advanced query in the making. -/
  | builder (query : AdvancedQuery)
  | query (query : AnyQuery)

/-- The parts of an edit. -/
def Edit.parts : Edit → List Component
  | .setFilter c | .andFilter c | .orFilter c | .setHaving c => [.condition c]
  | .setGroupBy columns | .setSelect columns => [.selection columns]
  | .addSort key => [.sortKey key]
  | .setSorts keys => keys.map .sortKey
  | .setPagination page => [.page page]
  | .addPreprocessor stamp name edits => [.preprocessor ⟨stamp, name, edits⟩]
  | .negateFilter | .setDistinct _ | .addCustomizer _ => []

/-- The parts of a plain query. -/
def Query.parts (q : Query) : List Component :=
  q.filter.toList.map .condition ++ q.sorts.map .sortKey ++ q.pagination.toList.map .page ++
    q.select.toList.map .selection ++ q.preprocessors.map .preprocessor

/-- The parts of an advanced query. -/
def AdvancedQuery.parts (q : AdvancedQuery) : List Component :=
  q.toQuery.parts ++ q.groupBy.toList.map .selection ++ q.having.toList.map .condition

namespace Component

/-- What can be read off a value. -/
def parts : Component → List Component
  | .expression (.property _ _) => []
  | .expression (.call _ arguments _) => arguments.map .argument
  | .argument (.expression value) => [.expression value]
  | .argument (.literal _) => []
  | .operand _ => []
  | .comparison leaf => .expression leaf.left :: leaf.value.toList.map .operand
  | .condition (.simple leaf) => [.comparison leaf]
  | .condition (.and children) => children.map .condition
  | .condition (.or children) => children.map .condition
  | .condition (.not child) => [.condition child]
  | .condition (.native _) => []
  | .sortKey (.simple key) => [.expression key.expression]
  | .sortKey (.native _) => []
  | .columns list => list.effective.map .expression
  | .selection (.items list) => [.columns list]
  | .selection (.native _) => []
  | .page _ => []
  | .edit e => e.parts
  | .preprocessor p => p.edits.map .edit
  | .builder q => q.parts
  | .query (.plain q) => q.parts
  | .query (.advanced q) => q.parts

/-- Everything that can be read off a value in any number of steps, the value included. -/
inductive Within (v : Component) : Component → Prop where
  | self : Within v v
  | part (w p) (h : Within v w) (hp : p ∈ w.parts) : Within v p

/-- The rule that a value has to keep, apart from those of its parts. -/
def Lawful : Component → Prop
  | .expression (.property path _) => Text.isBlank path = false
  | .expression (.call function arguments _) => function.arity.accepts arguments.length = true
  | .operand (.field path) => Text.isBlank path = false
  | .comparison leaf =>
    (leaf.value = none ↔ leaf.operator = .isNull ∨ leaf.operator = .isNotNull) ∧
    (∀ values, leaf.value = some (.list values) →
      leaf.operator = .isIn ∨ leaf.operator = .notIn) ∧
    ∀ path, leaf.value = some (.field path) →
      leaf.operator ∈ [.equals, .notEquals, .greaterThan, .greaterThanEquals, .lesserThan,
        .lesserThanEquals]
  | .condition (.not child) => ∀ piece, child ≠ .native piece
  | .columns list => ∀ name ∈ list.names, Text.isBlank name = false
  | .page p => 1 ≤ p.page ∧ 1 ≤ p.size ∧ p.size ≤ maxRows ∧ p.offset ≤ maxRows
  | .query (.advanced q) => q.hasHaving = true → q.hasGroupBy = true
  | _ => True

/-- What holds of a value and of everything that can be read off it. -/
def Everywhere (P : Component → Prop) (v : Component) : Prop :=
  ∀ w, v.Within w → P w

/-- A value that keeps its rule, and so does everything that can be read off it. -/
def Sound (v : Component) : Prop :=
  v.Everywhere Lawful

theorem within_part {v p w : Component} (hp : p ∈ v.parts) (h : p.Within w) : v.Within w := by
  induction h with
  | self => exact .part v p .self hp
  | part w q _ hq ih => exact .part w q ih hq

theorem within_iff {v w : Component} :
    v.Within w ↔ v = w ∨ ∃ p ∈ v.parts, p.Within w := by
  constructor
  · intro h
    induction h with
    | self => exact .inl rfl
    | part w q _ hq ih =>
        rcases ih with rfl | ⟨p, hp, hw⟩
        · exact .inr ⟨q, hq, .self⟩
        · exact .inr ⟨p, hp, .part w q hw hq⟩
  · rintro (rfl | ⟨p, hp, hw⟩)
    · exact .self
    · exact within_part hp hw

/-- What holds everywhere holds of the value itself and everywhere in its parts. -/
theorem everywhere_iff {P : Component → Prop} {v : Component} :
    v.Everywhere P ↔ P v ∧ ∀ p ∈ v.parts, p.Everywhere P := by
  constructor
  · intro h
    exact ⟨h v .self, fun p hp w hw => h w (within_part hp hw)⟩
  · rintro ⟨hself, hparts⟩ w hw
    rcases within_iff.mp hw with rfl | ⟨p, hp, hpw⟩
    · exact hself
    · exact hparts p hp w hpw

theorem Everywhere.self {P : Component → Prop} {v : Component} (h : v.Everywhere P) : P v :=
  (everywhere_iff.mp h).1

theorem Everywhere.part {P : Component → Prop} {v p : Component} (h : v.Everywhere P)
    (hp : p ∈ v.parts) : p.Everywhere P :=
  (everywhere_iff.mp h).2 p hp

/-- A value is sound when it keeps its rule and its parts are sound. -/
theorem sound_iff {v : Component} : v.Sound ↔ v.Lawful ∧ ∀ p ∈ v.parts, p.Sound :=
  everywhere_iff

section Counted

variable {P : Component → Prop} {v : Component}

theorem everywhere_none (hparts : v.parts = []) : v.Everywhere P ↔ P v := by
  rw [everywhere_iff, hparts]
  exact and_iff_left fun p hp => absurd hp List.not_mem_nil

theorem everywhere_one {p : Component} (hself : P v) (hparts : v.parts = [p]) :
    v.Everywhere P ↔ p.Everywhere P := by
  rw [everywhere_iff, hparts, List.forall_mem_singleton]
  exact and_iff_right hself

theorem everywhere_all {α : Type} {f : α → Component} {as : List α} (hself : P v)
    (hparts : v.parts = as.map f) : v.Everywhere P ↔ ∀ a ∈ as, (f a).Everywhere P := by
  rw [everywhere_iff, hparts, List.forall_mem_map]
  exact and_iff_right hself

end Counted

end Component

open Component

section Parts

theorem sound_property (path : String) (label : Option String) :
    (expression (.property path label)).Sound ↔ Text.isBlank path = false :=
  everywhere_none rfl

theorem sound_call (function : Function) (arguments : List Argument) (label : Option String) :
    (expression (.call function arguments label)).Sound ↔
      function.arity.accepts arguments.length = true ∧ ∀ a ∈ arguments, (argument a).Sound := by
  rw [sound_iff]
  exact and_congr_right fun _ => List.forall_mem_map

theorem sound_argument (value : Expression) :
    (argument (.expression value)).Sound ↔ (expression value).Sound :=
  everywhere_one trivial rfl

theorem sound_literal (literal : Literal) : (argument (.literal literal)).Sound :=
  (everywhere_none rfl).mpr trivial

theorem sound_operand (value : ConditionValue) : (operand value).Sound ↔ (operand value).Lawful :=
  everywhere_none rfl

theorem sound_comparison (leaf : SimpleCondition) :
    (comparison leaf).Sound ↔ (comparison leaf).Lawful ∧ (expression leaf.left).Sound ∧
      ∀ v, leaf.value = some v → (operand v).Sound := by
  have hparts : (comparison leaf).parts =
    expression leaf.left :: leaf.value.toList.map operand := rfl
  rw [sound_iff, hparts]
  simp only [List.forall_mem_cons, List.forall_mem_map, Option.mem_toList]

theorem sound_simple (leaf : SimpleCondition) :
    (condition (.simple leaf)).Sound ↔ (comparison leaf).Sound :=
  everywhere_one trivial rfl

theorem sound_and (children : List Condition) :
    (condition (.and children)).Sound ↔ ∀ child ∈ children, (condition child).Sound :=
  everywhere_all trivial rfl

theorem sound_or (children : List Condition) :
    (condition (.or children)).Sound ↔ ∀ child ∈ children, (condition child).Sound :=
  everywhere_all trivial rfl

theorem sound_not (child : Condition) :
    (condition (.not child)).Sound ↔
      (∀ piece, child ≠ .native piece) ∧ (condition child).Sound := by
  rw [sound_iff]
  exact and_congr_right fun _ => List.forall_mem_singleton

theorem sound_native (piece : Native) : (condition (.native piece)).Sound :=
  (everywhere_none rfl).mpr trivial

theorem sound_sort (key : SimpleSort) :
    (sortKey (.simple key)).Sound ↔ (expression key.expression).Sound :=
  everywhere_one trivial rfl

theorem sound_nativeSort (piece : Native) : (sortKey (.native piece)).Sound :=
  (everywhere_none rfl).mpr trivial

/-- The names of a list are as sound as the properties that they stand for. -/
theorem sound_columns (list : ExpressionList) :
    (columns list).Sound ↔ (∀ name ∈ list.names, Text.isBlank name = false) ∧
      ∀ x ∈ list.expressions, (expression x).Sound := by
  have hparts : (columns list).parts = list.effective.map expression := rfl
  have hlawful : (columns list).Lawful ↔ ∀ name ∈ list.names, Text.isBlank name = false := Iff.rfl
  rw [sound_iff, hparts, hlawful]
  simp only [ExpressionList.effective, List.forall_mem_map, List.forall_mem_append, sound_property]
  exact ⟨fun h => ⟨h.1, h.2.2⟩, fun h => ⟨h.1, h.1, h.2⟩⟩

theorem sound_items (list : ExpressionList) :
    (selection (.items list)).Sound ↔ (columns list).Sound :=
  everywhere_one trivial rfl

theorem sound_nativeSelection (piece : Native) : (selection (.native piece)).Sound :=
  (everywhere_none rfl).mpr trivial

/-- A page carries its bounds with it, so every page is sound. The offset is computed in 64 bits
    and still within them. -/
theorem sound_page (p : Pagination) : (page p).Sound := by
  have hoffset := p.offset_le
  rw [Nat.mul_comm] at hoffset
  exact (everywhere_none rfl).mpr ⟨p.one_le_page, p.one_le_size, p.size_le,
    Nat.le_trans (Nat.min_le_left _ _) hoffset⟩

theorem sound_preprocessor (p : Preprocessor) :
    (preprocessor p).Sound ↔ ∀ e ∈ p.edits, (edit e).Sound :=
  everywhere_all trivial rfl

theorem sound_edit (e : Edit) : (edit e).Sound ↔ ∀ p ∈ e.parts, p.Sound := by
  rw [sound_iff]
  exact and_iff_right trivial

end Parts

section Queries

variable {P : Component → Prop}

/-- What holds of each part of a plain query. -/
structure Query.Each (P : Component → Prop) (q : Query) : Prop where
  filter : ∀ c, q.filter = some c → P (condition c)
  sorts : ∀ key ∈ q.sorts, P (sortKey key)
  pagination : ∀ p, q.pagination = some p → P (page p)
  select : ∀ columns, q.select = some columns → P (selection columns)
  preprocessors : ∀ p ∈ q.preprocessors, P (preprocessor p)

/-- What holds of each part of an advanced query. -/
structure AdvancedQuery.Each (P : Component → Prop) (q : AdvancedQuery) : Prop where
  query : q.toQuery.Each P
  groupBy : ∀ columns, q.groupBy = some columns → P (selection columns)
  having : ∀ c, q.having = some c → P (condition c)

/-- A lifted query has the parts of the plain one, apart from its preprocessors. -/
theorem Query.Each.lift {q : Query} (h : q.Each P) : (AdvancedQuery.ofQuery q).Each P where
  query := { h with preprocessors := fun _ hp => absurd hp List.not_mem_nil }
  groupBy _ hcolumns := absurd hcolumns
    (by simp only [AdvancedQuery.ofQuery, reduceCtorEq, not_false_eq_true])
  having _ hc := absurd hc
    (by simp only [AdvancedQuery.ofQuery, reduceCtorEq, not_false_eq_true])

theorem Query.forall_parts (q : Query) : (∀ p ∈ q.parts, P p) ↔ q.Each P := by
  simp only [Query.parts, List.forall_mem_append, List.forall_mem_map, Option.mem_toList]
  exact ⟨fun ⟨⟨⟨⟨hfilter, hsorts⟩, hpagination⟩, hselect⟩, hpreprocessors⟩ =>
    ⟨hfilter, hsorts, hpagination, hselect, hpreprocessors⟩,
    fun h => ⟨⟨⟨⟨h.filter, h.sorts⟩, h.pagination⟩, h.select⟩, h.preprocessors⟩⟩

theorem AdvancedQuery.forall_parts (q : AdvancedQuery) : (∀ p ∈ q.parts, P p) ↔ q.Each P := by
  simp only [AdvancedQuery.parts, List.forall_mem_append, List.forall_mem_map, Option.mem_toList,
    Query.forall_parts]
  exact ⟨fun ⟨⟨hquery, hgroupBy⟩, hhaving⟩ => ⟨hquery, hgroupBy, hhaving⟩,
    fun h => ⟨⟨h.query, h.groupBy⟩, h.having⟩⟩

/-- A plain query whose parts are sound. -/
abbrev Query.Sound (q : Query) : Prop :=
  q.Each Component.Sound

/-- An advanced query whose parts are sound. -/
abbrev AdvancedQuery.Sound (q : AdvancedQuery) : Prop :=
  q.Each Component.Sound

theorem sound_plain (q : Query) : (query (.plain q)).Sound ↔ q.Sound := by
  rw [sound_iff, Query.Sound, ← q.forall_parts]
  exact and_iff_right trivial

theorem sound_builder (q : AdvancedQuery) : (builder q).Sound ↔ q.Sound := by
  rw [sound_iff, AdvancedQuery.Sound, ← q.forall_parts]
  exact and_iff_right trivial

/-- A finished advanced query groups if it filters groups. -/
theorem sound_advanced (q : AdvancedQuery) :
    (query (.advanced q)).Sound ↔ (q.hasHaving = true → q.hasGroupBy = true) ∧ q.Sound := by
  rw [sound_iff, AdvancedQuery.Sound, ← q.forall_parts]
  exact Iff.rfl

end Queries

end Polyquery
