import Polyquery.Proofs.Condition.Rendering
import Polyquery.Proofs.Query.Customizers
import Polyquery.Proofs.Query.Natives
import Polyquery.Sql.Select

/-!
# Native Pieces in SQL

A piece of SQL comes out of a query as it went in. In a filter it stands where the
condition has it; among the sort keys it keeps its position and its direction; and the
columns and the group keys of a native selection are all columns and all group keys of
the statement.

Which payloads are pieces of SQL is a matter of the tables of the backend, and
`accepts` lists them: these payloads and no others have an entry in the table of their
place (`accepts_iff`).

## Main definitions

* `Sql.accepts`, `Sql.Resolves`: The payloads that are translated at a place.
* `Sql.rawTest`: A native condition in a statement.
* `Sql.Joined`: A test in a larger one.
* `Sql.Carries`: A statement with everything native in its place.

## Theorems

* `Sql.nativeFilters_iff`, `Sql.nativeColumns_iff`, `Sql.nativeOrders_iff`: The tables.
* `Sql.accepts_iff`: The payloads in the tables.
* `Sql.Carries.translated`: What a statement carries is translated.
* `Sql.renders`, `Sql.gathers`: Native pieces in filters.
* `Sql.sortClause_walk`: The sort keys of a statement.
* `Sql.compileParts_carries`: The statement of a query.
-/

namespace Polyquery.Sql

/-- The pieces of SQL in a payload for a list of columns. -/
def columnTexts? : Payload → Option (List String)
  | .sqlText text => some [text]
  | .sqlTexts texts => some texts
  | _ => none

/-- The payloads that a statement is made of. -/
def accepts : NativePosition → Payload → Bool
  | .condition, .sqlText _ => true
  | .sort, .sqlOrder _ _ => true
  | .select, .sqlText _ => true
  | .select, .sqlTexts _ => true
  | .groupBy, .sqlText _ => true
  | .groupBy, .sqlTexts _ => true
  | _, _ => false

/-- The table of a place makes something of a piece. -/
def Resolves : NativePosition → Native → Prop
  | .condition, piece => ∃ e, nativeFilters.resolve piece = .ok e
  | .sort, piece => ∃ order, nativeOrders.resolve piece = .ok order
  | .select, piece => ∃ es, nativeColumns.resolve piece = .ok es
  | .groupBy, piece => ∃ es, nativeColumns.resolve piece = .ok es

section Tables

theorem nativeFilters_iff (piece : Native) (e : Expr) :
    nativeFilters.resolve piece = .ok e ↔
      ∃ text, piece.payload = .sqlText text ∧ e = .raw text := by
  rcases piece with ⟨stamp, name, payload⟩
  rw [NativeTable.resolve_eq_ok]
  cases payload <;>
    simp [nativeFilters, NativeTable.accept, NativeTable.empty, Payload.asSqlText?, eq_comm]

theorem nativeColumns_iff (piece : Native) (es : List Expr) :
    nativeColumns.resolve piece = .ok es ↔
      ∃ texts, columnTexts? piece.payload = some texts ∧ es = texts.map .raw := by
  rcases piece with ⟨stamp, name, payload⟩
  rw [NativeTable.resolve_eq_ok]
  cases payload <;>
    simp [nativeColumns, NativeTable.accept, NativeTable.empty, Payload.asSqlText?,
      Payload.asSqlTexts?, columnTexts?, eq_comm]

theorem nativeOrders_iff (piece : Native) (order : Expr × Direction) :
    nativeOrders.resolve piece = .ok order ↔
      ∃ text direction, piece.payload = .sqlOrder text direction ∧
        order = (.raw text, direction) := by
  rcases piece with ⟨stamp, name, payload⟩
  rw [NativeTable.resolve_eq_ok]
  cases payload <;>
    simp [nativeOrders, NativeTable.accept, NativeTable.empty, Payload.asSqlOrder?, eq_comm]

/-- The accepted payloads are those of which the tables make something. -/
theorem accepts_iff (position : NativePosition) (piece : Native) :
    accepts position piece.payload = true ↔ Resolves position piece := by
  rcases piece with ⟨stamp, name, payload⟩
  cases position <;> cases payload <;>
    simp [accepts, Resolves, nativeFilters_iff, nativeColumns_iff, nativeOrders_iff, columnTexts?]

theorem accepts_columns {payload : Payload} {texts : List String}
    (h : columnTexts? payload = some texts) :
    accepts .select payload = true ∧ accepts .groupBy payload = true := by
  cases payload with
  | sqlText text => exact ⟨rfl, rfl⟩
  | sqlTexts texts => exact ⟨rfl, rfl⟩
  | _ => exact absurd h (by rintro ⟨⟩)

end Tables

/-- A native condition is its text. A piece of any other kind has none, and no statement is made
    with it. -/
def rawTest (piece : Native) : Expr :=
  .raw (piece.payload.asSqlText?.getD "")

/-- A test is joined with others into a larger one, or with none. -/
inductive Joined (test : Expr) : Expr → Prop where
  | alone : Joined test test
  | andLeft (left right : Expr) (h : Joined test left) : Joined test (.and left right)
  | andRight (left right : Expr) (h : Joined test right) : Joined test (.and left right)
  | orLeft (left right : Expr) (h : Joined test left) : Joined test (.or left right)
  | orRight (left right : Expr) (h : Joined test right) : Joined test (.or left right)

variable (schema : Schema) (root : String)

/-- A sort key as it stands in a statement. A native one keeps its text and its direction. -/
def Ordered : SortKey → Expr × Direction → Prop
  | .simple key, entry =>
    ofExpression schema root key.expression = .ok entry.1 ∧ entry.2 = key.direction
  | .native piece, entry =>
    ∃ text direction, piece.payload = .sqlOrder text direction ∧ entry = (.raw text, direction)

/-- A statement with everything native that a query has, each piece in its place. -/
structure Carries (q : AdvancedQuery) (s : Statement) : Prop where
  filter : (interpretation schema root).FilterOf rawTest Joined q.filter s.filter
  having : (interpretation schema root).FilterOf rawTest Joined q.having s.having
  sorts : List.Forall₂ (Ordered schema root) q.sorts s.orderBy
  select : ∀ piece, q.select = some (.native piece) → ∃ texts,
    columnTexts? piece.payload = some texts ∧ s.items = texts.map fun text => .unnamed (.raw text)
  groupBy : ∀ piece, q.groupBy = some (.native piece) → ∃ texts,
    columnTexts? piece.payload = some texts ∧ s.groupBy = texts.map .raw

/-- What a statement carries is of kinds that are translated. -/
theorem Carries.translated {schema : Schema} {root : String} {q : AdvancedQuery} {s : Statement}
    (h : Carries schema root q s) (hfilter : TranslatedIn accepts q.filter)
    (hhaving : TranslatedIn accepts q.having) : q.Translated accepts := by
  refine ⟨hfilter, hhaving, forall_native h.sorts ?_, ?_, ?_⟩
  · rintro piece entry ⟨text, direction, hpayload, _⟩
    rw [hpayload]
    rfl
  · intro piece hpiece
    rcases h.select piece hpiece with ⟨texts, htexts, _⟩
    exact (accepts_columns htexts).1
  · intro piece hpiece
    rcases h.groupBy piece hpiece with ⟨texts, htexts, _⟩
    exact (accepts_columns htexts).2

theorem renders : (interpretation schema root).Renders rawTest where
  simple := fun _ _ => rfl
  native := by
    intro piece e h
    rcases (nativeFilters_iff piece e).mp h with ⟨text, htext, rfl⟩
    rw [rawTest, htext]
    rfl

/-- Tests are joined from the left, two at a time. What is joined to the first tests stays in all
    that comes of them. -/
theorem joined_foldl {join : Expr → Expr → Expr} {test : Expr}
    (hleft : ∀ left right, Joined test left → Joined test (join left right))
    (hright : ∀ left right, Joined test right → Joined test (join left right)) (rest : List Expr) :
    ∀ first, (∃ part ∈ first :: rest, Joined test part) → Joined test (rest.foldl join first) := by
  induction rest with
  | nil =>
      rintro first ⟨part, hmem, hpart⟩
      rw [List.mem_singleton.mp hmem] at hpart
      exact hpart
  | cons second rest ih =>
      rintro first ⟨part, hmem, hpart⟩
      refine ih (join first second) ?_
      rcases List.mem_cons.mp hmem with rfl | hmem
      · exact ⟨_, List.mem_cons_self, hleft part second hpart⟩
      · rcases List.mem_cons.mp hmem with rfl | hrest
        · exact ⟨_, List.mem_cons_self, hright first part hpart⟩
        · exact ⟨part, List.mem_cons_of_mem _ hrest, hpart⟩

theorem gathers : (interpretation schema root).Gathers Joined where
  alone := fun _ => .alone
  joined := by
    intro connective parts part test hmem hpart
    cases parts with
    | nil => exact absurd hmem List.not_mem_nil
    | cons first rest =>
        cases connective with
        | and => exact joined_foldl .andLeft .andRight rest first ⟨part, hmem, hpart⟩
        | or => exact joined_foldl .orLeft .orRight rest first ⟨part, hmem, hpart⟩

/-- The sort keys in order. None is selected beside a native selection. -/
theorem sortClause_walk (distinct : Bool) (projection : Projection) :
    SortWalk (sortClauseFrom schema root distinct projection) (Ordered schema root)
      (fun _ entries clause => clause.orderBy = entries ∧
        ((∃ piece, projection = .native piece) → clause.hidden = [])) where
  nil := by
    intro index clause h
    rw [← Except.ok.inj h]
    exact ⟨rfl, fun _ => rfl⟩
  cons := by
    intro index key rest clause h
    cases key with
    | simple key =>
        rcases bind_eq_ok.mp h with ⟨value, hvalue, h⟩
        rcases bind_eq_ok.mp h with ⟨others, hothers, h⟩
        refine ⟨index + 1, (value, key.direction), others, ⟨hvalue, rfl⟩, hothers, ?_⟩
        rintro entries ⟨hentries, hhidden⟩
        rw [← Except.ok.inj h]
        refine ⟨congrArg _ hentries, ?_⟩
        rintro ⟨piece, rfl⟩
        -- A native select counts as selecting every sort key, so no item is hidden for it.
        simp only [isSelected, Bool.not_true, Bool.and_false, Bool.false_eq_true, if_false,
          List.nil_append, hhidden ⟨piece, rfl⟩]
    | native piece =>
        rcases bind_eq_ok.mp h with ⟨order, horder, h⟩
        rcases bind_eq_ok.mp h with ⟨others, hothers, h⟩
        refine ⟨index + 1, order, others, (nativeOrders_iff piece order).mp horder, hothers, ?_⟩
        rintro entries ⟨hentries, hhidden⟩
        rw [← Except.ok.inj h]
        exact ⟨congrArg _ hentries, hhidden⟩

theorem selectItems_native (piece : Native) (items : List Item)
    (h : selectItems schema root (.native piece) = .ok items) :
    ∃ texts, columnTexts? piece.payload = some texts ∧
      items = texts.map fun text => .unnamed (.raw text) := by
  rcases map_eq_ok.mp h with ⟨es, hes, rfl⟩
  rcases (nativeColumns_iff piece es).mp hes with ⟨texts, htexts, rfl⟩
  exact ⟨texts, htexts, List.map_map⟩

/-- In a query with a statement every native piece is translated. Before it is customized, the
    statement has all of them in their places. -/
theorem compileParts_carries (q : AnyQuery) (compiled : Compiled)
    (h : compileParts schema root (q.effective.withCustomizers []) = .ok compiled) :
    q.lift.Translated accepts ∧ Carries schema root q.lift compiled.statement := by
  rcases bind_eq_ok.mp h with ⟨plan, _, h⟩
  rcases bind_eq_ok.mp h with ⟨projection, hprojection, h⟩
  rcases bind_eq_ok.mp h with ⟨items, hitems, h⟩
  rcases bind_eq_ok.mp h with ⟨filter, hfilter, h⟩
  rcases bind_eq_ok.mp h with ⟨groupBy, hgroupBy, h⟩
  rcases bind_eq_ok.mp h with ⟨having, hhaving, h⟩
  rcases bind_eq_ok.mp h with ⟨sorts, hsorts, h⟩
  rcases (sortClause_walk schema root _ projection).entries _ _ sorts hsorts with
    ⟨entries, hentries, rfl, hhidden⟩
  have hcarries : Carries schema root q.lift compiled.statement := by
    -- Without customizers the statement is as it was put together.
    rw [← Except.ok.inj h]
    constructor
    case filter => exact filterOf_of_filter (renders schema root) (gathers schema root) hfilter
    case having => exact filterOf_of_filter (renders schema root) (gathers schema root) hhaving
    case sorts => exact hentries
    case select =>
      intro piece hpiece
      have hnative := projection_native (select_effective hpiece) hprojection
      rw [hnative] at hitems
      rcases selectItems_native schema root piece items hitems with ⟨texts, htexts, rfl⟩
      refine ⟨texts, htexts, ?_⟩
      change _ ++ sorts.hidden = _
      rw [hhidden ⟨piece, hnative⟩, List.append_nil]
    case groupBy =>
      intro piece hpiece
      change groupKeys schema root (effectiveSelection q.lift.groupBy) = _ at hgroupBy
      rw [select_effective hpiece] at hgroupBy
      exact (nativeColumns_iff piece groupBy).mp hgroupBy
  have haccepts : ∀ piece e, (interpretation schema root).native piece = .ok e →
      accepts .condition piece.payload = true :=
    fun piece e he => (accepts_iff .condition piece).mpr ⟨e, he⟩
  exact ⟨hcarries.translated (translatedIn_of_filter haccepts hfilter)
    (translatedIn_of_filter haccepts hhaving), hcarries⟩

end Polyquery.Sql
