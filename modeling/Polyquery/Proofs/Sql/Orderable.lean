import Polyquery.Proofs.Backend.GeneratedNames
import Polyquery.Proofs.Sql.Natives
import Polyquery.Proofs.Text.Dotted

/-!
# Orders of Distinct Rows

A statement that selects distinct rows can be sorted by nothing but what it selects. The
database looks for the expressions of its order in the select list as they stand there,
while the compiler goes by expression strings before anything is compiled. The two agree as
long as an expression string says what is compiled. It leaves out aliases, and so does
compiling (`text_bare`, `ofExpression_bare`). What else two expressions with one string can
differ in is asked about as a hypothesis, and only of a sort key and a column.

A sort key that is found among the columns is therefore compiled to the expression of a
column. Every other one is selected under a name of its own, and there is nothing else in the
select list. Whole records are selected by the columns of the root table. A path of one segment
leads to one of these.

## Main definitions

* `Expression.bare`: An expression without its aliases.
* `Projection.Selects`: What a projection selects by itself.
* `Sql.SortsBy`, `Sql.ItemFor`: What a sort key contributes to a statement.
* `Sql.Orderable`: A statement whose order can be found in its select list.

## Theorems

* `text_bare`, `Sql.ofExpression_bare`: Aliases have no part in strings and statements.
* `Sql.isSelected_iff`, `Sql.selected_shown`: Sort keys that are selected already.
* `Sql.sortClause_orders`, `Sql.sortClause_items`: The clause of sort keys.
* `Sql.compileParts_orderable`, `Sql.distinct_orderable`: The order of distinct rows.
-/

namespace Polyquery

section Aliases

mutual

/-- An expression without its aliases, those inside of it included. -/
def Expression.bare : Expression → Expression
  | .property path _ => .property path none
  | .call function arguments _ => .call function (Argument.bareAll arguments) none

/-- Arguments without their aliases. -/
def Argument.bareAll : List Argument → List Argument
  | [] => []
  | .expression value :: rest => .expression value.bare :: Argument.bareAll rest
  | .literal value :: rest => .literal value :: Argument.bareAll rest

end

mutual

/-- An expression string does not have the aliases in it. -/
theorem text_bare : ∀ x : Expression, x.bare.text = x.text
  | .property _ _ => rfl
  | .call function arguments _ => by
      simp only [Expression.bare, Expression.text, argumentTexts_bare arguments]

theorem argumentTexts_bare : ∀ arguments : List Argument,
    Expression.argumentTexts (Argument.bareAll arguments) = Expression.argumentTexts arguments
  | [] => rfl
  | .expression value :: rest => by
      simp only [Argument.bareAll, Expression.argumentTexts, text_bare value,
        argumentTexts_bare rest]
  | .literal value :: rest => by
      simp only [Argument.bareAll, Expression.argumentTexts, argumentTexts_bare rest]

end

/-- Expressions that differ in nothing but aliases have one string. -/
theorem text_of_bare {x y : Expression} (h : x.bare = y.bare) : x.text = y.text := by
  rw [← text_bare x, h, text_bare y]

end Aliases

/-- What a projection selects by itself: whole records have the properties of their own, and
    columns the expressions that they are made of, whatever the aliases. -/
def Projection.Selects (x : Expression) : Projection → Prop
  | .entity => ∃ path, x.path? = some path ∧ '.' ∉ path.toList
  | .items columns => ∃ column ∈ columns, column.2.bare = x.bare
  | .native _ => False

namespace Sql

variable (schema : Schema) (root : String)

section Compiling

mutual

/-- What an expression is compiled to does not depend on its aliases. -/
theorem ofExpression_bare : ∀ x : Expression,
    ofExpression schema root x.bare = ofExpression schema root x
  | .property _ _ => by simp only [Expression.bare, ofExpression]
  | .call function arguments _ => by
      simp only [Expression.bare, ofExpression, ofArguments_bare arguments]

theorem ofArguments_bare : ∀ arguments : List Argument,
    ofArguments schema root (Argument.bareAll arguments) = ofArguments schema root arguments
  | [] => rfl
  | .expression value :: rest => by
      simp only [Argument.bareAll, ofArguments, ofExpression_bare value, ofArguments_bare rest]
  | .literal value :: rest => by
      simp only [Argument.bareAll, ofArguments, ofArguments_bare rest]

end

theorem ofExpression_of_bare {x y : Expression} (h : x.bare = y.bare) :
    ofExpression schema root x = ofExpression schema root y := by
  rw [← ofExpression_bare schema root x, h, ofExpression_bare schema root y]

/-- A path of one segment leads to a column of the root table. -/
theorem column_of_segment (path : String) (h : '.' ∉ path.toList) :
    column schema root path = .ok (.column (schema.tableName root) path) := by
  rw [column, Schema.resolve, Text.dotted_whole path h]
  rfl

end Compiling

section Selecting

variable {projection : Projection} {x : Expression}

/-- What is selected by its string is selected by the projection, if the string is that of no other
    column. -/
theorem isSelected_iff (hnative : ∀ piece, projection ≠ .native piece)
    (htexts : ∀ y ∈ projection.expressions, x.text = y.text → x.bare = y.bare) :
    isSelected projection x = true ↔ projection.Selects x := by
  cases projection with
  | native piece => exact absurd rfl (hnative piece)
  | entity =>
      -- Whole records select the columns of the root table, which are paths of one segment.
      cases hpath : x.path? with
      | none => simp only [isSelected, Projection.Selects, hpath, Bool.false_eq_true, reduceCtorEq,
          false_and, exists_false]
      | some path => simp only [isSelected, Projection.Selects, hpath, Bool.not_eq_true',
          List.contains_eq_mem, decide_eq_false_iff_not, Option.some.injEq, exists_eq_left']
  | items columns =>
      rw [isSelected, List.any_eq_true]
      -- For columns equal strings decide, which here belong to equal expressions only.
      constructor
      · rintro ⟨column, hcolumn, htext⟩
        have hmem : column.2 ∈ (Projection.items columns).expressions :=
          List.mem_map_of_mem hcolumn
        exact ⟨column, hcolumn, (htexts column.2 hmem (beq_iff_eq.mp htext).symm).symm⟩
      · rintro ⟨column, hcolumn, hbare⟩
        exact ⟨column, hcolumn, beq_iff_eq.mpr (text_of_bare hbare)⟩

/-- What a projection selects can be found in its select list. -/
theorem selected_shown (items : List Item) (hitems : selectItems schema root projection = .ok items)
    (value : Expr) (hvalue : ofExpression schema root x = .ok value)
    (hselected : projection.Selects x) :
    (projection = .entity ∧ .all (schema.tableName root) ∈ items ∧
        ∃ name, value = .column (schema.tableName root) name) ∨
      ∃ name, .named value name ∈ items := by
  -- Whole records show every column of the root, a list of columns shows what it names.
  cases projection with
  | native piece => exact hselected.elim
  | entity =>
      rcases hselected with ⟨path, hpath, hsegment⟩
      cases x with
      | call function arguments label => exact absurd hpath (by rintro ⟨⟩)
      | property other label =>
          obtain rfl : other = path := Option.some.inj hpath
          rw [ofExpression, column_of_segment schema root other hsegment] at hvalue
          rw [← Except.ok.inj hitems]
          exact .inl ⟨rfl, List.mem_cons_self, other, (Except.ok.inj hvalue).symm⟩
  | items columns =>
      rcases hselected with ⟨⟨name, y⟩, hcolumn, hbare⟩
      -- The column is compiled to the same expression, since it differs in aliases only.
      have hsame : ofExpression schema root y = .ok value :=
        (ofExpression_of_bare schema root hbare).trans hvalue
      rcases partner_of_forall₂ (forall₂_of_mapM hitems) (name, y) hcolumn with ⟨item, hmem, hitem⟩
      rcases map_eq_ok.mp hitem with ⟨other, hother, rfl⟩
      rw [Except.ok.inj (hsame.symm.trans hother)]
      exact .inr ⟨name, hmem⟩

end Selecting

/-- A sort key as a statement is sorted by it. -/
def SortsBy (key : SortKey) (order : Expr × Direction) : Prop :=
  ∃ simple, key = .simple simple ∧ ofExpression schema root simple.expression = .ok order.1 ∧
    order.2 = simple.direction

/-- An item that is selected for the sort key at a place, under the name of the place. -/
def ItemFor (keys : List SortKey) (place : Nat) (item : Item) : Prop :=
  ∃ key value, keys[place]? = some (.simple key) ∧
    ofExpression schema root key.expression = .ok value ∧ item = .named value (hiddenName place)

/-- A statement whose order can be found in its select list. Beside the items of its projection
    there is one for each sort key that the projection does not select, if rows are to be
    distinct, and none otherwise. -/
structure Orderable (parts : QueryParts) (projection : Projection) (items hidden : List Item)
    (places : List Nat) (s : Statement) : Prop where
  projected : parts.projection = .ok projection
  selected : selectItems schema root projection = .ok items
  distinct : s.distinct = parts.distinct
  list : s.items = items ++ hidden
  sorted : List.Forall₂ (SortsBy schema root) parts.sorts s.orderBy
  shown : parts.distinct = true → ∀ order ∈ s.orderBy,
    (projection = .entity ∧ .all (schema.tableName root) ∈ s.items ∧
        ∃ name, order.1 = .column (schema.tableName root) name) ∨
      ∃ name, .named order.1 name ∈ s.items
  added : List.Forall₂ (ItemFor schema root parts.sorts) places hidden
  ordered : places.Pairwise (· < ·)
  needed : ∀ place, place ∈ places ↔ parts.distinct = true ∧
    ∃ key, parts.sorts[place]? = some (.simple key) ∧ ¬ projection.Selects key.expression
  plain : parts.distinct = false → hidden = []

section Clause

variable (distinct : Bool) (projection : Projection)

/-- A statement is sorted by its sort keys, one by one. -/
theorem sortClause_orders (keys : List SortKey) (hnative : ∀ key ∈ keys, key.isNative = false)
    (index : Nat) (clause : SortClause)
    (h : sortClauseFrom schema root distinct projection index keys = .ok clause) :
    List.Forall₂ (SortsBy schema root) keys clause.orderBy := by
  rcases (sortClause_walk schema root distinct projection).entries keys index clause h with
    ⟨entries, hentries, rfl, _⟩
  refine ((List.forall₂_and_left _ _).mpr ⟨hnative, hentries⟩).imp ?_
  rintro (key | piece) order ⟨hkey, hordered⟩
  · exact ⟨key, rfl, hordered⟩
  · exact absurd hkey (by simp only [SortKey.isNative, reduceCtorEq, not_false_eq_true])

/-- The hidden items are those of the places that need one, where the first place has the given
    index. -/
theorem sortClause_items (before keys : List SortKey) (clause : SortClause)
    (h : sortClauseFrom schema root distinct projection before.length keys = .ok clause) :
    List.Forall₂ (ItemFor schema root (before ++ keys))
      (hiddenPlaces distinct projection before.length keys) clause.hidden := by
  induction keys generalizing before clause with
  | nil =>
      rw [← Except.ok.inj h]
      exact .nil
  | cons key rest ih =>
      -- For the later keys this one has been passed, which is what the index counts.
      have hlater : ∀ others, sortClauseFrom schema root distinct projection (before.length + 1)
          rest = .ok others → List.Forall₂ (ItemFor schema root (before ++ key :: rest))
            (hiddenPlaces distinct projection (before.length + 1) rest) others.hidden := by
        intro others hothers
        have hrest := ih (before ++ [key]) others
          (by rw [List.length_append, List.length_singleton]; exact hothers)
        rwa [List.length_append, List.length_singleton, List.append_assoc,
          List.singleton_append] at hrest
      rw [hiddenPlaces_cons]
      cases key with
      | native piece =>
          rcases bind_eq_ok.mp h with ⟨order, _, h⟩
          rcases bind_eq_ok.mp h with ⟨others, hothers, h⟩
          rw [← Except.ok.inj h]
          exact hlater others hothers
      | simple key =>
          rcases bind_eq_ok.mp h with ⟨value, hvalue, h⟩
          rcases bind_eq_ok.mp h with ⟨others, hothers, h⟩
          rw [← Except.ok.inj h]
          refine List.rel_append ?_ (hlater others hothers)
          rw [needsItem]
          split
          · refine .cons ⟨key, value, ?_, hvalue, rfl⟩ .nil
            rw [List.getElem?_append_right (Nat.le_refl _), Nat.sub_self, List.getElem?_cons_zero]
          · exact .nil

end Clause

/-- The parts of a portable query are compiled to a statement whose order can be found. -/
theorem compileParts_orderable (parts : QueryParts) (hportable : parts.Portable)
    (htexts : ∀ x ∈ parts.sortExpressions, ∀ y ∈ parts.returned,
      x.text = y.text → x.bare = y.bare)
    (compiled : Compiled) (h : compileParts schema root parts = .ok compiled) :
    ∃ projection items hidden places,
      Orderable schema root parts projection items hidden places compiled.statement := by
  rcases bind_eq_ok.mp h with ⟨plan, _, h⟩
  rcases bind_eq_ok.mp h with ⟨projection, hprojection, h⟩
  rcases bind_eq_ok.mp h with ⟨items, hitems, h⟩
  rcases bind_eq_ok.mp h with ⟨filter, _, h⟩
  rcases bind_eq_ok.mp h with ⟨groupBy, _, h⟩
  rcases bind_eq_ok.mp h with ⟨having, _, h⟩
  rcases bind_eq_ok.mp h with ⟨sorts, hsorts, h⟩
  rw [hportable.customizers] at h
  rcases projection_returned parts hportable projection hprojection with ⟨hnative, hreturned⟩
  -- The statement goes by strings, the specification by expressions: for sort keys they agree.
  have hselected : ∀ key, .simple key ∈ parts.sorts →
      (isSelected projection key.expression = true ↔ projection.Selects key.expression) := by
    intro key hkey
    refine isSelected_iff hnative fun y hy => ?_
    exact htexts _ ((mem_sortExpressions parts _).mpr ⟨key, hkey, rfl⟩) y (hreturned ▸ hy)
  have horders := sortClause_orders schema root _ _ parts.sorts hportable.sorts 0 sorts hsorts
  have hhidden := sortClause_items schema root _ _ [] parts.sorts sorts hsorts
  -- An item is hidden exactly for the sort keys that distinct rows do not show by themselves.
  have hplaces : ∀ place, place ∈ hiddenPlaces parts.distinct projection 0 parts.sorts ↔
      parts.distinct = true ∧ ∃ key, parts.sorts[place]? = some (.simple key) ∧
        ¬ projection.Selects key.expression := by
    intro place
    rw [mem_hiddenPlaces]
    refine and_congr_right fun _ => exists_congr fun key => and_congr_right fun hkey => ?_
    rw [← hselected key (List.mem_of_getElem? hkey), Bool.not_eq_true]
  refine ⟨projection, items, sorts.hidden, hiddenPlaces parts.distinct projection 0 parts.sorts, ?_⟩
  rw [← Except.ok.inj h]
  constructor
  case projected => exact hprojection
  case selected => exact hitems
  case distinct => rfl
  case list => rfl
  case sorted => exact horders
  case added => exact hhidden
  case ordered => exact hiddenPlaces_ordered parts.distinct projection 0 parts.sorts
  case needed => exact hplaces
  case plain =>
    intro hdistinct
    -- Rows that need not be distinct hide no item.
    have hnone : hiddenPlaces parts.distinct projection 0 parts.sorts = [] := by
      rw [List.eq_nil_iff_forall_not_mem]
      intro place hplace
      exact absurd (hdistinct.symm.trans ((hplaces place).mp hplace).1) Bool.false_ne_true
    rw [List.length_nil, List.nil_append, hnone] at hhidden
    exact List.forall₂_nil_left_iff.mp hhidden
  case shown =>
    intro hdistinct order horder
    -- An order is that of a sort key: look for the key among the items.
    rcases partner_of_forall₂ horders.flip order horder with ⟨_, hmem, key, rfl, hvalue, _⟩
    by_cases hselects : projection.Selects key.expression
    · -- The items of the projection come first in the select list.
      rcases selected_shown schema root items hitems order.1 hvalue hselects with
        ⟨hentity, hall, hcolumn⟩ | ⟨name, hitem⟩
      · exact .inl ⟨hentity, List.mem_append_left _ hall, hcolumn⟩
      · exact .inr ⟨name, List.mem_append_left _ hitem⟩
    · -- A key that is not selected has a hidden item, under the name of its place.
      rcases List.mem_iff_getElem?.mp hmem with ⟨place, hplace⟩
      rcases partner_of_forall₂ hhidden place
          ((hplaces place).mpr ⟨hdistinct, key, hplace, hselects⟩) with
        ⟨item, hitem, other, value, hother, hcompiled, rfl⟩
      obtain rfl : key = other :=
        SortKey.simple.inj (Option.some.inj (hplace.symm.trans hother))
      rw [Except.ok.inj (hvalue.symm.trans hcompiled)]
      exact .inr ⟨hiddenName place, List.mem_append_right _ hitem⟩

/-- The order of distinct rows can be found in the select list, for every query without native
    pieces, customizers and preprocessors in which no sort key has the string of a column that it
    differs from in more than aliases. -/
theorem distinct_orderable (q : AnyQuery) (hportable : q.Portable)
    (htexts : ∀ x ∈ q.effective.sortExpressions, ∀ y ∈ q.effective.returned,
      x.text = y.text → x.bare = y.bare)
    (compiled : Compiled)
    (h : q.handle (compileQuery schema root) (compileAdvanced schema root) = .ok compiled) :
    ∃ projection items hidden places,
      Orderable schema root q.effective projection items hidden places compiled.statement := by
  have hcompiled : compileParts schema root q.effective = .ok compiled :=
    compiled_parts (compileParts schema root) q (preprocessors_portable q hportable) compiled h
  exact compileParts_orderable schema root q.effective (portable_effective q hportable) htexts
    compiled hcompiled

/-- Names in capitals, sorted by these and by height. -/
def sampleOrdered : Query where
  select := some (.items ⟨[], [.call .upper [.expression (.property "name" none)] (some "u")]⟩)
  distinct := true
  sorts := [.simple ⟨.call .upper [.expression (.property "name" (some "n"))] none, .ascending⟩,
    .simple ⟨.property "height" none, .descending⟩]

/-- An alias inside of a sort key does not keep it from being found, and the other sort key is
    selected for the order alone. -/
theorem distinct_orderable_sample :
    (AnyQuery.plain sampleOrdered).Portable ∧
    (∀ x ∈ (AnyQuery.plain sampleOrdered).effective.sortExpressions,
      ∀ y ∈ (AnyQuery.plain sampleOrdered).effective.returned, x.text = y.text → x.bare = y.bare) ∧
    ∃ compiled, compileQuery .default "Person" sampleOrdered = .ok compiled ∧
      compiled.statement.items = [.named (.call "UPPER" [.column "person" "name"]) "u",
        .named (.column "person" "height") "__sort_1"] ∧
      ∀ order ∈ compiled.statement.orderBy, ∃ name,
        .named order.1 name ∈ compiled.statement.items := by
  have hportable : (AnyQuery.plain sampleOrdered).Portable :=
    ⟨by rintro c ⟨⟩, by decide, by rintro columns ⟨⟩; rfl, rfl, rfl⟩
  have htexts : ∀ x ∈ (AnyQuery.plain sampleOrdered).effective.sortExpressions,
      ∀ y ∈ (AnyQuery.plain sampleOrdered).effective.returned,
        x.text = y.text → x.bare = y.bare := by
    intro x hx y hy htext
    obtain rfl := List.mem_singleton.mp hy
    rcases List.mem_cons.mp hx with rfl | hx
    · rfl
    · obtain rfl := List.mem_singleton.mp hx
      exact absurd htext (by decide)
  have hstatement : ∃ compiled, compileQuery .default "Person" sampleOrdered = .ok compiled ∧
      compiled.statement.items = [.named (.call "UPPER" [.column "person" "name"]) "u",
        .named (.column "person" "height") "__sort_1"] := ⟨_, rfl, rfl⟩
  rcases hstatement with ⟨compiled, hcompiled, hitems⟩
  rcases distinct_orderable .default "Person" (.plain sampleOrdered) hportable htexts compiled
    hcompiled with ⟨projection, items, hidden, places, horderable⟩
  refine ⟨hportable, htexts, compiled, hcompiled, hitems, fun order horder => ?_⟩
  rcases horderable.shown rfl order horder with ⟨hentity, _⟩ | hshown
  · exact absurd (hentity ▸ horderable.projected) (by rintro ⟨⟩)
  · exact hshown

end Sql

end Polyquery
