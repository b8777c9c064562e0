import Polyquery.Proofs.Query.Expressions
import Polyquery.Proofs.Query.Made

/-!
# Sound Queries and What Backends Need

The rules of a query are kept by everything that can be read off it, and a backend
needs to know of expressions and comparisons only. These are the ones it needs: a
call has as many arguments as its function takes, at every level of an expression,
and a comparison could be made anew from its parts.

## Theorems

* `valid_of_sound`: Expressions.
* `comparison_valid`, `leaves_valid`: Comparisons, and those of a condition.
* `effective_valid`: The parts of a query.
-/

namespace Polyquery

open Component

mutual

/-- An expression whose rules are kept can be made. -/
theorem valid_of_sound : ∀ x : Expression, (expression x).Sound → x.valid = true
  | .property path label, h => by
      simp only [Expression.valid, (sound_property path label).mp h, Bool.not_false]
  | .call function arguments label, h => by
      rcases (sound_call function arguments label).mp h with ⟨haccepts, harguments⟩
      simp only [Expression.valid, haccepts, Bool.true_and]
      exact validArguments_of_sound arguments harguments

theorem validArguments_of_sound : ∀ arguments : List Argument,
    (∀ a ∈ arguments, (argument a).Sound) → Expression.validArguments arguments = true
  | [], _ => rfl
  | .expression value :: rest, h => by
      rw [List.forall_mem_cons] at h
      simp only [Expression.validArguments, Bool.and_eq_true]
      exact ⟨valid_of_sound value ((sound_argument value).mp h.1),
        validArguments_of_sound rest h.2⟩
  | .literal _ :: rest, h => by
      rw [List.forall_mem_cons] at h
      simp only [Expression.validArguments]
      exact validArguments_of_sound rest h.2

end

theorem comparison_valid (leaf : SimpleCondition) (h : (comparison leaf).Sound) : leaf.Valid := by
  rcases (sound_comparison leaf).mp h with ⟨hlawful, hleft, hvalue⟩
  refine ⟨valid_of_sound leaf.left hleft, ?_, of_lawful leaf hlawful⟩
  intro v hv
  have hoperand := (sound_operand v).mp (hvalue v hv)
  cases v with
  | field path => simp only [ConditionValue.valid, Bool.not_eq_true']; exact hoperand
  | scalar literal => rfl
  | list values => rfl

mutual

/-- All comparisons of a condition whose rules are kept can be made. -/
theorem leaves_valid : ∀ c : Condition, (condition c).Sound → c.Valid
  | .simple leaf, h => by
      intro other hmem
      simp only [Condition.leaves, List.mem_singleton] at hmem
      rw [hmem]
      exact comparison_valid leaf ((sound_simple leaf).mp h)
  | .and children, h => by
      intro leaf hmem
      simp only [Condition.leaves] at hmem
      exact leavesAll_valid children ((sound_and children).mp h) leaf hmem
  | .or children, h => by
      intro leaf hmem
      simp only [Condition.leaves] at hmem
      exact leavesAll_valid children ((sound_or children).mp h) leaf hmem
  | .not child, h => by
      intro leaf hmem
      simp only [Condition.leaves] at hmem
      exact leaves_valid child ((sound_not child).mp h).2 leaf hmem
  | .native piece, _ => by
      intro leaf hmem
      simp only [Condition.leaves] at hmem
      exact absurd hmem List.not_mem_nil

theorem leavesAll_valid : ∀ children : List Condition,
    (∀ child ∈ children, (condition child).Sound) →
      ∀ leaf ∈ Condition.leavesAll children, leaf.Valid
  | [], _ => by
      intro leaf hmem
      simp only [Condition.leavesAll] at hmem
      exact absurd hmem List.not_mem_nil
  | child :: rest, h => by
      rw [List.forall_mem_cons] at h
      intro leaf hmem
      simp only [Condition.leavesAll, List.mem_append] at hmem
      rcases hmem with hfirst | hothers
      · exact leaves_valid child h.1 leaf hfirst
      · exact leavesAll_valid rest h.2 leaf hothers

end

theorem leavesOf_valid (part : Option Condition)
    (h : ∀ c, part = some c → (condition c).Sound) : ∀ leaf ∈ leavesOf part, leaf.Valid := by
  cases part with
  | none => exact fun leaf hleaf => absurd hleaf List.not_mem_nil
  | some c =>
      rw [leavesOf_some]
      exact leaves_valid c (h c rfl)

theorem columns_valid (columns : Selection) (h : (selection columns).Sound) :
    ∀ x ∈ columns.expressions, x.valid = true := by
  cases columns with
  | native piece => exact fun x hx => absurd hx List.not_mem_nil
  | items list =>
      rcases (sound_columns list).mp ((sound_items list).mp h) with ⟨hnames, hexpressions⟩
      intro x hx
      rcases List.mem_append.mp hx with hname | hexpression
      · rcases List.mem_map.mp hname with ⟨name, hmem, rfl⟩
        simp only [Expression.valid, hnames name hmem, Bool.not_false]
      · exact valid_of_sound x (hexpressions x hexpression)

theorem parts_valid (q : AdvancedQuery) (h : q.Sound) : (QueryParts.ofAdvanced q).Valid where
  filter := by
    simp only [QueryParts.ofAdvanced, QueryParts.ofQuery, leavesOf_effective]
    exact leavesOf_valid q.filter h.query.filter
  sorts key hkey := valid_of_sound _ ((sound_sort key).mp (h.query.sorts _ hkey))
  select columns hcolumns :=
    columns_valid columns (h.query.select columns (effectiveSelection_some _ _ hcolumns))
  groupBy columns hcolumns :=
    columns_valid columns (h.groupBy columns (effectiveSelection_some _ _ hcolumns))
  having := by
    simp only [QueryParts.ofAdvanced, leavesOf_effective]
    exact leavesOf_valid q.having h.having

/-- A backend can compile what the parts of a sound query hold. -/
theorem effective_valid (q : AnyQuery) (h : (query q).Sound) : q.effective.Valid := by
  cases q with
  | plain q => exact parts_valid (.ofQuery q) ((sound_plain q).mp h).lift
  | advanced q => exact parts_valid q ((sound_advanced q).mp h).2

end Polyquery
