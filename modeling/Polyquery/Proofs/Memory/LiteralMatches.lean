import Polyquery.Proofs.Memory.Kleene
import Polyquery.Proofs.Text.Lowering
import Polyquery.Proofs.Text.Search

/-!
# Patterns and What Stands in a Text Literally

A pattern does not look at the case of letters: the text of the pattern and the text that it is
looked for in are both lowered, each as a whole. A text that occurs character for character is
still not found in every case, because the lowering of a capital sigma depends on what stands
around it. `ΑΣ` is the start of `ΑΣΑ`, but `ας` is not the start of `ασα`.

This is the only way to miss a literal occurrence. At the start and at the end of a text there
is one place to look at, and so `SigmaCut` decides. Inside a text there may be other places,
one of which may match where another is cut.

## Theorems

* `lowered_place`: A piece of a text within the lowered text.
* `matches_lowered`, `not_matches_lowered`: Which literal occurrences are found.
* `rowTest_pattern`: The test of a pattern.
* `literal_matches`: The tests of patterns on texts in which they occur literally.
-/

namespace Polyquery

open Text

section Lowered

variable {op : Operator} {before after : List Char} (needle : List Char)

/-- A piece of a text is at the same place of the lowered text, lowered between the others. -/
theorem lowered_place (before after : List Char) :
    lowerChars (before ++ needle ++ after) =
      lowerBetween [] (needle ++ after) before ++ lowerBetween before.reverse after needle ++
        lowerFrom (needle.reverse ++ before.reverse) after := by
  rw [lowerChars, List.append_assoc, lowerFrom_append, List.append_nil, lowerFrom_append,
    List.append_assoc]

/-- What is left open around a piece is left open around the lowered piece. -/
theorem leavesOpen_lowered (hopen : op.LeavesOpen before after) (behind passed : List Char) :
    op.LeavesOpen (lowerBetween [] behind before) (lowerFrom passed after) := by
  cases op <;> try trivial
  case startsWith =>
    obtain rfl : before = [] := hopen
    rfl
  case endsWith =>
    obtain rfl : after = [] := hopen
    rfl

/-- A literal occurrence is found when none of its sigmas is cut off from its word. -/
theorem matches_lowered (hop : op.isPattern = true) (hopen : op.LeavesOpen before after)
    (hcut : ¬ SigmaCut before.reverse after needle) :
    op.matchesText (lowerChars (before ++ needle ++ after)) (lowerChars needle) = true := by
  rw [matchesText_iff op hop]
  refine ⟨_, _, leavesOpen_lowered hopen (needle ++ after) (needle.reverse ++ before.reverse), ?_⟩
  rw [lowered_place, (lowerBetween_eq_iff before.reverse after needle).mpr hcut]

/-- At the start and at the end of a text, an occurrence with a sigma that is cut off is missed. -/
theorem not_matches_lowered (hop : op.isPattern = true) (hside : op ≠ .contains)
    (hopen : op.LeavesOpen before after) (hcut : SigmaCut before.reverse after needle) :
    op.matchesText (lowerChars (before ++ needle ++ after)) (lowerChars needle) = false := by
  -- The lowered needle is as long as the place where it has to be, so it would have to be equal.
  have hlength : (lowerChars needle).length =
      (lowerBetween before.reverse after needle).length := by
    rw [lowerChars, lowerFrom_eq_between]
    exact length_lowerBetween _ _ _ _ _
  have hne : lowerBetween before.reverse after needle ≠ lowerChars needle := fun h =>
    (lowerBetween_eq_iff before.reverse after needle).mp h hcut
  rw [← Bool.not_eq_true, lowered_place]
  intro hfound
  refine hne (Eq.symm ?_)
  cases op <;> try exact absurd hop (by decide)
  case startsWith =>
    obtain rfl : before = [] := hopen
    rw [matchesText_startsWith, lowerBetween, List.nil_append] at hfound
    exact (List.prefix_of_prefix_length_le hfound (List.prefix_append _ _)
      (Nat.le_of_eq hlength)).eq_of_length hlength
  case endsWith =>
    obtain rfl : after = [] := hopen
    rw [matchesText_endsWith, lowerFrom, List.append_nil] at hfound
    exact (List.suffix_of_suffix_length_le hfound (List.suffix_append _ _)
      (Nat.le_of_eq hlength)).eq_of_length hlength
  case contains => exact absurd rfl hside

end Lowered

/-- The test of a pattern asks for the value of the expression. -/
theorem rowTest_pattern (clock : Clock) (e : Expression) (hvalid : e.valid = true) (op : Operator)
    (hop : op.isPattern = true) (needle : String) (ctx : WalkContext) :
    ∃ test, SimpleCondition.rowTest clock ⟨e, op, some (.scalar (.string needle))⟩ ctx = .ok test ∧
      ∀ rows, test rows =
        patternTest op ctx.negated (lowerChars needle.toList) (e.valueOn clock rows) := by
  rcases Expression.evaluator_of_valid clock e hvalid with ⟨left, hleft⟩
  refine ⟨fun rows => patternTest op ctx.negated (lowerChars needle.toList) (left rows), ?_,
    fun rows => congrArg _ (Expression.valueOn_eq clock rows e left hleft)⟩
  simp only [SimpleCondition.rowTest, hleft, ok_bind, polarity_pattern op hop, hop, if_true,
    Literal.asString?]
  rfl

/-- A pattern on texts in which it occurs character for character. In either polarity the
    occurrence is found unless a border of it cuts off a capital sigma from its word, in
    particular if there is no capital sigma in the pattern. At the start and at the end of a
    text, an occurrence of which a sigma is cut off is missed. -/
theorem literal_matches (clock : Clock) (e : Expression) (hvalid : e.valid = true) (op : Operator)
    (hop : op.isPattern = true) (needle : String) (ctx : WalkContext) :
    ∃ test, SimpleCondition.rowTest clock ⟨e, op, some (.scalar (.string needle))⟩ ctx = .ok test ∧
      ∀ rows text, e.valueOn clock rows = .string text →
        ∀ before after, op.LeavesOpen before after →
          text.toList = before ++ needle.toList ++ after →
          (¬ SigmaCut before.reverse after needle.toList → test rows = !ctx.negated) ∧
          ('Σ' ∉ needle.toList → test rows = !ctx.negated) ∧
          (op ≠ .contains → SigmaCut before.reverse after needle.toList →
            test rows = ctx.negated) := by
  rcases rowTest_pattern clock e hvalid op hop needle ctx with ⟨test, htest, hrows⟩
  refine ⟨test, htest, fun rows text hvalue before after hopen htext => ?_⟩
  have hfound : test rows =
      (op.matchesText (lowerChars (before ++ needle.toList ++ after)) (lowerChars needle.toList) !=
        ctx.negated) := by
    rw [hrows, hvalue, ← htext]
    rfl
  have hkept : ¬ SigmaCut before.reverse after needle.toList → test rows = !ctx.negated := by
    intro hcut
    rw [hfound, matches_lowered _ hop hopen hcut, Bool.true_bne]
  refine ⟨hkept, fun hsigma => hkept fun hcut => hsigma hcut.mem, fun hside hcut => ?_⟩
  rw [hfound, not_matches_lowered _ hop hside hopen hcut, Bool.false_bne]

/-- The start of a text that ends in a capital sigma, in the middle of a word and at the end of a
    word. The first is missed, so that the contrary holds of it. -/
theorem literal_matches_sample :
    ∃ accepts rejects,
      SimpleCondition.rowTest ⟨"", "", ""⟩
        ⟨.property "k" none, .startsWith, some (.scalar (.string "ΑΣ"))⟩ (.root 5) = .ok accepts ∧
      SimpleCondition.rowTest ⟨"", "", ""⟩
        ⟨.property "k" none, .startsWith, some (.scalar (.string "ΑΣ"))⟩
          (WalkContext.root 5).flip = .ok rejects ∧
      accepts (.single [("k", .string "ΑΣΑ")]) = false ∧
      rejects (.single [("k", .string "ΑΣΑ")]) = true ∧
      accepts (.single [("k", .string "ΑΣ Α")]) = true := by
  rcases literal_matches ⟨"", "", ""⟩ (.property "k" none) rfl .startsWith rfl "ΑΣ" (.root 5) with
    ⟨accepts, haccepts, hyes⟩
  rcases literal_matches ⟨"", "", ""⟩ (.property "k" none) rfl .startsWith rfl "ΑΣ"
    (WalkContext.root 5).flip with ⟨rejects, hrejects, hno⟩
  have hcut : SigmaCut [] ['Α'] ['Α', 'Σ'] := .goesOn ['Α'] [] (by decide +kernel) rfl
    (by decide +kernel)
  refine ⟨accepts, rejects, haccepts, hrejects, ?_, ?_, ?_⟩
  · exact (hyes (.single _) "ΑΣΑ" rfl [] ['Α'] rfl rfl).2.2 (by decide) hcut
  · exact (hno (.single _) "ΑΣΑ" rfl [] ['Α'] rfl rfl).2.2 (by decide) hcut
  · refine (hyes (.single _) "ΑΣ Α" rfl [] [' ', 'Α'] rfl rfl).1 ?_
    exact (lowerBetween_eq_iff [] [' ', 'Α'] ['Α', 'Σ']).mp (by decide +kernel)

end Polyquery
