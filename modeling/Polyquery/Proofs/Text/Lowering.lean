import Polyquery.Text.Case

/-!
# Lower Casing of a Piece of Text

A text is lowered character by character, and only a capital sigma asks what stands around it.
So a piece of a text is lowered by itself as it is within the text, unless one of its sigmas is
at the end of a word in one place and not in the other. There are two ways in which this can
be: the word of the last sigma goes on behind the piece, or the word of the first one has begun
before it. Characters that are passed over when the end of a word is looked for may stand between
the sigma and the border.

Both small forms of sigma are one character. The lowered piece is therefore as long in any
surroundings, and two of its forms can be told apart only by their sigmas.

## Main definitions

* `lowerBetween`: Lower casing of a piece between what comes before and after it.
* `SigmaCut`: A border of a piece goes through the word of a sigma.

## Theorems

* `lowerFrom_append`: A text is lowered piece by piece.
* `lowerSigma_ne_iff`: When a sigma has another form in other surroundings.
* `lowerBetween_eq_iff`: A piece is lowered as by itself if and only if no sigma is cut off.
-/

namespace Polyquery.Text

/-- Lower casing of a piece between what comes before it, last character first, and what comes
    after it. -/
def lowerBetween (before after : List Char) : List Char → List Char
  | [] => []
  | c :: rest =>
    (if c = 'Σ' then [lowerSigma before (rest ++ after)] else lowerChar c) ++
      lowerBetween (c :: before) after rest

/-- A border of a piece goes through the word of one of its capital sigmas. -/
inductive SigmaCut (before after : List Char) : List Char → Prop where
  /-- The sigma ends a word of the piece, and the word goes on behind the piece. -/
  | goesOn (front back : List Char) (hfront : meetsCased front.reverse = true)
    (hback : back.all isCaseIgnorable = true) (hafter : meetsCased after = true) :
    SigmaCut before after (front ++ 'Σ' :: back)
  /-- The sigma begins a word of the piece, and it ends one that has begun before the piece. -/
  | hasBegun (front back : List Char) (hfront : front.all isCaseIgnorable = true)
    (hbefore : meetsCased before = true) (hback : meetsCased (back ++ after) = false) :
    SigmaCut before after (front ++ 'Σ' :: back)

theorem SigmaCut.mem {before after piece : List Char} (h : SigmaCut before after piece) :
    'Σ' ∈ piece := by
  cases h with
  | goesOn front back => exact List.mem_append_right front List.mem_cons_self
  | hasBegun front back => exact List.mem_append_right front List.mem_cons_self

section Words

/-- What comes after a text plays a part only if the whole text is passed over. -/
theorem meetsCased_append (cs others : List Char) :
    meetsCased (cs ++ others) =
      if cs.all isCaseIgnorable = true then meetsCased others else meetsCased cs := by
  induction cs with
  | nil => rfl
  | cons c rest ih =>
      unfold meetsCased at ih ⊢
      rw [List.cons_append, List.dropWhile_cons, List.dropWhile_cons, List.all_cons]
      by_cases hc : isCaseIgnorable c = true
      · rw [if_pos hc, if_pos hc, ih, hc, Bool.true_and]
      · rw [if_neg hc, if_neg hc, if_neg fun h => hc (Bool.and_eq_true_iff.mp h).1]

theorem meetsCased_of_ignorable {cs : List Char} (h : cs.all isCaseIgnorable = true) :
    meetsCased cs = false := by
  have hwhole := meetsCased_append cs []
  rwa [List.append_nil, if_pos h] at hwhole

end Words

section Pieces

variable (before after : List Char)

theorem lowerSigma_eq_iff (before' after' : List Char) :
    lowerSigma before after = lowerSigma before' after' ↔
      (meetsCased before && !meetsCased after) = (meetsCased before' && !meetsCased after') := by
  unfold lowerSigma
  cases (meetsCased before && !meetsCased after) <;>
    cases (meetsCased before' && !meetsCased after') <;> decide

/-- A text is lowered piece by piece, each between the others. -/
theorem lowerFrom_append (piece : List Char) :
    lowerFrom before (piece ++ after) =
      lowerBetween before after piece ++ lowerFrom (piece.reverse ++ before) after := by
  induction piece generalizing before with
  | nil => rfl
  | cons c rest ih =>
      rw [List.cons_append, lowerFrom, lowerBetween, ih, List.reverse_cons, List.append_assoc,
        List.append_assoc]
      rfl

theorem lowerFrom_eq_between (piece : List Char) :
    lowerFrom before piece = lowerBetween before [] piece := by
  have hwhole := lowerFrom_append before [] piece
  rwa [List.append_nil, lowerFrom, List.append_nil] at hwhole

theorem length_lowerBetween (before' after' piece : List Char) :
    (lowerBetween before after piece).length = (lowerBetween before' after' piece).length := by
  induction piece generalizing before before' with
  | nil => rfl
  | cons c rest ih =>
      rw [lowerBetween, lowerBetween, List.length_append, List.length_append,
        ih (c :: before) (c :: before')]
      by_cases hc : c = 'Σ'
      · rw [if_pos hc, if_pos hc]
        rfl
      · rw [if_neg hc, if_neg hc]

/-- A piece is lowered in the same way in two surroundings if and only if each sigma of it has
    the same form in both. -/
theorem lowerBetween_eq_iff_sigmas (before' after' piece : List Char) :
    lowerBetween before after piece = lowerBetween before' after' piece ↔
      ∀ front back, piece = front ++ 'Σ' :: back →
        lowerSigma (front.reverse ++ before) (back ++ after) =
          lowerSigma (front.reverse ++ before') (back ++ after') := by
  induction piece generalizing before before' with
  | nil =>
      refine iff_of_true rfl fun front back hpiece => ?_
      exact absurd hpiece (by simp)
  | cons c rest ih =>
      -- A sigma is the first character, or it is in the rest with one more character before it.
      have hlater : (∀ front back, c :: rest = front ++ 'Σ' :: back →
          lowerSigma (front.reverse ++ before) (back ++ after) =
            lowerSigma (front.reverse ++ before') (back ++ after')) ↔
          (c = 'Σ' → lowerSigma before (rest ++ after) = lowerSigma before' (rest ++ after')) ∧
          ∀ front back, rest = front ++ 'Σ' :: back →
            lowerSigma (front.reverse ++ c :: before) (back ++ after) =
              lowerSigma (front.reverse ++ c :: before') (back ++ after') := by
        constructor
        · intro h
          refine ⟨fun hc => h [] rest (by rw [hc]; rfl), fun front back hrest => ?_⟩
          have hlonger := h (c :: front) back (by rw [hrest]; rfl)
          simpa only [List.reverse_cons, List.append_assoc, List.singleton_append] using hlonger
        · rintro ⟨hfirst, hrest⟩ front back hpiece
          cases front with
          | nil =>
              rw [List.nil_append, List.cons.injEq] at hpiece
              obtain ⟨hc, rfl⟩ := hpiece
              exact hfirst hc
          | cons d front =>
              rw [List.cons_append, List.cons.injEq] at hpiece
              obtain ⟨rfl, hpiece⟩ := hpiece
              simpa only [List.reverse_cons, List.append_assoc, List.singleton_append] using
                hrest front back hpiece
      rw [hlater, ← ih (c :: before) (c :: before'), lowerBetween, lowerBetween]
      -- Only for a sigma it matters what stands around it.
      by_cases hc : c = 'Σ'
      · rw [if_pos hc, if_pos hc, List.singleton_append, List.singleton_append, List.cons.injEq,
          forall_prop_of_true hc]
      · rw [if_neg hc, if_neg hc, List.append_cancel_left_eq, forall_prop_of_false hc, true_and]

/-- A sigma has another form between `before` and `after` exactly if the piece around it is left
    with the word of the sigma. -/
theorem lowerSigma_ne_iff (front back : List Char) :
    lowerSigma (front.reverse ++ before) (back ++ after) ≠ lowerSigma front.reverse back ↔
      (meetsCased front.reverse = true ∧ back.all isCaseIgnorable = true ∧
        meetsCased after = true) ∨
      (front.all isCaseIgnorable = true ∧ meetsCased before = true ∧
        meetsCased (back ++ after) = false) := by
  have hfront : front.all isCaseIgnorable = true → meetsCased front.reverse = false := fun h =>
    meetsCased_of_ignorable (by rwa [List.all_reverse])
  have hback : back.all isCaseIgnorable = true → meetsCased back = false :=
    meetsCased_of_ignorable
  rw [Ne, lowerSigma_eq_iff, meetsCased_append front.reverse, meetsCased_append back,
    List.all_reverse]
  -- What is left is a table of truth values, of which the two facts rule out some lines.
  generalize front.all isCaseIgnorable = frontPassed, meetsCased front.reverse = frontMeets,
    back.all isCaseIgnorable = backPassed, meetsCased back = backMeets,
    meetsCased before = beforeMeets, meetsCased after = afterMeets at *
  revert frontPassed frontMeets backPassed backMeets beforeMeets afterMeets
  decide

/-- A piece is lowered between `before` and `after` as it is by itself, unless one of its sigmas
    is cut off from its word. -/
theorem lowerBetween_eq_iff (piece : List Char) :
    lowerBetween before after piece = lowerChars piece ↔ ¬ SigmaCut before after piece := by
  rw [lowerChars, lowerFrom_eq_between, lowerBetween_eq_iff_sigmas]
  simp only [List.append_nil]
  -- A cut through a word is a sigma that is lowered otherwise than in the whole.
  constructor
  · intro h hcut
    cases hcut with
    | goesOn front back hfront hback hafter =>
        exact (lowerSigma_ne_iff before after front back).mpr (.inl ⟨hfront, hback, hafter⟩)
          (h front back rfl)
    | hasBegun front back hfront hbefore hback =>
        exact (lowerSigma_ne_iff before after front back).mpr (.inr ⟨hfront, hbefore, hback⟩)
          (h front back rfl)
  · rintro h front back rfl
    refine Decidable.byContradiction fun hne => ?_
    rcases (lowerSigma_ne_iff before after front back).mp hne with
      ⟨hfront, hback, hafter⟩ | ⟨hfront, hbefore, hback⟩
    · exact h (.goesOn front back hfront hback hafter)
    · exact h (.hasBegun front back hfront hbefore hback)

end Pieces

end Polyquery.Text
