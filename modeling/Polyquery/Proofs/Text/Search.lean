import Polyquery.Memory.Order

/-!
# Texts Found in Texts

The searches of a text, stated by the pieces a text is put together from. A
text starts with another one when it is that one with something after it, ends
with it when it is that one with something before it, and contains it when
there may be something on either side.

A pattern says the same with a sign for any text on either side. Languages of
patterns have their own signs and their own ways to write a text that stands
for itself; what a matcher makes of these is all that `matches_surround` asks
about it.

## Main definitions

* `Operator.surround`: A text with a sign on the open sides of an operator.
* `Operator.LeavesOpen`: What may be on the two sides of a text that is found.

## Theorems

* `contains_iff`: A text contains its infixes and nothing else.
* `matchesText_startsWith`, `matchesText_endsWith`, `matchesText_contains`: The
  pattern operators.
* `matchesText_iff`: The pattern operators by the places of a text.
* `matches_surround`: The pattern operators as patterns.
-/

namespace Polyquery

/-- A text contains another one exactly when it has it somewhere inside. -/
theorem Text.contains_iff (needle hay : List Char) :
    Text.contains needle hay = true ↔ needle <:+: hay := by
  unfold Text.contains
  induction hay with
  | nil =>
      rw [List.infix_nil]
      cases needle <;> simp [Text.position?]
  | cons c rest ih =>
      rw [List.infix_cons_iff, ← ih, ← List.isPrefixOf_iff_prefix]
      by_cases hstart : needle.isPrefixOf (c :: rest) = true
      · simp only [Text.position?, hstart, if_true, Option.isSome_some, true_or]
      · simp only [Text.position?, hstart, Bool.false_eq_true, if_false, Option.isSome_map,
          false_or]

theorem matchesText_startsWith (text needle : List Char) :
    Operator.startsWith.matchesText text needle = true ↔ needle <+: text := by
  simp only [Operator.matchesText]
  exact List.isPrefixOf_iff_prefix

theorem matchesText_endsWith (text needle : List Char) :
    Operator.endsWith.matchesText text needle = true ↔ needle <:+ text := by
  simp only [Operator.matchesText]
  exact List.isSuffixOf_iff_suffix

theorem matchesText_contains (text needle : List Char) :
    Operator.contains.matchesText text needle = true ↔ needle <:+: text := by
  simp only [Operator.matchesText]
  exact Text.contains_iff needle text

/-- A pattern operator finds a text with `before` and `after` around it. One side is closed when
    the text has to be at the start or at the end. -/
def Operator.LeavesOpen (op : Operator) (before after : List Char) : Prop :=
  match op with
  | .startsWith => before = []
  | .endsWith => after = []
  | _ => True

theorem matchesText_iff (op : Operator) (hop : op.isPattern = true) (text needle : List Char) :
    op.matchesText text needle = true ↔
      ∃ before after, op.LeavesOpen before after ∧ text = before ++ needle ++ after := by
  -- The operators differ in the end that they leave open.
  cases op <;> try exact absurd hop (by decide)
  case startsWith =>
    rw [matchesText_startsWith]
    constructor
    · rintro ⟨after, rfl⟩
      exact ⟨[], after, rfl, rfl⟩
    · rintro ⟨_, after, rfl, rfl⟩
      exact ⟨after, rfl⟩
  case endsWith =>
    rw [matchesText_endsWith]
    constructor
    · rintro ⟨before, rfl⟩
      exact ⟨before, [], rfl, (List.append_nil _).symm⟩
    · rintro ⟨before, _, rfl, rfl⟩
      exact ⟨before, (List.append_nil _).symm⟩
  case contains =>
    rw [matchesText_contains]
    constructor
    · rintro ⟨before, after, rfl⟩
      exact ⟨before, after, trivial, rfl⟩
    · rintro ⟨before, after, _, rfl⟩
      exact ⟨before, after, rfl⟩

/-- A text with a sign for any text on the sides that a pattern operator leaves open. -/
def Operator.surround {α : Type} (op : Operator) (sign : α) (text : List α) : List α :=
  match op with
  | .startsWith => text ++ [sign]
  | .endsWith => sign :: text
  | _ => sign :: (text ++ [sign])

/-- A text between signs for any text is matched where the operator finds what the text
    stands for. The matcher has to know the end of a pattern, the sign, and the text before
    either of them. -/
theorem matches_surround {matcher : List Char → List Char → Bool} {sign : Char}
    {escaped needle : List Char} (hend : ∀ text, matcher [] text = text.isEmpty)
    (hsign : ∀ pattern text, matcher (sign :: pattern) text = true ↔
      ∃ rest, rest <:+ text ∧ matcher pattern rest = true)
    (hescaped : ∀ pattern, pattern = [] ∨ pattern = [sign] → ∀ text,
      matcher (escaped ++ pattern) text = true ↔
        ∃ rest, text = needle ++ rest ∧ matcher pattern rest = true)
    (op : Operator) (hop : op.isPattern = true) (text : List Char) :
    matcher (op.surround sign escaped) text = op.matchesText text needle := by
  -- What is left over is matched by a sign at the end, and is empty without one.
  have hopen : ∀ rest, matcher [sign] rest = true := by
    intro rest
    rw [hsign]
    refine ⟨[], List.nil_suffix, ?_⟩
    rw [hend]
    rfl
  have hstarts : ∀ rest, matcher (escaped ++ [sign]) rest = true ↔ needle <+: rest := by
    intro rest
    rw [hescaped _ (.inr rfl)]
    constructor
    · rintro ⟨others, heq, _⟩
      exact ⟨others, heq.symm⟩
    · rintro ⟨others, heq⟩
      exact ⟨others, heq.symm, hopen others⟩
  have hwhole : ∀ rest, matcher escaped rest = true ↔ rest = needle := by
    intro rest
    have hrest := hescaped [] (.inl rfl) rest
    rw [List.append_nil] at hrest
    rw [hrest]
    constructor
    · rintro ⟨others, heq, hothers⟩
      rw [hend, List.isEmpty_iff] at hothers
      rw [heq, hothers, List.append_nil]
    · intro heq
      refine ⟨[], ?_, ?_⟩
      · rw [heq, List.append_nil]
      · rw [hend]
        rfl
  rw [Bool.eq_iff_iff]
  cases op <;> try exact absurd hop (by decide)
  case startsWith =>
    rw [matchesText_startsWith]
    exact hstarts text
  case endsWith =>
    simp only [matchesText_endsWith, Operator.surround, hsign, hwhole, exists_eq_right]
  case contains =>
    simp only [matchesText_contains, Operator.surround, hsign, hstarts,
      List.infix_iff_prefix_suffix, and_comm]

end Polyquery
