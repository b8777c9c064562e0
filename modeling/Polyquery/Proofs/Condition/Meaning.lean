import Mathlib.Data.List.Forall2
import Polyquery.Proofs.Condition.Equations
import Polyquery.Proofs.Condition.Shape
import Polyquery.Proofs.Truth

/-!
# The Meaning of Compiled Conditions

What a condition says, apart from any backend, and what a backend has to do so
that the filters it compiles say the same.

The meaning of a condition is its truth value, given the truth values of its
comparisons: a conjunction has the least value of its children, a disjunction
the greatest, a negation the contrary, and children that are empty have no
part in it. This is a function on the tree as it stands. The walk never looks
at the tree that way, for it carries the negation down to the comparisons
instead.

`Realises` asks two things of a backend, both of them local. The filter of a
comparison, in either polarity, answers as the test of its truth value does;
and a filter that joins others answers as the connective does on their
answers. `filter_answers` says that this is enough: the filter of any
condition then answers as the test of its truth value. The induction carries
both polarities at once, because a negation turns the one into the other, and
it proves that the filter exists, given that the depth limit is not below the
height of the condition.

What a filter answers is a relation and not a function, so that a backend
whose filters can be without an answer fits in as well. A filter then has the
answer it is said to have, and in particular it has one.

## Main definitions

* `Condition.truth`: The truth value of a condition.
* `Interpretation.Realises`: The local requirement on a backend.

## Theorems

* `truth_joined`: The truth value of a connective.
* `truth_ne_unknown`: A condition has an answer when its comparisons have.
* `assemble_answers`: Parts under a connective.
* `condition_answers`, `conditions_answer`: The walk, by induction on the tree.
* `filter_answers`: The filter of a condition answers as its truth value does.
* `filter_answers_each`: The same for one filter in every environment.
-/

namespace Polyquery

namespace Condition

mutual

/-- The truth value of a condition, given those of its comparisons. A native piece has a
    meaning in its own backend only. -/
def truth (value : SimpleCondition → Truth) : Condition → Truth
  | .simple leaf => value leaf
  | .and children => Connective.and.value (truths value children)
  | .or children => Connective.or.value (truths value children)
  | .not child => (child.truth value).swap
  | .native _ => .unknown

/-- The truth values of those conditions that are not empty. -/
def truths (value : SimpleCondition → Truth) : List Condition → List Truth
  | [] => []
  | child :: rest =>
    if child.isEmpty then truths value rest else child.truth value :: truths value rest

end

end Condition

theorem truth_joined (value : SimpleCondition → Truth) (connective : Connective)
    (children : List Condition) :
    (Condition.joined connective children).truth value =
      connective.value (Condition.truths value children) := by
  cases connective <;> simp only [Condition.joined, Condition.truth]

/-- Conditions that are not all empty have a truth value among them. -/
theorem truths_ne_nil (value : SimpleCondition → Truth) (children : List Condition)
    (h : Condition.allEmpty children = false) : Condition.truths value children ≠ [] := by
  induction children with
  | nil => exact absurd h (by simp only [Condition.allEmpty, reduceCtorEq, not_false_eq_true])
  | cons child rest ih =>
      cases hempty : child.isEmpty with
      | true =>
          have hrest : Condition.allEmpty rest = false := by
            simpa only [Condition.allEmpty, hempty, Bool.true_and] using h
          simp only [Condition.truths, hempty, if_true]
          exact ih hrest
      | false =>
          simp only [Condition.truths, hempty, Bool.false_eq_true, if_false]
          exact List.cons_ne_nil _ _

/-- A connective between values with an answer has an answer. -/
theorem value_ne_unknown (connective : Connective) (values : List Truth)
    (h : ∀ v ∈ values, v ≠ .unknown) : connective.value values ≠ .unknown := by
  induction values with
  | nil => cases connective <;> exact fun h => Truth.noConfusion h
  | cons v rest ih =>
      have hv : v ≠ .unknown := h v List.mem_cons_self
      have hrest := ih (fun w hw => h w (List.mem_cons_of_mem v hw))
      cases connective with
      | and =>
          simp only [Connective.value, Truth.least, List.foldr_cons] at hrest ⊢
          revert hv hrest
          cases v <;> cases List.foldr Truth.min Truth.yes rest <;> decide
      | or =>
          simp only [Connective.value, Truth.greatest, List.foldr_cons] at hrest ⊢
          revert hv hrest
          cases v <;> cases List.foldr Truth.max Truth.no rest <;> decide

mutual

/-- A condition without a native piece has an answer when all its comparisons have. -/
theorem truth_ne_unknown (value : SimpleCondition → Truth) :
    ∀ c : Condition, c.nativeFree = true → (∀ leaf ∈ c.leaves, value leaf ≠ .unknown) →
      c.truth value ≠ .unknown
  | .simple leaf, _, h => by
      simp only [Condition.truth]
      exact h leaf (by simp only [Condition.leaves, List.mem_singleton])
  | .and children, hnative, h => by
      simp only [Condition.nativeFree] at hnative
      simp only [Condition.leaves] at h
      simp only [Condition.truth]
      exact value_ne_unknown .and _ (truths_ne_unknown value children hnative h)
  | .or children, hnative, h => by
      simp only [Condition.nativeFree] at hnative
      simp only [Condition.leaves] at h
      simp only [Condition.truth]
      exact value_ne_unknown .or _ (truths_ne_unknown value children hnative h)
  | .not child, hnative, h => by
      simp only [Condition.nativeFree] at hnative
      simp only [Condition.leaves] at h
      have hchild := truth_ne_unknown value child hnative h
      simp only [Condition.truth]
      -- Swapping truth and falsity makes nothing unknown.
      revert hchild
      cases child.truth value <;> decide
  | .native piece, hnative, _ => by
      exact absurd hnative (by simp only [Condition.nativeFree, reduceCtorEq, not_false_eq_true])

/-- The children of a node have answers when all their comparisons have. -/
theorem truths_ne_unknown (value : SimpleCondition → Truth) :
    ∀ children : List Condition, Condition.allNativeFree children = true →
      (∀ leaf ∈ Condition.leavesAll children, value leaf ≠ .unknown) →
      ∀ v ∈ Condition.truths value children, v ≠ .unknown
  | [], _, _ => by
      intro v hv
      simp only [Condition.truths] at hv
      exact absurd hv List.not_mem_nil
  | child :: rest, hnative, h => by
      simp only [Condition.allNativeFree, Bool.and_eq_true] at hnative
      simp only [Condition.leavesAll, List.mem_append] at h
      have hchild := truth_ne_unknown value child hnative.1 (fun leaf hm => h leaf (.inl hm))
      have hrest := truths_ne_unknown value rest hnative.2 (fun leaf hm => h leaf (.inr hm))
      intro v hv
      simp only [Condition.truths] at hv
      cases hempty : child.isEmpty with
      | true =>
          simp only [hempty, if_true] at hv
          exact hrest v hv
      | false =>
          simp only [hempty, Bool.false_eq_true, if_false, List.mem_cons] at hv
          rcases hv with heq | htail
          · rw [heq]
            exact hchild
          · exact hrest v htail

end

namespace Interpretation

variable {φ : Type}

/-- What a backend has to do so that its filters mean what conditions say. `value` gives
    the truth values of comparisons, `admits` tells which comparisons are looked at, and
    `Answers` says what a filter answers. -/
structure Realises (t : Interpretation φ) (value : SimpleCondition → Truth)
    (admits : SimpleCondition → Prop) (Answers : φ → Bool → Prop) : Prop where
  simple : ∀ leaf ctx, admits leaf →
    ∃ f, t.simple leaf ctx = .ok f ∧ Answers f ((value leaf).passes ctx.negated)
  combine : ∀ connective parts answers, List.Forall₂ Answers parts answers → parts ≠ [] →
    Answers (t.combine connective parts) (connective.join answers)

variable {t : Interpretation φ} {value : SimpleCondition → Truth}
  {admits : SimpleCondition → Prop} {Answers : φ → Bool → Prop}

/-- Parts under a connective answer as the connective that stands for it under the flag.
    A single part answers for itself. -/
theorem assemble_answers (h : t.Realises value admits Answers) (connective : Connective)
    (ctx : WalkContext) (parts : List φ) (answers : List Bool)
    (hparts : List.Forall₂ Answers parts answers) (hne : answers ≠ []) :
    Answers (t.assemble connective ctx parts) ((connective.under ctx.negated).join answers) := by
  cases hparts with
  | nil => exact absurd rfl hne
  | cons hfirst hrest =>
      rename_i first answer rest others
      cases hrest with
      | nil =>
          rw [Connective.join_singleton]
          exact hfirst
      | cons hsecond hothers =>
          exact h.combine _ _ _ (.cons hfirst (.cons hsecond hothers)) (List.cons_ne_nil _ _)

/-- A connective answers as the test of its truth value, once its children do. -/
theorem joined_answers (h : t.Realises value admits Answers) (connective : Connective)
    (children : List Condition) (ctx : WalkContext) (hdepth : ctx.depth < ctx.maxDepth)
    (hsome : Condition.allEmpty children = false)
    (hchildren : ∃ parts, t.conditions children ctx.below = .ok parts ∧
      List.Forall₂ Answers parts
        ((Condition.truths value children).map (Truth.passes ctx.negated))) :
    ∃ f, t.condition (.joined connective children) ctx = .ok f ∧
      Answers f (((Condition.joined connective children).truth value).passes ctx.negated) := by
  rcases hchildren with ⟨parts, hparts, hanswers⟩
  -- The children are joined in the context below, which has the same flag.
  refine ⟨t.assemble connective ctx.below parts, ?_, ?_⟩
  · rw [condition_joined t connective children ctx hdepth, hparts]
    rfl
  · rw [truth_joined, Truth.passes_value]
    have hne : (Condition.truths value children).map (Truth.passes ctx.negated) ≠ [] := by
      intro hnil
      exact truths_ne_nil value children hsome (List.map_eq_nil_iff.mp hnil)
    exact assemble_answers h connective ctx.below parts _ hanswers hne

mutual

/-- Every node of a condition compiles to a filter that answers as the test of its truth
    value, under the flag that the walk has reached it with. -/
theorem condition_answers (h : t.Realises value admits Answers) :
    ∀ (c : Condition) (ctx : WalkContext), c.nativeFree = true → c.isEmpty = false →
      (∀ leaf ∈ c.leaves, admits leaf) → ctx.depth + c.height ≤ ctx.maxDepth →
      ∃ f, t.condition c ctx = .ok f ∧ Answers f ((c.truth value).passes ctx.negated)
  | .simple leaf, ctx, _, _, hleaves, hheight => by
      simp only [Condition.height] at hheight
      have hadmits : admits leaf :=
        hleaves leaf (by simp only [Condition.leaves, List.mem_singleton])
      rcases h.simple leaf ctx.below hadmits with ⟨f, hf, hanswers⟩
      refine ⟨f, ?_, ?_⟩
      · simp only [condition, descend_of_lt ctx (by omega), ok_bind, hf]
      · simp only [Condition.truth]
        exact hanswers
  | .and children, ctx, hnative, hne, hleaves, hheight => by
      simp only [Condition.height] at hheight
      simp only [Condition.nativeFree] at hnative
      simp only [Condition.isEmpty] at hne
      simp only [Condition.leaves] at hleaves
      rcases room_below ctx _ hheight with ⟨hroom, hbelow⟩
      exact joined_answers h .and children ctx hroom hne
        (conditions_answer h children ctx.below hnative hleaves hbelow)
  | .or children, ctx, hnative, hne, hleaves, hheight => by
      simp only [Condition.height] at hheight
      simp only [Condition.nativeFree] at hnative
      simp only [Condition.isEmpty] at hne
      simp only [Condition.leaves] at hleaves
      rcases room_below ctx _ hheight with ⟨hroom, hbelow⟩
      exact joined_answers h .or children ctx hroom hne
        (conditions_answer h children ctx.below hnative hleaves hbelow)
  | .not child, ctx, hnative, hne, hleaves, hheight => by
      simp only [Condition.height] at hheight
      simp only [Condition.nativeFree] at hnative
      simp only [Condition.isEmpty] at hne
      simp only [Condition.leaves] at hleaves
      rcases room_below ctx _ hheight with ⟨hroom, hbelow⟩
      rcases condition_answers h child ctx.below.flip hnative hne hleaves hbelow with
        ⟨f, hf, hanswers⟩
      refine ⟨f, ?_, ?_⟩
      · rw [condition_not t child ctx hroom, hf]
      · simp only [Condition.truth]
        -- The test of the contrary is the test that the turned flag asks for.
        rw [Truth.passes_swap]
        exact hanswers
  | .native piece, ctx, hnative, _, _, _ => by
      exact absurd hnative (by simp only [Condition.nativeFree, reduceCtorEq, not_false_eq_true])

/-- The children of a node compile to filters that answer one by one. -/
theorem conditions_answer (h : t.Realises value admits Answers) :
    ∀ (children : List Condition) (ctx : WalkContext),
      Condition.allNativeFree children = true →
      (∀ leaf ∈ Condition.leavesAll children, admits leaf) →
      ctx.depth + Condition.heightAll children ≤ ctx.maxDepth →
      ∃ parts, t.conditions children ctx = .ok parts ∧
        List.Forall₂ Answers parts
          ((Condition.truths value children).map (Truth.passes ctx.negated))
  | [], ctx, _, _, _ => by
      refine ⟨[], ?_, ?_⟩
      · simp only [conditions]
      · simp only [Condition.truths, List.map_nil]
        exact .nil
  | child :: rest, ctx, hnative, hleaves, hheight => by
      simp only [Condition.allNativeFree, Bool.and_eq_true] at hnative
      simp only [Condition.leavesAll, List.mem_append] at hleaves
      rcases hnative with ⟨hchild, hrest⟩
      cases hempty : child.isEmpty with
      | true =>
          -- The walk leaves the child out, and so do the height and the truth value.
          simp only [Condition.heightAll, hempty, if_true] at hheight
          rcases conditions_answer h rest ctx hrest (fun leaf hmem => hleaves leaf (.inr hmem))
            hheight with ⟨parts, hparts, hanswers⟩
          refine ⟨parts, ?_, ?_⟩
          · rw [conditions_empty t child rest ctx hempty, hparts]
          · simp only [Condition.truths, hempty, if_true]
            exact hanswers
      | false =>
          simp only [Condition.heightAll, hempty, Bool.false_eq_true, if_false] at hheight
          rcases condition_answers h child ctx hchild hempty
            (fun leaf hmem => hleaves leaf (.inl hmem)) (by omega) with ⟨part, hpart, hanswer⟩
          rcases conditions_answer h rest ctx hrest (fun leaf hmem => hleaves leaf (.inr hmem))
            (by omega) with ⟨parts, hparts, hanswers⟩
          refine ⟨part :: parts, ?_, ?_⟩
          · rw [conditions_cons t child rest ctx hempty, hpart, ok_bind, hparts, ok_bind]
            rfl
          · simp only [Condition.truths, hempty, Bool.false_eq_true, if_false, List.map_cons]
            exact .cons hanswer hanswers

end

/-- The filter of a condition exists and answers as the test of the truth value does, as
    long as the depth limit is not below the height of the condition. -/
theorem filter_answers (h : t.Realises value admits Answers) (c : Condition) (maxDepth : Nat)
    (hnative : c.nativeFree = true) (hne : c.isEmpty = false)
    (hleaves : ∀ leaf ∈ c.leaves, admits leaf) (hheight : c.height ≤ maxDepth) :
    ∃ f, t.filter (some c) maxDepth = .ok (some f) ∧
      Answers f ((c.truth value).passes false) := by
  have hroot : (WalkContext.root maxDepth).depth + c.height ≤
      (WalkContext.root maxDepth).maxDepth := by
    simp only [WalkContext.root]
    omega
  rcases condition_answers h c (.root maxDepth) hnative hne hleaves hroot with
    ⟨f, hf, hanswers⟩
  refine ⟨f, ?_, hanswers⟩
  unfold filter
  simp only [hne, Bool.false_eq_true, if_false, hf]
  rfl

/-- One filter for every environment. A backend compiles a condition before it knows what
    the filter will be asked about, so the filter of a condition exists first, and then it
    answers in each environment in which the comparisons can be made. -/
theorem filter_answers_each {ι : Type} {value : ι → SimpleCondition → Truth}
    {admits : SimpleCondition → Prop} {suits : ι → SimpleCondition → Prop}
    {Answers : ι → φ → Bool → Prop}
    (hsimple : ∀ leaf ctx, admits leaf → ∃ f, t.simple leaf ctx = .ok f ∧
      ∀ env, suits env leaf → Answers env f ((value env leaf).passes ctx.negated))
    (hcombine : ∀ env connective parts answers, List.Forall₂ (Answers env) parts answers →
      parts ≠ [] → Answers env (t.combine connective parts) (connective.join answers))
    (c : Condition) (maxDepth : Nat) (hnative : c.nativeFree = true) (hne : c.isEmpty = false)
    (hleaves : ∀ leaf ∈ c.leaves, admits leaf) (hheight : c.height ≤ maxDepth) :
    ∃ f, t.filter (some c) maxDepth = .ok (some f) ∧
      ∀ env, (∀ leaf ∈ c.leaves, suits env leaf) →
        Answers env f ((c.truth (value env)).passes false) := by
  -- First the result is found once, without asking for any meaning.
  have hexists : t.Realises (fun _ => .unknown) admits (fun _ _ => True) := by
    refine ⟨?_, fun _ _ _ _ _ => trivial⟩
    intro leaf ctx hadmits
    rcases hsimple leaf ctx hadmits with ⟨f, hf, _⟩
    exact ⟨f, hf, trivial⟩
  rcases filter_answers hexists c maxDepth hnative hne hleaves hheight with ⟨f, hf, _⟩
  refine ⟨f, hf, ?_⟩
  intro env hsuits
  -- Then it is seen to answer in each environment, since there is only one result.
  have henv : t.Realises (value env) (fun leaf => admits leaf ∧ suits env leaf)
      (Answers env) := by
    refine ⟨?_, hcombine env⟩
    rintro leaf ctx ⟨hadmits, hsuit⟩
    rcases hsimple leaf ctx hadmits with ⟨g, hg, hanswers⟩
    exact ⟨g, hg, hanswers env hsuit⟩
  rcases filter_answers henv c maxDepth hnative hne
    (fun leaf hmem => ⟨hleaves leaf hmem, hsuits leaf hmem⟩) hheight with ⟨g, hg, hanswers⟩
  rw [hf] at hg
  rw [Option.some.inj (Except.ok.inj hg)]
  exact hanswers

end Interpretation

end Polyquery
