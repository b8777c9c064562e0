import Mathlib.Data.List.Forall2
import Polyquery.Error

/-!
# Outcomes of Steps

How a sequence of steps ends, of which each may fail. A sequence yields a
result when every step does, and the first step that fails decides the error.
Proofs take a sequence apart with these equations and never unfold how
steps are put one after the other.

What ended a sequence is found by asking its steps in turn for an error; the
results play no part in it (`errorOf?_bind`).

Which errors a step can end with at all is a matter of its parts, too: `Raises`
bounds them by a property, part by part, without a word on when they occur.

`SameUnless` compares two outcomes that are the same except that the first one
may be stopped early. Sequences of such steps are again such a pair, so the
comparison is made where the steps differ and carried through the rest. `Alike`
does this for outcomes that fail in the same way and have results that are related.

## Main definitions

* `errorOf?`: The error that a step ends with.
* `Raises`: A bound on the errors that a step can end with.
* `SameUnless`: The same outcome, unless the first one is stopped.
* `Alike`: The same error or related results.

## Theorems

* `ok_bind`, `error_bind`: A sequence whose first step is known.
* `bind_eq_ok`, `bind_eq_error`: A sequence with a result has one in every step,
  and one without it fails in some step.
* `exists_ok_each`: One result for every environment.
* `forall₂_of_mapM`, `partner_of_forall₂`: The results of a step for each element of
  a list, and what is told from them.
* `exists_of_mapM`, `length_of_mapM`, `map_of_mapM`, `mapM_map_eq_ok`,
  `mapM_zip_eq_ok`, `exists_of_optionMapM`: The elements and the results.
* `foldlM_keeps`: What holds after several steps.
* `map_eq_ok`, `map_bind_eq`, `mapError_eq_ok`: What is made of a result and of
  an error.
* `errorOf?_eq_none`, `errorOf?_eq_some`, `exists_error`: A step ends with a
  result or with an error.
* `errorOf?_map`, `errorOf?_bind`, `errorOf?_bind_total`, `errorOf?_mapM`: The
  error of a sequence.
* `Raises.bind`, `Raises.map`, `Raises.mapM`: The errors of sequences.
* `SameUnless.bind`, `SameUnless.map`, `Alike.bind`: Sequences of steps that are
  compared.
* `Alike.mono`, `Alike.eq_of`, `Alike.exists_ok`: What a relation of results says.
-/

namespace Polyquery

variable {ε α β : Type}

@[simp] theorem ok_bind (a : α) (f : α → Except ε β) : (Except.ok a >>= f) = f a :=
  rfl

@[simp] theorem error_bind (e : ε) (f : α → Except ε β) :
    ((Except.error e : Except ε α) >>= f) = Except.error e :=
  rfl

/-- A sequence of two steps has a result exactly when both steps have one. -/
theorem bind_eq_ok {x : Except ε α} {f : α → Except ε β} {b : β} :
    (x >>= f) = .ok b ↔ ∃ a, x = .ok a ∧ f a = .ok b := by
  cases x with
  | error e => simp only [error_bind, reduceCtorEq, false_and, exists_false]
  | ok a => simp only [ok_bind, Except.ok.injEq, exists_eq_left']

/-- A sequence of two steps fails when the first step does or the second one after it. -/
theorem bind_eq_error {x : Except ε α} {f : α → Except ε β} {e : ε} :
    (x >>= f) = .error e ↔ x = .error e ∨ ∃ a, x = .ok a ∧ f a = .error e := by
  cases x with
  | error e' => simp only [error_bind, Except.error.injEq, reduceCtorEq, false_and, exists_false,
      or_false]
  | ok a => simp only [ok_bind, reduceCtorEq, Except.ok.injEq, exists_eq_left', false_or]

/-- A result that can be found for every environment is one result for all of them, since
    the step that makes it knows of none. -/
theorem exists_ok_each {ι : Type} [Inhabited ι] {x : Except ε α} {P : ι → α → Prop}
    (h : ∀ env, ∃ a, x = .ok a ∧ P env a) : ∃ a, x = .ok a ∧ ∀ env, P env a := by
  rcases h default with ⟨a, ha, _⟩
  refine ⟨a, ha, ?_⟩
  intro env
  rcases h env with ⟨b, hb, hP⟩
  rw [ha] at hb
  rw [Except.ok.inj hb]
  exact hP

/-- In lists that are related element by element, each element has one that it is related to. -/
theorem partner_of_forall₂ {R : α → β → Prop} {as : List α} {bs : List β}
    (h : List.Forall₂ R as bs) : ∀ a ∈ as, ∃ b ∈ bs, R a b := by
  induction h with
  | nil => exact fun a ha => absurd ha List.not_mem_nil
  | @cons a b as bs hab hrest ih =>
      rw [List.forall_mem_cons]
      refine ⟨⟨b, List.mem_cons_self, hab⟩, fun c hc => ?_⟩
      rcases ih c hc with ⟨d, hd, hcd⟩
      exact ⟨d, List.mem_cons_of_mem b hd, hcd⟩

/-- Where a step is taken for each element of a list, each result comes from the element at its
    place. -/
theorem forall₂_of_mapM {f : α → Except ε β} {as : List α} {bs : List β}
    (h : as.mapM f = .ok bs) : List.Forall₂ (fun a b => f a = .ok b) as bs := by
  induction as generalizing bs with
  | nil =>
      rw [List.mapM_nil] at h
      rw [← Except.ok.inj h]
      exact .nil
  | cons a rest ih =>
      rw [List.mapM_cons] at h
      rcases bind_eq_ok.mp h with ⟨first, hfirst, h⟩
      rcases bind_eq_ok.mp h with ⟨others, hothers, h⟩
      rw [← Except.ok.inj h]
      exact .cons hfirst (ih hothers)

/-- Each result of such steps comes from some element. -/
theorem exists_of_mapM {f : α → Except ε β} {as : List α} {bs : List β}
    (h : as.mapM f = .ok bs) : ∀ b ∈ bs, ∃ a ∈ as, f a = .ok b :=
  partner_of_forall₂ (forall₂_of_mapM h).flip

/-- A step for each element of a list yields as many results. -/
theorem length_of_mapM {f : α → Except ε β} {as : List α} {bs : List β}
    (h : as.mapM f = .ok bs) : bs.length = as.length :=
  (forall₂_of_mapM h).length_eq.symm

/-- Where a step succeeds only on elements that look like its result, the elements look like the
    results one by one. -/
theorem map_of_mapM {γ : Type} {f : α → Except ε β} {g : α → γ} {g' : β → γ} {as : List α}
    {bs : List β} (hf : ∀ a b, f a = .ok b → g a = g' b) (h : as.mapM f = .ok bs) :
    as.map g = bs.map g' := by
  rw [← List.forall₂_eq_eq_eq, List.forall₂_map_left_iff, List.forall₂_map_right_iff]
  exact (forall₂_of_mapM h).imp hf

/-- A step that undoes another one for each element undoes it for the list. -/
theorem mapM_map_eq_ok {f : β → Except ε α} {g : α → β} (as : List α)
    (h : ∀ a ∈ as, f (g a) = .ok a) : (as.map g).mapM f = .ok as := by
  induction as with
  | nil => rfl
  | cons a rest ih =>
      rw [List.forall_mem_cons] at h
      rw [List.map_cons, List.mapM_cons, h.1, ok_bind, ih h.2]
      rfl

/-- What holds of a state and is kept by every step holds of the state after all steps. -/
theorem foldlM_keeps {σ : Type} {f : σ → α → Except ε σ} {P : σ → Prop} (as : List α)
    (hstep : ∀ a ∈ as, ∀ s s', P s → f s a = .ok s' → P s') :
    ∀ s s', P s → as.foldlM f s = .ok s' → P s' := by
  induction as with
  | nil =>
      intro s s' hs h
      rw [← Except.ok.inj h]
      exact hs
  | cons a rest ih =>
      intro s s' hs h
      rw [List.foldlM_cons] at h
      rcases bind_eq_ok.mp h with ⟨next, hnext, h⟩
      exact ih (fun b hb => hstep b (List.mem_cons_of_mem a hb)) next s'
        (hstep a List.mem_cons_self s next hs hnext) h

/-- What is made of a result comes from a result. -/
theorem map_eq_ok {f : α → β} {x : Except ε α} {b : β} :
    x.map f = .ok b ↔ ∃ a, x = .ok a ∧ f a = b := by
  cases x with
  | error e => simp only [Except.map, reduceCtorEq, false_and, exists_false]
  | ok a => simp only [Except.map, Except.ok.injEq, exists_eq_left']

/-- Labels that stand beside the elements of a list stand beside the results. -/
theorem mapM_zip_eq_ok {γ δ : Type} {f : β → Except ε γ} {g : α → γ → δ} {as : List α}
    {bs : List β} {ds : List δ} (hlength : as.length = bs.length)
    (h : ((as.zip bs).mapM fun pair => (f pair.2).map (g pair.1)) = .ok ds) :
    ∃ cs, bs.mapM f = .ok cs ∧ ds = List.zipWith g as cs := by
  induction as generalizing bs ds with
  | nil =>
      rw [List.length_eq_zero_iff.mp hlength.symm] at h ⊢
      exact ⟨[], rfl, (Except.ok.inj h).symm⟩
  | cons a as ih =>
      cases bs with
      | nil => exact absurd hlength (Nat.succ_ne_zero as.length)
      | cons b bs =>
          rw [List.zip_cons_cons, List.mapM_cons] at h
          rcases bind_eq_ok.mp h with ⟨first, hfirst, h⟩
          rcases bind_eq_ok.mp h with ⟨others, hothers, h⟩
          rcases map_eq_ok.mp hfirst with ⟨c, hc, hfirst⟩
          rcases ih (Nat.succ.inj hlength) hothers with ⟨cs, hcs, hds⟩
          refine ⟨c :: cs, ?_, ?_⟩
          · rw [List.mapM_cons, hc, ok_bind, hcs]
            rfl
          · rw [← Except.ok.inj h, ← hfirst, hds, List.zipWith_cons_cons]

/-- What is made of the result of a sequence is made of the result of its last step. -/
theorem map_bind_eq {γ : Type} (x : Except ε α) (f : α → Except ε β) (g : β → γ) :
    (x >>= f).map g = x >>= fun a => (f a).map g := by
  cases x <;> rfl

/-- A step for an optional value, where there is a result only where there is a value. -/
theorem exists_of_optionMapM {f : α → Except ε β} {x : Option α} {y : Option β}
    (h : x.mapM f = .ok y) : ∀ b, y = some b → ∃ a, x = some a ∧ f a = .ok b := by
  intro b hb
  cases x with
  | none =>
      rw [← Except.ok.inj h] at hb
      exact absurd hb (by simp only [reduceCtorEq, not_false_eq_true])
  | some a =>
      rcases map_eq_ok.mp h with ⟨b', hb', heq⟩
      rw [hb, Option.some.injEq] at heq
      exact ⟨a, rfl, heq ▸ hb'⟩

theorem optionMapM_map_eq_ok {f : β → Except ε α} {g : α → β} (x : Option α)
    (h : ∀ a, x = some a → f (g a) = .ok a) : (x.map g).mapM f = .ok x := by
  cases x with
  | none => rfl
  | some a => exact map_eq_ok.mpr ⟨a, h a rfl, rfl⟩

/-- Wording an error differently does not make a result. -/
theorem mapError_eq_ok {ε' : Type} {f : ε → ε'} {x : Except ε α} {a : α} :
    x.mapError f = .ok a ↔ x = .ok a := by
  cases x with
  | error e =>
      have hworded : (Except.error e : Except ε α).mapError f = .error (f e) := rfl
      rw [hworded]
      simp only [reduceCtorEq]
  | ok b =>
      have hkept : (Except.ok b : Except ε α).mapError f = .ok b := rfl
      rw [hkept]
      simp only [Except.ok.injEq]

/-- The error that a step ends with, if it ends with one. -/
def errorOf? : Except ε α → Option ε
  | .ok _ => none
  | .error e => some e

theorem errorOf?_eq_none {x : Except ε α} : errorOf? x = none ↔ ∃ a, x = .ok a := by
  cases x with
  | error e => simp only [errorOf?, reduceCtorEq, exists_false]
  | ok a => simp only [errorOf?, Except.ok.injEq, exists_eq']

theorem exists_error {x : Except ε α} (h : ∀ a, x ≠ .ok a) : ∃ e, x = .error e := by
  cases x with
  | ok a => exact absurd rfl (h a)
  | error e => exact ⟨e, rfl⟩

theorem errorOf?_eq_some {x : Except ε α} {e : ε} : errorOf? x = some e ↔ x = .error e := by
  cases x with
  | error e => simp only [errorOf?, Option.some.injEq, Except.error.injEq]
  | ok a => simp only [errorOf?, reduceCtorEq]

/-- What is made of a result makes no error. -/
theorem errorOf?_map (f : α → β) (x : Except ε α) : errorOf? (x.map f) = errorOf? x := by
  cases x <;> rfl

/-- A sequence whose last step only puts results together ends with the first error of its
    steps. -/
theorem errorOf?_bind {γ : Type} (f : α → β → γ) (x : Except ε α) (y : Except ε β) :
    errorOf? (do
      let a ← x
      let b ← y
      return f a b) = (errorOf? x).or (errorOf? y) := by
  cases x with
  | error e => rfl
  | ok a => cases y <;> rfl

/-- A last step that never fails makes no error. -/
theorem errorOf?_bind_total (x : Except ε α) (f : α → Except ε β)
    (h : ∀ a, x = .ok a → errorOf? (f a) = none) : errorOf? (x >>= f) = errorOf? x := by
  cases x with
  | error e => rfl
  | ok a => exact h a rfl

/-- A step for each element of a list ends with the first error of the elements. -/
theorem errorOf?_mapM (f : α → Except ε β) (as : List α) :
    errorOf? (as.mapM f) = as.findSome? fun a => errorOf? (f a) := by
  induction as with
  | nil =>
      rw [List.mapM_nil]
      rfl
  | cons a rest ih =>
      rw [List.mapM_cons, List.findSome?_cons, ← ih]
      cases f a with
      | error e => rfl
      | ok b => cases rest.mapM f <;> rfl

/-- Every error that a step can end with has a property. -/
def Raises (P : ε → Prop) (x : Except ε α) : Prop :=
  ∀ e, x = .error e → P e

namespace Raises

variable {P : ε → Prop}

theorem ok (a : α) : Raises P (.ok a : Except ε α) :=
  fun _ h => absurd h (by simp only [reduceCtorEq, not_false_eq_true])

theorem error {e : ε} (h : P e) : Raises P (.error e : Except ε α) := by
  intro e' heq
  rw [← Except.error.inj heq]
  exact h

/-- A step that is refused goes no further. -/
theorem refused {e : ε} {f : α → Except ε β} (h : P e) :
    Raises P ((throw e : Except ε α) >>= f) :=
  error h

theorem bind {x : Except ε α} {f : α → Except ε β} (hx : Raises P x)
    (hf : ∀ a, x = .ok a → Raises P (f a)) : Raises P (x >>= f) := by
  intro e h
  rcases bind_eq_error.mp h with hfirst | ⟨a, ha, hsecond⟩
  · exact hx e hfirst
  · exact hf a ha e hsecond

theorem map {x : Except ε α} (f : α → β) (hx : Raises P x) : Raises P (x.map f) := by
  intro e h
  rw [← errorOf?_eq_some, errorOf?_map, errorOf?_eq_some] at h
  exact hx e h

theorem mapM {f : α → Except ε β} {as : List α} (h : ∀ a ∈ as, Raises P (f a)) :
    Raises P (as.mapM f) := by
  intro e herror
  rw [← errorOf?_eq_some, errorOf?_mapM] at herror
  rcases List.exists_of_findSome?_eq_some herror with ⟨a, ha, hfault⟩
  exact h a ha e (errorOf?_eq_some.mp hfault)

end Raises

/-- Two outcomes that are the same, unless the first one is an error that only occurs where
    something is stopped. -/
def SameUnless (stopped : Prop) (e : ε) (x y : Except ε α) : Prop :=
  x = y ∨ (stopped ∧ x = .error e)

namespace SameUnless

variable {stopped : Prop} {e : ε}

theorem refl (x : Except ε α) : SameUnless stopped e x x :=
  .inl rfl

theorem mono {other : Prop} {x y : Except ε α} (h : SameUnless stopped e x y)
    (himp : stopped → other) : SameUnless other e x y := by
  rcases h with heq | ⟨hstop, herror⟩
  · exact .inl heq
  · exact .inr ⟨himp hstop, herror⟩

theorem trans {x y z : Except ε α} (hxy : SameUnless stopped e x y)
    (hyz : SameUnless stopped e y z) : SameUnless stopped e x z := by
  rcases hxy with heq | hstopped
  · rw [heq]
    exact hyz
  · exact .inr hstopped

/-- What never stops leaves the outcome as it is. -/
theorem eq_of_not {x y : Except ε α} (h : SameUnless stopped e x y) (hnot : ¬ stopped) :
    x = y := by
  rcases h with heq | ⟨hstop, _⟩
  · exact heq
  · exact absurd hstop hnot

/-- Where the first step of a sequence is stopped, so is the sequence. -/
theorem bind {x y : Except ε α} {f g : α → Except ε β} (h : SameUnless stopped e x y)
    (hrest : ∀ a, SameUnless stopped e (f a) (g a)) :
    SameUnless stopped e (x >>= f) (y >>= g) := by
  rcases h with heq | ⟨hstop, herror⟩
  · rw [heq]
    cases y with
    | error _ => exact refl _
    | ok a => exact hrest a
  · rw [herror]
    exact .inr ⟨hstop, rfl⟩

theorem map {x y : Except ε α} (f : α → β) (h : SameUnless stopped e x y) :
    SameUnless stopped e (x.map f) (y.map f) := by
  rcases h with heq | ⟨hstop, herror⟩
  · rw [heq]
    exact refl _
  · rw [herror]
    exact .inr ⟨hstop, rfl⟩

end SameUnless

/-- Two outcomes that are the same error or two results in a relation. -/
inductive Alike (R : α → β → Prop) : Except ε α → Except ε β → Prop where
  | error (e : ε) : Alike R (.error e) (.error e)
  | ok (a : α) (b : β) (h : R a b) : Alike R (.ok a) (.ok b)

namespace Alike

variable {R : α → β → Prop}

/-- Sequences that start with the same step. -/
theorem bind {γ : Type} (x : Except ε γ) {f : γ → Except ε α} {g : γ → Except ε β}
    (h : ∀ c, x = .ok c → Alike R (f c) (g c)) : Alike R (x >>= f) (x >>= g) := by
  cases x with
  | error e => exact .error e
  | ok c => exact h c rfl

theorem mono {S : α → β → Prop} {x : Except ε α} {y : Except ε β} (h : Alike R x y)
    (hRS : ∀ a b, R a b → S a b) : Alike S x y := by
  cases h with
  | error e => exact .error e
  | ok a b hR => exact .ok a b (hRS a b hR)

/-- Results in a relation that forces them to be equal. -/
theorem eq_of {R : α → α → Prop} {x y : Except ε α} (h : Alike R x y) (hR : ∀ a b, R a b → a = b) :
    x = y := by
  cases h with
  | error e => rfl
  | ok a b hab => rw [hR a b hab]

theorem exists_ok {x : Except ε α} {y : Except ε β} (h : Alike R x y) {a : α} (hx : x = .ok a) :
    ∃ b, y = .ok b ∧ R a b := by
  cases h with
  | error e => exact absurd hx (by simp only [reduceCtorEq, not_false_eq_true])
  | ok a' b hR =>
      rw [← Except.ok.inj hx]
      exact ⟨b, rfl, hR⟩

end Alike

end Polyquery
