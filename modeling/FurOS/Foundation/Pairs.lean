import FurOS.Foundation.Fallible

/-! Two runs side by side.

A relation between two states that steps by related inputs keep is kept by whole runs, and what it makes look alike
looks alike all along. -/
namespace Foundation

section Pairs
variable {σ ι ε ω : Type} (step : ι → σ → Except ε σ)

/-- Steps, one after another. -/
def stepsOf : List ι → σ → Except ε σ
  | [], s => .ok s
  | i :: is, s => step i s >>= stepsOf is

/-- What is seen before each step and after the last, as far as the run gets. -/
def seen (view : σ → ω) : List ι → σ → List ω
  | [], s => [view s]
  | i :: is, s => view s :: (step i s).toOption.elim [] (seen view is)

/-- Two inputs at a time, that `A` allows where the two runs are. -/
inductive Paired (A : σ → σ → ι → ι → Prop) : List ι → List ι → σ → σ → Prop where
  | nil {s s' : σ} : Paired A [] [] s s'
  | cons {s s' : σ} {i i' : ι} {is is' : List ι} : A s s' i i' →
      (∀ t t', step i s = .ok t → step i' s' = .ok t' → Paired A is is' t t') → Paired A (i :: is) (i' :: is') s s'

/-- Both end in related states, or neither goes on. -/
def Together (R : σ → σ → Prop) (x x' : Except ε σ) : Prop :=
  (∃ s s', x = .ok s ∧ x' = .ok s' ∧ R s s') ∨ ∃ f f', x = .error f ∧ x' = .error f'

variable {step}

/-- **What one pair of steps keeps, a pair of runs keeps.** -/
theorem Paired.together {R : σ → σ → Prop} {A : σ → σ → ι → ι → Prop}
    (hstep : ∀ {s s' i i'}, R s s' → A s s' i i' → Together R (step i s) (step i' s')) {is is' : List ι} {s s' : σ}
    (h : Paired step A is is' s s') (hs : R s s') : Together R (stepsOf step is s) (stepsOf step is' s') := by
  induction h with
  | nil => exact .inl ⟨_, _, rfl, rfl, hs⟩
  | cons hA _ ih =>
    rcases hstep hs hA with ⟨t, t', ht, ht', hR⟩ | ⟨f, f', hf, hf'⟩
    · rw [stepsOf, stepsOf, ht, ht']
      exact ih t t' ht ht' hR
    · rw [stepsOf, stepsOf, hf, hf']
      exact .inr ⟨f, f', rfl, rfl⟩

/-- **Related states that look alike look alike all along.** -/
theorem Paired.seen_eq {R : σ → σ → Prop} {A : σ → σ → ι → ι → Prop} {view : σ → ω}
    (hview : ∀ {s s'}, R s s' → view s' = view s)
    (hstep : ∀ {s s' i i'}, R s s' → A s s' i i' → Together R (step i s) (step i' s')) {is is' : List ι} {s s' : σ}
    (h : Paired step A is is' s s') (hs : R s s') : seen step view is' s' = seen step view is s := by
  induction h with
  | nil => exact congrArg (fun x => [x]) (hview hs)
  | cons hA _ ih =>
    rw [seen, seen, hview hs]
    rcases hstep hs hA with ⟨t, t', ht, ht', hR⟩ | ⟨f, f', hf, hf'⟩
    · rw [ht, ht']
      exact congrArg (_ :: ·) (ih t t' ht ht' hR)
    · rw [hf, hf']
      rfl

end Pairs

end Foundation
