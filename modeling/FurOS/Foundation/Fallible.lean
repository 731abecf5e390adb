import Mathlib.Logic.Basic

/-! Computations that may fail, taken apart at `>>=`.

`bind_eq_ok` inverts a sequence that succeeded; `Returns x P`, that `x` succeeds with
a value of which `P` holds, is built up along a sequence by `Returns.bind`. `Agree` runs
two computations side by side: both succeed, with related values, or both fail alike. -/
namespace Foundation

variable {ε α β : Type}

@[simp] theorem ok_bind (a : α) (f : α → Except ε β) : (Except.ok a >>= f) = f a := rfl

@[simp] theorem error_bind (e : ε) (f : α → Except ε β) : (Except.error e >>= f) = .error e := rfl

/-- A sequence succeeds when both parts do. -/
theorem bind_eq_ok {x : Except ε α} {f : α → Except ε β} {b : β} :
    (x >>= f) = .ok b ↔ ∃ a, x = .ok a ∧ f a = .ok b := by
  cases x with
  | error e =>
    constructor
    · intro h
      cases h
    · intro hs
      obtain ⟨a, h, _⟩ := hs
      cases h
  | ok a =>
    constructor
    · exact fun h => ⟨a, rfl, h⟩
    · intro hs
      obtain ⟨a', h, h'⟩ := hs
      cases h
      exact h'

/-- A test on the value that a computation gives, read off by evaluation. -/
theorem exists_of_check {x : Except ε α} {check : α → Bool}
    (h : (match x with
      | .ok a => check a
      | .error _ => false) = true) : ∃ a, x = .ok a ∧ check a = true := by
  cases x with
  | error e => cases h
  | ok a => exact ⟨a, rfl, h⟩

/-- The computation succeeds, and `P` holds of its value. -/
def Returns (x : Except ε α) (P : α → Prop) : Prop := ∃ a, x = .ok a ∧ P a

namespace Returns
variable {P : α → Prop} {Q : β → Prop}

theorem ok {a : α} (h : P a) : Returns (.ok a : Except ε α) P := ⟨a, rfl, h⟩

theorem bind {x : Except ε α} {f : α → Except ε β} (hx : Returns x P)
    (hf : ∀ a, P a → Returns (f a) Q) : Returns (x >>= f) Q := by
  obtain ⟨a, rfl, ha⟩ := hx
  exact hf a ha

theorem mono {x : Except ε α} {P' : α → Prop} (hx : Returns x P) (h : ∀ a, P a → P' a) :
    Returns x P' := by
  obtain ⟨a, hxa, ha⟩ := hx
  exact ⟨a, hxa, h a ha⟩

theorem ite {c : Prop} [Decidable c] {x y : Except ε α} (hx : c → Returns x P)
    (hy : ¬ c → Returns y P) : Returns (if c then x else y) P := by
  by_cases hc : c
  · rw [if_pos hc]
    exact hx hc
  · rw [if_neg hc]
    exact hy hc

end Returns

/-- Both computations succeed, with related values, or both fail with the same error. -/
inductive Agree (R : α → β → Prop) : Except ε α → Except ε β → Prop where
  | ok {a : α} {b : β} : R a b → Agree R (.ok a) (.ok b)
  | error (e : ε) : Agree R (.error e) (.error e)

namespace Agree
variable {γ δ : Type} {R : α → β → Prop} {S : γ → δ → Prop}

theorem refl {R : α → α → Prop} (h : ∀ a, R a a) (x : Except ε α) : Agree R x x := by
  cases x with
  | error e => exact .error e
  | ok a => exact .ok (h a)

/-- `bind`, where the continuation may use what the first computation gave. -/
theorem bind_of_ok {x : Except ε α} {y : Except ε β} {f : α → Except ε γ} {g : β → Except ε δ}
    (h : Agree R x y) (hfg : ∀ a b, x = .ok a → R a b → Agree S (f a) (g b)) :
    Agree S (x >>= f) (y >>= g) := by
  cases h with
  | ok hab => exact hfg _ _ rfl hab
  | error e => exact .error e

theorem bind {x : Except ε α} {y : Except ε β} {f : α → Except ε γ} {g : β → Except ε δ}
    (h : Agree R x y) (hfg : ∀ a b, R a b → Agree S (f a) (g b)) : Agree S (x >>= f) (y >>= g) :=
  h.bind_of_ok fun a b _ => hfg a b

/-- The same computation, continued in two ways. -/
theorem bind_same {x : Except ε α} {f : α → Except ε γ} {g : α → Except ε δ}
    (hfg : ∀ a, Agree S (f a) (g a)) : Agree S (x >>= f) (x >>= g) :=
  (refl (fun _ => rfl) x).bind fun a _ hab => hab ▸ hfg a

theorem ite {c : Prop} [Decidable c] {x x' : Except ε α} {y y' : Except ε β} (hx : c → Agree R x y)
    (hy : ¬ c → Agree R x' y') : Agree R (if c then x else x') (if c then y else y') := by
  by_cases hc : c
  · rw [if_pos hc, if_pos hc]
    exact hx hc
  · rw [if_neg hc, if_neg hc]
    exact hy hc

end Agree

end Foundation
