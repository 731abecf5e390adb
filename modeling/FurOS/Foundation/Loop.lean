import Mathlib.Algebra.Order.Ring.Int
import Mathlib.Tactic.Linarith

/-! Counting loops over a state, and their invariant rule. -/
namespace Foundation

variable {σ : Type} (body : Int → σ → σ)

/-- So many rounds of a loop, counting up from `lo`. -/
def rounds (lo : Int) : Nat → σ → σ
  | 0, s => s
  | n + 1, s => rounds (lo + 1) n (body lo s)

/-- `for (i = lo; i < hi; i++)`. -/
def forUp (lo hi : Int) (s : σ) : σ := rounds body lo (hi - lo).toNat s

variable {body}

theorem rounds_invariant {P : σ → Prop} {lo : Int} {n : Nat}
    (hbody : ∀ i s, lo ≤ i → i < lo + n → P s → P (body i s)) {s : σ} (hs : P s) :
    P (rounds body lo n s) := by
  induction n generalizing lo s with
  | zero => exact hs
  | succ n ih =>
    have hnext : P (body lo s) := hbody lo s (le_refl _) (by omega) hs
    exact ih (fun i s hlo hhi => hbody i s (by omega) (by omega)) hnext

/-- What every round keeps holds after the loop. -/
theorem forUp_invariant {P : σ → Prop} {lo hi : Int} (hbody : ∀ i s, lo ≤ i → i < hi → P s → P (body i s))
    {s : σ} (hs : P s) : P (forUp body lo hi s) :=
  rounds_invariant (fun i s hlo hhi => hbody i s hlo (by omega)) hs

/-- What every round takes one number further. -/
theorem rounds_count {P : Int → σ → Prop} {lo : Int} {n : Nat}
    (hbody : ∀ i s, lo ≤ i → i < lo + n → P i s → P (i + 1) (body i s)) {s : σ} (hs : P lo s) :
    P (lo + n) (rounds body lo n s) := by
  induction n generalizing lo s with
  | zero =>
    have hend : lo + ((0 : Nat) : Int) = lo := by omega
    rw [hend]
    exact hs
  | succ n ih =>
    have hnext : P (lo + 1) (body lo s) := hbody lo s (le_refl _) (by omega) hs
    have hrest := ih (fun i s hlo hhi => hbody i s (by omega) (by omega)) hnext
    have hend : lo + 1 + (n : Int) = lo + (n + 1 : Nat) := by omega
    rwa [hend] at hrest

/-- The same of the loop, if it runs up to its end. -/
theorem forUp_count {P : Int → σ → Prop} {lo hi : Int} (hle : lo ≤ hi)
    (hbody : ∀ i s, lo ≤ i → i < hi → P i s → P (i + 1) (body i s)) {s : σ} (hs : P lo s) :
    P hi (forUp body lo hi s) := by
  have hend : lo + ((hi - lo).toNat : Int) = hi := by omega
  have hrun := rounds_count (n := (hi - lo).toNat) (fun i s hlo hhi => hbody i s hlo (by omega)) hs
  rwa [hend] at hrun

end Foundation
