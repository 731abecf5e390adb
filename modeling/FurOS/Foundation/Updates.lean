import Mathlib.Data.List.Basic
import Mathlib.Logic.Function.Basic

/-! A function updated at several points, one after the other.

Updates at the points `0`, …, `n - 1` in order leave a function that is the new
one below `n` and the old one from there on (`updates_range`). A loop that stores at each
of its points leaves at each what was stored there (`foldl_stores`). -/
namespace Foundation

variable {α β : Type} [DecidableEq α]

/-- The updates in order. -/
def updates (f : α → β) : List (α × β) → α → β
  | [] => f
  | (a, b) :: rest => updates (Function.update f a b) rest

theorem updates_concat (f : α → β) (l : List (α × β)) (a : α) (b : β) :
    updates f (l ++ [(a, b)]) = Function.update (updates f l) a b := by
  induction l generalizing f with
  | nil => rfl
  | cons p rest ih => exact ih _

theorem updates_range (f g : Nat → β) (n : Nat) :
    updates f ((List.range n).map fun i => (i, g i)) = fun i => if i < n then g i else f i := by
  induction n with
  | zero => rfl
  | succ n ih =>
    rw [List.range_succ, List.map_append, List.map_singleton, updates_concat, ih]
    funext i
    by_cases hi : i = n
    · subst hi
      rw [Function.update_self, if_pos (Nat.lt_succ_self i)]
    · rw [Function.update_of_ne hi]
      simp only [show i < n + 1 ↔ i < n by omega]

/-- What holds at a point once it was stored, and whatever is stored elsewhere, holds there at the end. -/
theorem foldl_stores {ι γ : Type} {step : γ → ι → γ} {P : ι → γ → Prop} (hset : ∀ c i, P i (step c i))
    (hkeep : ∀ c i j, j ≠ i → P j c → P j (step c i)) (l : List ι) (c : γ) : ∀ i ∈ l, P i (l.foldl step c) := by
  have hrest : ∀ (l : List ι) c i, P i c → P i (l.foldl step c) := by
    intro l
    induction l with
    | nil => exact fun _ _ h => h
    | cons j l ih =>
      intro c i h
      by_cases hij : i = j
      · subst hij
        exact ih _ i (hset c i)
      · exact ih _ i (hkeep c j i hij h)
  induction l generalizing c with
  | nil => simp
  | cons j l ih =>
    intro i hi
    rcases List.mem_cons.mp hi with rfl | hi
    · exact hrest l _ i (hset c i)
    · exact ih _ i hi

end Foundation
