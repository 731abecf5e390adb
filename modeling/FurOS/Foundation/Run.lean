import FurOS.Foundation.Fallible
import Mathlib.Data.List.Induction

/-! Runs of operations, and what holds along them.

An operation takes a state to the next one, or faults. `trace` is the state after
each operation of a list, `Admitted` says that every one was admitted in the state
it started from, and `Reachable` collects the states such runs pass through. What
every admitted operation preserves holds all along (`trace_invariant`,
`Reachable.invariant`). -/
namespace Foundation

variable {ε σ op : Type} (run : op → σ → Except ε σ) (admits : σ → op → Prop)

/-- The state after each operation, in order. -/
def trace (s : σ) : List op → Except ε (List σ)
  | [] => .ok []
  | o :: rest => do
    let s ← run o s
    let ts ← trace s rest
    return s :: ts

/-- Every operation is admitted in the state it starts from. -/
def Admitted (s : σ) : List op → Prop
  | [] => True
  | o :: rest => admits s o ∧ ∀ s', run o s = .ok s' → Admitted s' rest

/-- The states that runs of admitted operations pass through. -/
inductive Reachable (start : σ) : σ → Prop where
  | start : Reachable start start
  | step {s s' : σ} {o : op} : Reachable start s → admits s o → run o s = .ok s' → Reachable start s'

variable {run admits}

/-- **An admitted run never faults, and what every operation preserves holds after each.** -/
theorem trace_invariant {P : σ → Prop}
    (hP : ∀ s o, P s → admits s o → ∃ s', run o s = .ok s' ∧ P s') {s : σ} (hs : P s) {ops : List op}
    (ha : Admitted run admits s ops) :
    ∃ ts, trace run s ops = .ok ts ∧ ts.length = ops.length ∧ ∀ t ∈ ts, P t := by
  induction ops generalizing s with
  | nil => exact ⟨[], rfl, rfl, by simp⟩
  | cons o rest ih =>
    obtain ⟨hadm, hrest⟩ := ha
    obtain ⟨s', hs', hP'⟩ := hP s o hs hadm
    obtain ⟨ts, hts, hlen, hall⟩ := ih hP' (hrest s' hs')
    refine ⟨s' :: ts, ?_, by simp [hlen], ?_⟩
    · rw [trace, hs', ok_bind, hts]
      rfl
    · rintro t (_ | ⟨_, ht⟩)
      · exact hP'
      · exact hall t ht

theorem Reachable.invariant {P : σ → Prop}
    (hP : ∀ s o s', P s → admits s o → run o s = .ok s' → P s') {start s : σ} (h0 : P start)
    (h : Reachable run admits start s) : P s := by
  induction h with
  | start => exact h0
  | step _ ha hr ih => exact hP _ _ _ ih ha hr

/-- **What holds all along a run exactly if every step is a good one**: good steps keep an invariant
that gives it, and after the first one that is not good it does not hold. -/
theorem foldl_along_iff {κ : Type} {f : σ → κ → σ} {P I : σ → Prop} {good : σ → κ → Prop}
    (hkeep : ∀ s k, I s → good s k → I (f s k)) (hgives : ∀ s, I s → P s)
    (hmiss : ∀ s k, I s → ¬ good s k → ¬ P (f s k)) {s : σ} (hs : I s) (ks : List κ) :
    (∀ pre, pre <+: ks → P (pre.foldl f s)) ↔ ∀ pre k, pre ++ [k] <+: ks → good (pre.foldl f s) k := by
  have hinvariant (hgood : ∀ pre k, pre ++ [k] <+: ks → I (pre.foldl f s) → good (pre.foldl f s) k) (pre : List κ)
      (hpre : pre <+: ks) : I (pre.foldl f s) := by
    induction pre using List.reverseRecOn with
    | nil => exact hs
    | append_singleton pre k ih =>
      have hbefore := ih ((List.prefix_append pre [k]).trans hpre)
      rw [List.foldl_append]
      exact hkeep _ k hbefore (hgood pre k hpre hbefore)
  constructor
  · intro h
    have hgood (pre : List κ) (k : κ) (hpre : pre ++ [k] <+: ks) (hI : I (pre.foldl f s)) :
        good (pre.foldl f s) k := by
      by_contra hbad
      refine hmiss _ k hI hbad ?_
      have hafter := h _ hpre
      rwa [List.foldl_append] at hafter
    intro pre k hpre
    exact hgood pre k hpre (hinvariant hgood pre ((List.prefix_append pre [k]).trans hpre))
  · intro h pre hpre
    exact hgives _ (hinvariant (fun pre k hp _ => h pre k hp) pre hpre)

end Foundation
