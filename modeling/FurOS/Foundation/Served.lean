import Mathlib.Data.List.FinRange
import FurOS.Foundation.Metered

/-! Computations in an environment that has a state.

A responder answers a request from its state, and a request can change that. `Follows` is for a
computation whose answers are the responder's: it returns one value and leaves the responder in one
state, and it has a run that does, whatever would be answered after it. There is one rule for each
way to put computations together. -/
namespace Foundation

/-- The answer to a request, and what the request leaves; the answer counts where the request is asked. -/
abbrev Responder (R A S : Type) := S → R → A × S

namespace Responder
variable {R A S : Type}

/-- The requests take the responder from one state to the other, and the answers are its own. -/
def Serves (env : Responder R A S) : S → List (Event R A) → S → Prop
  | s, [], t => t = s
  | s, .told r :: log, t => Serves env (env s r).2 log t
  | s, .asked r a :: log, t => a = (env s r).1 ∧ Serves env (env s r).2 log t

theorem serves_append {env : Responder R A S} {s t : S} {log log' : List (Event R A)} :
    env.Serves s (log ++ log') t ↔ ∃ m, env.Serves s log m ∧ env.Serves m log' t := by
  induction log generalizing s with
  | nil => simp [Serves]
  | cons e log ih =>
    cases e with
    | told r => exact ih
    | asked r a =>
      simp only [List.cons_append, Serves, ih]
      constructor
      · rintro ⟨ha, m, hlog, hlog'⟩
        exact ⟨m, ⟨ha, hlog⟩, hlog'⟩
      · rintro ⟨m, ⟨ha, hlog⟩, hlog'⟩
        exact ⟨ha, m, hlog, hlog'⟩

end Responder

/-- In the environment, from the state `s`, the computation returns `a` and leaves the state `t`. -/
structure Follows {R A S α : Type} (env : Responder R A S) (p : Metered R A α) (s : S) (a : α) (t : S) : Prop where
  run : ∀ τ, ∃ σ log, p.Runs σ a log ∧ env.Serves s log t ∧ Event.rest σ log = τ
  only : ∀ σ b log u, p.Runs σ b log → env.Serves s log u → b = a ∧ u = t

namespace Follows
variable {R A S α β : Type} {env : Responder R A S} {s t u : S} {a : α} {b : β} {p : Metered R A α}
  {f : α → Metered R A β}

theorem pure (a : α) (s : S) : Follows env (Pure.pure a) s a s where
  run τ := ⟨τ, [], Metered.runs_pure.mpr ⟨rfl, rfl⟩, rfl, Event.rest_nil τ⟩
  only σ b log u hrun hserves := by
    obtain ⟨rfl, rfl⟩ := Metered.runs_pure.mp hrun
    exact ⟨rfl, hserves⟩

theorem tell (r : R) (s : S) : Follows env (Metered.tell r) s () (env s r).2 where
  run τ := ⟨τ, _, Metered.runs_tell.mpr rfl, rfl, Event.rest_told τ r⟩
  only σ b log u hrun hserves := by
    rw [Metered.runs_tell.mp hrun] at hserves
    exact ⟨rfl, hserves⟩

theorem ask (r : R) (s : S) : Follows env (Metered.ask r) s (env s r).1 (env s r).2 where
  run τ := by
    let σ : Nat → A := fun n => Nat.rec (env s r).1 (fun k _ => τ k) n
    exact ⟨σ, _, Metered.runs_ask.mpr ⟨rfl, rfl⟩, ⟨rfl, rfl⟩, Event.rest_asked σ r _⟩
  only σ b log u hrun hserves := by
    obtain ⟨rfl, rfl⟩ := Metered.runs_ask.mp hrun
    exact hserves

/-- One after the other. -/
theorem bind (h : Follows env p s a t) (hf : Follows env (f a) t b u) : Follows env (p >>= f) s b u where
  run τ := by
    obtain ⟨σ', back, hback, hserves', hτ⟩ := hf.run τ
    obtain ⟨σ, front, hfront, hserves, rfl⟩ := h.run σ'
    refine ⟨σ, front ++ back, hfront.bind hback, Responder.serves_append.mpr ⟨t, hserves, hserves'⟩, ?_⟩
    rw [Event.rest_append, hτ]
  only σ c log v hrun hserves := by
    obtain ⟨a', front, back, hfront, hback, rfl⟩ := Metered.runs_bind.mp hrun
    obtain ⟨m, hm, hv⟩ := Responder.serves_append.mp hserves
    obtain ⟨rfl, rfl⟩ := h.only σ a' front m hfront hm
    exact hf.only _ c back v hback hv

/-- A request asked, of whose answer a part is returned. -/
theorem ask_pure (r : R) (s : S) (g : A → β) :
    Follows env (Metered.ask r >>= fun a => Pure.pure (g a)) s (g (env s r).1) (env s r).2 :=
  (ask r s).bind (pure _ _)

/-- A loop over the numbers below `n`, whose rounds leave the states `st`. -/
theorem foldlM_finRange {n : Nat} {body : α → Fin n → Metered R A α} {step : α → Fin n → α} (st : Nat → S)
    (h : ∀ a (k : Fin n), Follows env (body a k) (st k.val) (step a k) (st (k.val + 1))) (a : α) :
    Follows env ((List.finRange n).foldlM body a) (st 0) ((List.finRange n).foldl step a) (st n) := by
  have hprefix : ∀ k ≤ n, Follows env (((List.finRange n).take k).foldlM body a) (st 0)
      (((List.finRange n).take k).foldl step a) (st k) := by
    intro k hk
    induction k with
    | zero => exact pure a (st 0)
    | succ k ih =>
      have hlt : k < (List.finRange n).length := by
        rw [List.length_finRange]
        exact hk
      rw [List.take_succ_eq_append_getElem hlt, List.foldlM_append, List.foldl_append]
      refine (ih (Nat.le_of_succ_le hk)).bind ?_
      simp only [List.foldlM_cons, List.foldlM_nil, bind_pure, List.foldl_cons, List.foldl_nil,
        List.getElem_finRange]
      exact h _ ⟨k, hk⟩
  have hall := hprefix n (Nat.le_refl n)
  rwa [List.take_of_length_le (Nat.le_of_eq List.length_finRange)] at hall

/-- A loop on the answers is over. -/
theorem askWhile_stop {r : R} {cond : A → Bool} {c : A} (hstop : cond c = false) :
    Follows env (Metered.askWhile r cond c) s c s := by
  rw [Metered.askWhile_eq, if_neg (by simp [hstop])]
  exact pure c s

/-- A loop on the answers goes on. -/
theorem askWhile_step {r : R} {cond : A → Bool} {c d : A} (hgo : cond c = true)
    (h : Follows env (Metered.askWhile r cond (env s r).1) (env s r).2 d u) :
    Follows env (Metered.askWhile r cond c) s d u := by
  rw [Metered.askWhile_eq, if_pos hgo]
  exact (ask r s).bind h

end Follows

end Foundation
