import Mathlib.Data.List.Induction
import Mathlib.Data.Option.Defs
import FurOS.Foundation.Walk

/-! Walks that branch and never meet.

Where no edge leads to the root, and one at most to any other node, a walk from the root is known by its
end (`Branching.walk_inj`). So one more edge, to a new node, is one more walk (`Branching.walk_grow`), and one
node less, without edges of its own, is one walk less (`walk_prune`). Walks of which each step is matched
by a step of other walks are matched by those (`walk_related`). -/
namespace Foundation

section Walks
variable {α β τ : Type} {step step' : α → τ → Option α}

theorem walk_concat (step : α → τ → Option α) (c : α) (l : List τ) (s : τ) :
    walk step c (l ++ [s]) = (walk step c l).bind fun d => step d s := by
  rw [walk_append]
  cases walk step c l with
  | none => rfl
  | some d =>
    show (step d s).bind _ = step d s
    cases step d s <;> rfl

/-- Steps that match, for the names of a walk, make walks that match. -/
theorem walk_related {other : β → τ → Option β} {R : α → β → Prop} {names : List τ}
    (h : ∀ c d, R c d → ∀ s ∈ names, Option.Rel R (step c s) (other d s)) {c : α} {d : β} (hcd : R c d) :
    Option.Rel R (walk step c names) (walk other d names) := by
  induction names generalizing c d with
  | nil => exact .some hcd
  | cons s names ih =>
    rw [walk_cons, walk_cons]
    have hstep := h c d hcd s List.mem_cons_self
    cases hc : step c s with
    | none =>
      rw [hc] at hstep
      cases hd : other d s with
      | none => exact .none
      | some d' => rw [hd] at hstep; cases hstep
    | some c' =>
      rw [hc] at hstep
      cases hd : other d s with
      | none => rw [hd] at hstep; cases hstep
      | some d' =>
        rw [hd] at hstep
        cases hstep with
        | some hnext => exact ih (fun c d hcd s hs => h c d hcd s (List.mem_cons_of_mem _ hs)) hnext

/-- No edge leads to the root, and at most one to any other node. -/
structure Branching (step : α → τ → Option α) (root : α) : Prop where
  root : ∀ c s, step c s ≠ some root
  once : ∀ {c c' s s' d}, step c s = some d → step c' s' = some d → c = c' ∧ s = s'

variable {root : α}

/-- A walk that is not over has come over an edge. -/
theorem Branching.walk_root (h : Branching step root) {l : List τ} (hw : walk step root l = some root) : l = [] := by
  induction l using List.reverseRecOn with
  | nil => rfl
  | append_singleton l s _ =>
    rw [walk_concat] at hw
    obtain ⟨d, _, hd⟩ := Option.bind_eq_some_iff.mp hw
    exact absurd hd (h.root d s)

theorem Branching.walk_inj (h : Branching step root) {l l' : List τ} {d : α} (hl : walk step root l = some d)
    (hl' : walk step root l' = some d) : l = l' := by
  induction l using List.reverseRecOn generalizing l' d with
  | nil =>
    cases hl
    exact (h.walk_root hl').symm
  | append_singleton l s ih =>
    cases l' using List.reverseRecOn with
    | nil =>
      cases hl'
      exact h.walk_root hl
    | append_singleton l' s' =>
      rw [walk_concat] at hl hl'
      obtain ⟨c, hc, hstep⟩ := Option.bind_eq_some_iff.mp hl
      obtain ⟨c', hc', hstep'⟩ := Option.bind_eq_some_iff.mp hl'
      obtain ⟨rfl, rfl⟩ := h.once hstep hstep'
      rw [ih hc hc']

variable [DecidableEq α]

/-- An edge to a new node is a walk more. -/
theorem Branching.walk_grow [DecidableEq τ] (h : Branching step root) {p n : α} {s₀ : τ} {front : List τ}
    (hfront : walk step root front = some p) (hn : n ≠ root) (hnew : ∀ c s, step c s ≠ some n)
    (hnone : step p s₀ = none) (hedge : step' p s₀ = some n) (hleaf : ∀ s, step' n s = none)
    (hold : ∀ c s, c ≠ n → ¬ (c = p ∧ s = s₀) → step' c s = step c s) (l : List τ) :
    walk step' root l = if l = front ++ [s₀] then some n else walk step root l := by
  induction l using List.reverseRecOn with
  | nil =>
    rw [if_neg (by simp)]
    rfl
  | append_singleton l s ih =>
    have hat : l ++ [s] = front ++ [s₀] ↔ l = front ∧ s = s₀ := by simp
    rw [walk_concat, walk_concat, ih]
    by_cases hl : l = front ++ [s₀]
    · have hnot : ¬ (l = front ∧ s = s₀) := fun hboth => by
        have hlen := congrArg List.length (hl.symm.trans hboth.1)
        simp at hlen
      rw [if_pos hl, Option.bind_some, hleaf, if_neg (fun hboth => hnot (hat.mp hboth)), hl, walk_concat, hfront,
        Option.bind_some, hnone]
      rfl
    · rw [if_neg hl]
      cases hw : walk step root l with
      | none =>
        rw [Option.bind_none, if_neg fun hboth => ?_]
        · rfl
        · rw [(hat.mp hboth).1, hfront] at hw
          cases hw
      | some c =>
        have hcn : c ≠ n := fun heq => by
          subst heq
          cases l using List.reverseRecOn with
          | nil => exact hn (Option.some.inj hw).symm
          | append_singleton l s' =>
            rw [walk_concat] at hw
            obtain ⟨d, _, hd⟩ := Option.bind_eq_some_iff.mp hw
            exact hnew d s' hd
        rw [Option.bind_some, Option.bind_some]
        by_cases hcs : c = p ∧ s = s₀
        · rw [hcs.1] at hw
          rw [if_pos (hat.mpr ⟨h.walk_inj hw hfront, hcs.2⟩), hcs.1, hcs.2, hedge]
        · rw [hold c s hcn hcs, if_neg fun hboth => hcs ⟨?_, (hat.mp hboth).2⟩]
          rw [(hat.mp hboth).1, hfront] at hw
          exact (Option.some.inj hw).symm

/-- A node without edges of its own is a walk less. -/
theorem walk_prune {n : α} (hn : n ≠ root) (hleaf : ∀ s, step n s = none)
    (hold : ∀ c s, c ≠ n → step' c s = if step c s = some n then none else step c s) (l : List τ) :
    walk step' root l = if walk step root l = some n then none else walk step root l := by
  induction l using List.reverseRecOn with
  | nil =>
    rw [walk_nil, walk_nil, if_neg fun heq => hn (Option.some.inj heq).symm]
  | append_singleton l s ih =>
    rw [walk_concat, walk_concat, ih]
    by_cases hl : walk step root l = some n
    · rw [if_pos hl, hl, Option.bind_some, hleaf]
      rfl
    · rw [if_neg hl]
      cases hw : walk step root l with
      | none => rfl
      | some c =>
        have hcn : c ≠ n := fun heq => hl (heq ▸ hw)
        exact hold c s hcn

end Walks

end Foundation
