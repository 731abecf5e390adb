import Mathlib.Data.List.Basic

/-! Paths as component lists, and walks along them.

`components` are the non-empty blocks between separators, and `spell` puts them
together again; `walk` takes one step a component and stops at the first that fails.
Both take `++` apart: a walk along a path continues from where the walk along its
first part ended. -/
namespace Foundation

section Components
variable {β : Type} (sep : β)

/-- The blocks, each after a separator. -/
def spell (blocks : List (List β)) : List β := blocks.flatMap (sep :: ·)

@[simp] theorem spell_nil : spell sep [] = [] := rfl

@[simp] theorem spell_cons (block : List β) (blocks : List (List β)) :
    spell sep (block :: blocks) = sep :: block ++ spell sep blocks := rfl

variable [DecidableEq β]

/-- The non-empty blocks between separators. -/
def components (path : List β) : List (List β) := (path.splitOn sep).filter (fun c => !c.isEmpty)

@[simp] theorem components_nil : components sep [] = [] := rfl

theorem components_block {block : List β} (h : sep ∉ block) :
    components sep block = if block = [] then [] else [block] := by
  unfold components
  rw [List.splitOn_eq_singleton h]
  cases block <;> simp

/-- A separator ends a component and starts the next. -/
theorem components_append (front back : List β) :
    components sep (front ++ sep :: back) = components sep front ++ components sep back := by
  unfold components
  rw [List.splitOn_append_cons_self, List.filter_append]

theorem components_sep (path : List β) : components sep (sep :: path) = components sep path := by
  simpa using components_append sep [] path

theorem no_sep_of_mem_splitOn {path block : List β} (h : block ∈ path.splitOn sep) : sep ∉ block := by
  induction path generalizing block with
  | nil =>
    simp only [List.splitOn_nil, List.mem_singleton] at h
    simp [h]
  | cons x rest ih =>
    rw [List.splitOn_cons_eq_if_modifyHead] at h
    split at h
    · rcases List.mem_cons.mp h with rfl | h
      · simp
      · exact ih h
    · rename_i hx
      cases hs : rest.splitOn sep with
      | nil => exact absurd hs (List.splitOn_ne_nil sep rest)
      | cons first others =>
        rw [hs, List.modifyHead_cons] at h
        rw [hs] at ih
        rcases List.mem_cons.mp h with rfl | h
        · rw [List.mem_cons, not_or]
          exact ⟨fun he => hx (by simp [he]), ih List.mem_cons_self⟩
        · exact ih (List.mem_cons_of_mem _ h)

theorem no_sep_of_mem_components {path block : List β} (h : block ∈ components sep path) :
    sep ∉ block ∧ block ≠ [] := by
  obtain ⟨hm, hne⟩ := List.mem_filter.mp h
  exact ⟨no_sep_of_mem_splitOn sep hm, by simpa using hne⟩

theorem components_spell {blocks : List (List β)} (h : ∀ block ∈ blocks, sep ∉ block ∧ block ≠ []) :
    components sep (spell sep blocks) = blocks := by
  induction blocks with
  | nil => rfl
  | cons block blocks ih =>
    obtain ⟨hsep, hne⟩ := h block List.mem_cons_self
    have hrest := ih fun b hb => h b (List.mem_cons_of_mem _ hb)
    rw [spell_cons, List.cons_append, components_sep]
    cases blocks with
    | nil => rw [spell_nil, List.append_nil, components_block sep hsep, if_neg hne]
    | cons next blocks =>
      rw [spell_cons, List.cons_append, components_sep] at hrest
      rw [spell_cons, List.cons_append, components_append, components_block sep hsep, if_neg hne, hrest]
      rfl

end Components

section Walk
variable {α τ : Type} (step : α → τ → Option α)

/-- One step a component, from `c`; `none` as soon as a step fails. -/
def walk (c : α) : List τ → Option α
  | [] => some c
  | s :: rest => (step c s).bind fun d => walk d rest

@[simp] theorem walk_nil (c : α) : walk step c [] = some c := rfl

@[simp] theorem walk_cons (c : α) (s : τ) (rest : List τ) :
    walk step c (s :: rest) = (step c s).bind fun d => walk step d rest := rfl

theorem walk_append (c : α) (front back : List τ) :
    walk step c (front ++ back) = (walk step c front).bind fun d => walk step d back := by
  induction front generalizing c with
  | nil => rfl
  | cons s rest ih =>
    rw [List.cons_append, walk_cons, walk_cons]
    cases step c s with
    | none => rfl
    | some d => exact ih d

variable {step}

/-- What every step preserves holds where a walk ends. -/
theorem walk_invariant {P : α → Prop} (hP : ∀ c s d, P c → step c s = some d → P d) {c d : α}
    {names : List τ} (hc : P c) (h : walk step c names = some d) : P d := by
  induction names generalizing c with
  | nil =>
    cases h
    exact hc
  | cons s rest ih =>
    rw [walk_cons] at h
    obtain ⟨e, he, h⟩ := Option.bind_eq_some_iff.mp h
    exact ih (hP c s e hc he) h

/-- A step function that agrees wherever the first succeeds walks to the same end. -/
theorem walk_mono {step' : α → τ → Option α} {P : α → Prop} {names : List τ}
    (hP : ∀ c s d, s ∈ names → P c → step c s = some d → P d ∧ step' c s = some d) {c d : α}
    (hc : P c) (h : walk step c names = some d) : walk step' c names = some d := by
  induction names generalizing c with
  | nil =>
    rw [walk_nil] at h ⊢
    exact h
  | cons s rest ih =>
    rw [walk_cons] at h ⊢
    obtain ⟨e, he, h⟩ := Option.bind_eq_some_iff.mp h
    obtain ⟨hPe, he'⟩ := hP c s e List.mem_cons_self hc he
    rw [he']
    exact ih (fun c s d hs => hP c s d (List.mem_cons_of_mem _ hs)) hPe h

/-- Step functions that agree wherever a walk can be walk alike. -/
theorem walk_congr {step' : α → τ → Option α} {P : α → Prop}
    (hP : ∀ c s d, P c → step c s = some d → P d) (hs : ∀ c s, P c → step' c s = step c s) {c : α}
    (hc : P c) (names : List τ) : walk step' c names = walk step c names := by
  induction names generalizing c with
  | nil => rfl
  | cons s rest ih =>
    rw [walk_cons, walk_cons, hs c s hc]
    cases hd : step c s with
    | none => rfl
    | some d => exact ih (hP c s d hc hd)

end Walk

end Foundation
