import Mathlib.Data.Fintype.Card

/-! Trees kept as parent pointers.

Nodes come from any type; some of them are live, some of the live ones may have
children (`inner`), and every node points at a parent, or nowhere. `Tree` says
that the live nodes form one tree below the root. A tree survives what a table
of nodes does to it: a new node put under an inner one (`Tree.insert`), a
childless node dropped (`Tree.erase`), anything that leaves the three functions
alone on the live nodes (`Tree.congr`). `Lineage` is the way down to a node. -/
namespace Foundation

variable {α : Type}

/-- Following parents from a node ends at the root. -/
inductive Rooted (parent : α → Option α) (root : α) : α → Prop where
  | root : Rooted parent root root
  | step {i j : α} : parent i = some j → Rooted parent root j → Rooted parent root i

/-- The live nodes form one tree: every live node but the root has a live inner
parent, and following parents from it ends at the root. -/
structure Tree (live inner : α → Prop) (parent : α → Option α) (root : α) : Prop where
  root_live : live root
  root_inner : inner root
  parent_live : ∀ i, live i → i ≠ root → ∃ p, parent i = some p ∧ live p ∧ inner p
  rooted : ∀ i, live i → Rooted parent root i

namespace Rooted
variable {parent parent' : α → Option α} {root : α}

/-- A path to the root inside a set closed under parents survives any change of
pointers outside the set. -/
theorem congr {S : α → Prop} (hS : ∀ i j, S i → i ≠ root → parent i = some j → S j)
    (he : ∀ i, S i → i ≠ root → parent' i = parent i) {i : α} (h : Rooted parent root i) (hi : S i) :
    Rooted parent' root i := by
  induction h with
  | root => exact .root
  | @step i j hp _ ih =>
    by_cases hr : i = root
    · subst hr
      exact .root
    · exact .step ((he i hi hr).trans hp) (ih (hS i j hi hr hp))

/-- Only the root may be its own parent. -/
theorem ne_self {i : α} (h : Rooted parent root i) (hi : i ≠ root) : parent i ≠ some i := by
  induction h with
  | root => exact absurd rfl hi
  | @step i j hp _ ih =>
    intro hself
    rw [hp] at hself
    obtain rfl := Option.some.inj hself
    exact ih hi hp

end Rooted

namespace Tree
variable {live inner : α → Prop} {parent : α → Option α} {root : α}

theorem congr {live' inner' : α → Prop} {parent' : α → Option α} (h : Tree live inner parent root)
    (hl : ∀ i, live' i ↔ live i) (hi : ∀ i, live i → (inner' i ↔ inner i))
    (hp : ∀ i, live i → i ≠ root → parent' i = parent i) : Tree live' inner' parent' root where
  root_live := (hl root).mpr h.root_live
  root_inner := (hi root h.root_live).mpr h.root_inner
  parent_live := fun i hli hr => by
    obtain ⟨p, hpi, hlp, hip⟩ := h.parent_live i ((hl i).mp hli) hr
    exact ⟨p, (hp i ((hl i).mp hli) hr).trans hpi, (hl p).mpr hlp, (hi p hlp).mpr hip⟩
  rooted := fun i hli => by
    refine Rooted.congr (S := live) ?_ hp (h.rooted i ((hl i).mp hli)) ((hl i).mp hli)
    intro i j hli hr hpi
    obtain ⟨p, hpi', hlp, _⟩ := h.parent_live i hli hr
    rw [hpi] at hpi'
    cases hpi'
    exact hlp

/-- A node that was not live, put under a live inner node. -/
theorem insert {live' inner' : α → Prop} {parent' : α → Option α} (h : Tree live inner parent root)
    (n p : α) (hn : ¬ live n) (hlp : live p) (hip : inner p)
    (hl : ∀ i, live' i ↔ live i ∨ i = n) (hi : ∀ i, live i → (inner' i ↔ inner i))
    (hp : ∀ i, live i → i ≠ root → parent' i = parent i) (hpn : parent' n = some p) :
    Tree live' inner' parent' root := by
  have hold : ∀ i, live i → Rooted parent' root i := fun i hli =>
    (h.congr (fun _ => Iff.rfl) hi hp).rooted i hli
  refine ⟨(hl root).mpr (.inl h.root_live), (hi root h.root_live).mpr h.root_inner, ?_, ?_⟩
  · intro i hli hr
    rcases (hl i).mp hli with hli | rfl
    · obtain ⟨q, hq, hlq, hiq⟩ := h.parent_live i hli hr
      exact ⟨q, (hp i hli hr).trans hq, (hl q).mpr (.inl hlq), (hi q hlq).mpr hiq⟩
    · exact ⟨p, hpn, (hl p).mpr (.inl hlp), (hi p hlp).mpr hip⟩
  · intro i hli
    rcases (hl i).mp hli with hli | rfl
    · exact hold i hli
    · exact .step hpn (hold p hlp)

/-- A live node other than the root, with no live child, dropped. -/
theorem erase {live' : α → Prop} (h : Tree live inner parent root) (n : α) (hn : n ≠ root)
    (hc : ∀ i, live i → i ≠ n → parent i ≠ some n) (hl : ∀ i, live' i ↔ live i ∧ i ≠ n) :
    Tree live' inner parent root := by
  refine ⟨(hl root).mpr ⟨h.root_live, hn.symm⟩, h.root_inner, ?_, ?_⟩
  · intro i hli hr
    obtain ⟨hli, hin⟩ := (hl i).mp hli
    obtain ⟨p, hp, hlp, hip⟩ := h.parent_live i hli hr
    refine ⟨p, hp, (hl p).mpr ⟨hlp, ?_⟩, hip⟩
    intro heq
    subst heq
    exact hc i hli hin hp
  · exact fun i hli => h.rooted i ((hl i).mp hli).1

end Tree

/-! ### The way down to a node -/

/-- The nodes below the root on the way to this one, which comes last. -/
inductive Lineage (parent : α → Option α) (root : α) : α → List α → Prop where
  | root : Lineage parent root root []
  | step {i j : α} {l : List α} : i ≠ root → parent i = some j → Lineage parent root j l →
      Lineage parent root i (l ++ [i])

theorem Rooted.lineage {parent : α → Option α} {root i : α} (h : Rooted parent root i) :
    ∃ l, Lineage parent root i l := by
  induction h with
  | root => exact ⟨[], .root⟩
  | @step i j hp _ ih =>
    by_cases hr : i = root
    · exact ⟨[], hr ▸ .root⟩
    · obtain ⟨l, hl⟩ := ih
      exact ⟨l ++ [i], .step hr hp hl⟩

namespace Lineage
variable {parent : α → Option α} {root : α}

theorem eq_nil_iff {i : α} {l : List α} (h : Lineage parent root i l) : l = [] ↔ i = root := by
  cases h with
  | root => simp
  | step hr => simp [hr]

theorem unique {i : α} {l l' : List α} (h : Lineage parent root i l) (h' : Lineage parent root i l') :
    l = l' := by
  induction h generalizing l' with
  | root => exact (h'.eq_nil_iff.mpr rfl).symm
  | @step i j l hr hp _ ih =>
    cases h' with
    | root => exact absurd rfl hr
    | @step _ j' m _ hp' hm =>
      rw [hp] at hp'
      cases hp'
      rw [ih hm]

/-- A node on the way is not the root, and the way to it is no longer. -/
theorem of_mem {i k : α} {l : List α} (h : Lineage parent root i l) (hk : k ∈ l) :
    k ≠ root ∧ ∃ m, Lineage parent root k m ∧ m.length ≤ l.length := by
  induction h with
  | root => cases hk
  | @step i j l hr hp hl ih =>
    rcases List.mem_append.mp hk with hk | hk
    · obtain ⟨hne, m, hm, hlen⟩ := ih hk
      exact ⟨hne, m, hm, hlen.trans (by simp)⟩
    · rw [List.mem_singleton.mp hk]
      exact ⟨hr, l ++ [i], .step hr hp hl, le_refl _⟩

/-- No node is met twice, since the way to it would be longer than itself. -/
theorem nodup {i : α} {l : List α} (h : Lineage parent root i l) : (root :: l).Nodup := by
  induction h with
  | root => simp
  | @step i j l hr hp hl ih =>
    have hnew : i ∉ l := by
      intro hi
      obtain ⟨_, m, hm, hlen⟩ := hl.of_mem hi
      rw [hm.unique (.step hr hp hl), List.length_append, List.length_singleton] at hlen
      omega
    rw [← List.cons_append, List.nodup_append]
    refine ⟨ih, by simp, fun a ha b hb => ?_⟩
    rw [List.mem_singleton.mp hb]
    intro heq
    subst heq
    rcases List.mem_cons.mp ha with ha | ha
    · exact hr ha
    · exact hnew ha

theorem length_lt_card [Fintype α] {i : α} {l : List α} (h : Lineage parent root i l) :
    l.length < Fintype.card α := h.nodup.length_le_card

/-- Every node on the way is live. -/
theorem live {live inner : α → Prop} (ht : Tree live inner parent root) {i : α} {l : List α}
    (h : Lineage parent root i l) (hi : live i) : ∀ k ∈ l, live k := by
  induction h with
  | root => simp
  | @step i j l hr hp _ ih =>
    intro k hk
    obtain ⟨p, hpi, hlp, _⟩ := ht.parent_live i hi hr
    rw [hp] at hpi
    cases hpi
    rcases List.mem_append.mp hk with hk | hk
    · exact ih hlp k hk
    · rwa [List.mem_singleton.mp hk]

end Lineage

end Foundation
