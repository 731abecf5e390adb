import Mathlib.Algebra.BigOperators.Fin
import Mathlib.Algebra.Order.BigOperators.Group.List
import Mathlib.Algebra.Order.Group.Nat
import Mathlib.Data.List.Basic
import Mathlib.Logic.Function.Basic

/-! Scanning a terminated string in an array.

`words` are the maximal runs of a string between separators. `Spells z a p s` says that the
string `s` stands in the array `a` from `p` on, up to the terminator `z`: what is read there
is its first character (`Spells.read_eq`), skipping over characters stops inside it
(`Spells.skip_eq`), and a terminator stored over one of its characters leaves the two strings
around it (`Spells.cut`). -/
namespace Foundation

/-! ### Words -/

section Words
variable {β : Type} {sep : β → Bool}

/-- The maximal runs of what is no separator. -/
def words (sep : β → Bool) (s : List β) : List (List β) := (s.splitOnP sep).filter fun w => !w.isEmpty

@[simp] theorem words_nil : words sep [] = [] := rfl

/-- A separator in front begins no word. -/
theorem words_sep {c : β} (hc : sep c = true) (s : List β) : words sep (c :: s) = words sep s := by
  unfold words
  rw [← List.nil_append (c :: s), List.splitOnP_append_cons [] s hc, List.splitOnP_nil]
  rfl

/-- Separators in front begin none either. -/
theorem words_dropWhile (s : List β) : words sep (s.dropWhile sep) = words sep s := by
  induction s with
  | nil => rfl
  | cons c rest ih =>
    cases hc : sep c with
    | true => rw [List.dropWhile_cons_of_pos hc, ih, words_sep hc]
    | false => rw [List.dropWhile_cons_of_neg (by simp [hc])]

/-- A string without separators is a word. -/
theorem words_word {w : List β} (hw : ∀ c ∈ w, sep c = false) (hne : w ≠ []) : words sep w = [w] := by
  unfold words
  rw [List.splitOnP_eq_singleton hw, List.filter_cons_of_pos (by simp [hne])]
  rfl

/-- A word ends at its first separator. -/
theorem words_append {w : List β} (hw : ∀ c ∈ w, sep c = false) (hne : w ≠ []) {c : β} (hc : sep c = true)
    (s : List β) : words sep (w ++ c :: s) = w :: words sep s := by
  unfold words
  rw [List.splitOnP_append_cons_of_forall_mem hw c hc, List.filter_cons_of_pos (by simp [hne])]

/-- The words of a string, with a separator each, are hardly longer than it. -/
theorem words_length (s : List β) : ((words sep s).map fun w => w.length + 1).sum ≤ s.length + 1 := by
  have hruns : ∀ s : List β, ((s.splitOnP sep).map fun w => w.length + 1).sum = s.length + 1 := by
    intro s
    induction s with
    | nil => rfl
    | cons c rest ih =>
      rw [List.splitOnP_cons_eq_if_modifyHead]
      split
      · simp [ih]
        omega
      · cases h : rest.splitOnP sep with
        | nil => exact absurd h (List.splitOnP_ne_nil sep rest)
        | cons w ws =>
          simp [h] at ih ⊢
          omega
  rw [← hruns s]
  exact (List.filter_sublist.map _).sum_le_sum (by simp)

/-- Joined words cost no more than a separator each. -/
theorem intercalate_length (z : β) (ws : List (List β)) :
    ([z].intercalate ws).length ≤ (ws.map fun w => w.length + 1).sum := by
  induction ws with
  | nil => exact Nat.le_refl 0
  | cons w rest ih =>
    cases rest with
    | nil => simp
    | cons next rest =>
      rw [List.intercalate_cons_cons, List.length_append, List.length_append, List.map_cons, List.sum_cons,
        List.length_singleton]
      omega

end Words

/-! ### Arrays -/

namespace Scan
variable {β : Type} {n : Nat}

/-- `*p`; `none` outside the array. -/
def read (a : Fin n → β) (p : Nat) : Option β := if h : p < n then some (a ⟨p, h⟩) else none

/-- `*p = b`; `none` outside the array. -/
def store (a : Fin n → β) (p : Nat) (b : β) : Option (Fin n → β) :=
  if h : p < n then some (Function.update a ⟨p, h⟩ b) else none

/-- `while (cond(*p)) p++`; `none` where it leaves the array. -/
def skip (cond : β → Bool) (a : Fin n → β) (p : Nat) : Option Nat :=
  if h : p < n then if cond (a ⟨p, h⟩) then skip cond a (p + 1) else some p else none
termination_by n - p

/-- Skipping stops at the first cell that is not skipped. -/
theorem skip_eq_some {cond : β → Bool} {a : Fin n → β} {p k : Nat} : skip cond a p = some k ↔
    (p ≤ k ∧ ∃ h : k < n, cond (a ⟨k, h⟩) = false) ∧ ∀ j (h : j < n), p ≤ j → j < k → cond (a ⟨j, h⟩) = true := by
  fun_induction skip cond a p with
  | case1 p hp hcond ih =>
    rw [ih]
    constructor
    · rintro ⟨⟨hle, hend⟩, hfront⟩
      refine ⟨⟨by omega, hend⟩, fun j hj hle' hlt => ?_⟩
      rcases Nat.eq_or_lt_of_le hle' with rfl | hlt'
      · exact hcond
      · exact hfront j hj hlt' hlt
    · rintro ⟨⟨hle, hk, hend⟩, hfront⟩
      have hne : p ≠ k := by
        rintro rfl
        rw [hcond] at hend
        cases hend
      exact ⟨⟨by omega, hk, hend⟩, fun j hj hle' => hfront j hj (by omega)⟩
  | case2 p hp hcond =>
    rw [Option.some.injEq]
    constructor
    · rintro rfl
      exact ⟨⟨Nat.le_refl p, hp, by simpa using hcond⟩, fun j _ hle hlt => absurd hlt (by omega)⟩
    · rintro ⟨⟨hle, _, _⟩, hfront⟩
      by_contra hne
      exact hcond (hfront p hp (Nat.le_refl p) (by omega))
  | case3 p hp =>
    constructor
    · intro h
      cases h
    · rintro ⟨⟨hle, hk, _⟩, _⟩
      omega

/-- Skipping leaves the array where everything in it is skipped. -/
theorem skip_eq_none {cond : β → Bool} {a : Fin n → β} {p : Nat} :
    skip cond a p = none ↔ ∀ j (h : j < n), p ≤ j → cond (a ⟨j, h⟩) = true := by
  fun_induction skip cond a p with
  | case1 p hp hcond ih =>
    rw [ih]
    constructor
    · intro h j hj hle
      rcases Nat.eq_or_lt_of_le hle with rfl | hlt
      · exact hcond
      · exact h j hj hlt
    · exact fun h j hj hle => h j hj (by omega)
  | case2 p hp hcond =>
    constructor
    · intro h
      cases h
    · exact fun h => absurd (h p hp (Nat.le_refl p)) hcond
  | case3 p hp => exact ⟨fun _ j hj hle => absurd hj (by omega), fun _ => rfl⟩

/-- The string `s` stands from `p` on, and a terminator after it. -/
def Spells (z : β) (a : Fin n → β) (p : Nat) : List β → Prop
  | [] => read a p = some z
  | c :: rest => c ≠ z ∧ read a p = some c ∧ Spells z a (p + 1) rest

instance decidableSpells [DecidableEq β] (z : β) (a : Fin n → β) : ∀ p s, Decidable (Spells z a p s)
  | p, [] => inferInstanceAs (Decidable (read a p = some z))
  | p, c :: rest =>
    have := decidableSpells z a (p + 1) rest
    inferInstanceAs (Decidable (c ≠ z ∧ read a p = some c ∧ Spells z a (p + 1) rest))

theorem read_eq_some {a : Fin n → β} {p : Nat} {b : β} : read a p = some b ↔ ∃ h : p < n, a ⟨p, h⟩ = b := by
  unfold read
  split
  · rename_i h
    simp [h]
  · rename_i h
    simp [h]

namespace Spells
variable {z : β} {a a' : Fin n → β} {p : Nat} {s : List β}

theorem read_eq (h : Spells z a p s) : read a p = some (s.headD z) := by
  cases s with
  | nil => exact h
  | cons c rest => exact h.2.1

theorem fits (h : Spells z a p s) : p + s.length < n := by
  induction s generalizing p with
  | nil =>
    obtain ⟨hp, _⟩ := read_eq_some.mp h
    exact hp
  | cons c rest ih =>
    have hrest := ih h.2.2
    rw [List.length_cons]
    omega

theorem not_mem (h : Spells z a p s) : z ∉ s := by
  induction s generalizing p with
  | nil => exact List.not_mem_nil
  | cons c rest ih =>
    intro hz
    cases List.mem_cons.mp hz with
    | inl heq => exact h.1 heq.symm
    | inr htail => exact ih h.2.2 htail

/-- Skipping stops at the first character that is not skipped, the terminator if it is none before. -/
theorem skip_eq {cond : β → Bool} (hz : cond z = false) (h : Spells z a p s) :
    skip cond a p = some (p + (s.takeWhile cond).length) := by
  induction s generalizing p with
  | nil =>
    obtain ⟨hp, hend⟩ := read_eq_some.mp h
    rw [skip, dif_pos hp, hend, if_neg (by simp [hz])]
    rfl
  | cons c rest ih =>
    obtain ⟨hp, hc⟩ := read_eq_some.mp h.2.1
    rw [skip, dif_pos hp, hc]
    cases hcond : cond c with
    | true =>
      rw [if_pos rfl, ih h.2.2, List.takeWhile_cons_of_pos hcond, List.length_cons]
      congr 1
      omega
    | false =>
      rw [if_neg (by simp), List.takeWhile_cons_of_neg (by simp [hcond])]
      rfl

/-- The end of a string is a string. -/
theorem drop {front back : List β} (h : Spells z a p (front ++ back)) : Spells z a (p + front.length) back := by
  induction front generalizing p with
  | nil => exact h
  | cons c rest ih =>
    have hrest := ih h.2.2
    rwa [Nat.add_assoc, Nat.add_comm 1] at hrest

/-- Cells that do not belong to the string do not matter. -/
theorem congr (h : Spells z a p s) (hsame : ∀ j : Fin n, p ≤ j.val → j.val ≤ p + s.length → a' j = a j) :
    Spells z a' p s := by
  have hread : ∀ {q b}, p ≤ q → q ≤ p + s.length → read a q = some b → read a' q = some b := by
    intro q b hlo hhi hb
    obtain ⟨hq, hb⟩ := read_eq_some.mp hb
    exact read_eq_some.mpr ⟨hq, (hsame ⟨q, hq⟩ hlo hhi).trans hb⟩
  induction s generalizing p with
  | nil => exact hread (Nat.le_refl p) (Nat.le_refl p) h
  | cons c rest ih =>
    rw [List.length_cons] at hsame hread
    refine ⟨h.1, hread (Nat.le_refl p) (by omega) h.2.1, ih h.2.2 (fun j hlo hhi => ?_) fun hlo hhi hb => ?_⟩
    · exact hsame j (by omega) (by omega)
    · exact hread (by omega) (by omega) hb

/-- A terminator stored over a character leaves what stood before it and after it. -/
theorem cut {front back : List β} {c : β} (h : Spells z a p (front ++ c :: back)) :
    ∃ a', store a (p + front.length) z = some a' ∧ Spells z a' p front ∧
      Spells z a' (p + front.length + 1) back ∧ ∀ j : Fin n, j.val ≠ p + front.length → a' j = a j := by
  have hfits := h.fits
  rw [List.length_append, List.length_cons] at hfits
  have hq : p + front.length < n := by omega
  have hother : ∀ j : Fin n, j.val ≠ p + front.length →
      Function.update a ⟨p + front.length, hq⟩ z j = a j := by
    intro j hj
    exact Function.update_of_ne (fun heq => hj (congrArg Fin.val heq)) _ _
  have hend : read (Function.update a ⟨p + front.length, hq⟩ z) (p + front.length) = some z :=
    read_eq_some.mpr ⟨hq, Function.update_self ..⟩
  have hafter : Spells z a (p + front.length + 1) back := h.drop.2.2
  refine ⟨_, dif_pos hq, ?_, hafter.congr fun j hlo _ => hother j (by omega), hother⟩
  clear hafter hfits
  generalize Function.update a ⟨p + front.length, hq⟩ z = a' at hother hend
  induction front generalizing p with
  | nil => exact hend
  | cons b rest ih =>
    rw [List.length_cons] at hq hother hend
    have hshift : p + 1 + rest.length = p + (rest.length + 1) := by omega
    obtain ⟨hne, hread, hrest⟩ := h
    obtain ⟨hp, hb⟩ := read_eq_some.mp hread
    refine ⟨hne, read_eq_some.mpr ⟨hp, (hother ⟨p, hp⟩ (by show p ≠ _; omega)).trans hb⟩, ?_⟩
    exact ih hrest (by omega) (by rwa [hshift]) (by rwa [hshift])

end Spells

end Scan

end Foundation
