import Mathlib.Logic.Function.Basic

/-! An endless tape with a head.

The cells are numbered by the integers and cut into lines of `w`. A character is put at the
head and moves it on, one is taken back from before it, and a new line starts at the next
multiple of `w`. `Holds` says which string was put last; a tape that is blank from the head
on is one on which taking back undoes putting (`back_put`). -/
namespace Foundation

structure Tape (β : Type) where
  cells : Int → β
  pos : Int

namespace Tape
variable {β : Type}

def put (c : β) (τ : Tape β) : Tape β := ⟨Function.update τ.cells τ.pos c, τ.pos + 1⟩

/-- A blank `z` is left behind. -/
def back (z : β) (τ : Tape β) : Tape β := ⟨Function.update τ.cells (τ.pos - 1) z, τ.pos - 1⟩

def nextLine (w : Int) (τ : Tape β) : Tape β := {τ with pos := (τ.pos / w + 1) * w}

/-- Blank from the head on. -/
def Fresh (z : β) (τ : Tape β) : Prop := ∀ i, τ.pos ≤ i → τ.cells i = z

section Operations
variable {w : Int} {z c : β} {τ : Tape β}

@[simp] theorem put_pos : (τ.put c).pos = τ.pos + 1 := rfl

@[simp] theorem back_pos : (τ.back z).pos = τ.pos - 1 := rfl

@[simp] theorem nextLine_pos : (τ.nextLine w).pos = (τ.pos / w + 1) * w := rfl

@[simp] theorem nextLine_cells : (τ.nextLine w).cells = τ.cells := rfl

theorem put_cells_self : (τ.put c).cells τ.pos = c := Function.update_self ..

theorem put_cells_of_ne {i : Int} (h : i ≠ τ.pos) : (τ.put c).cells i = τ.cells i := Function.update_of_ne h _ _

theorem back_cells_of_ne {i : Int} (h : i ≠ τ.pos - 1) : (τ.back z).cells i = τ.cells i :=
  Function.update_of_ne h _ _

/-- A new line starts after the head. -/
theorem lt_nextLine_pos (hw : 0 < w) : τ.pos < (τ.nextLine w).pos := Int.lt_ediv_add_one_mul_self τ.pos hw

theorem Fresh.put (h : τ.Fresh z) : (τ.put c).Fresh z := by
  intro i hi
  rw [put_pos] at hi
  rw [put_cells_of_ne (by omega)]
  exact h i (by omega)

theorem Fresh.nextLine (h : τ.Fresh z) (hw : 0 < w) : (τ.nextLine w).Fresh z := by
  intro i hi
  have hpos := lt_nextLine_pos (τ := τ) hw
  exact h i (by omega)

theorem Fresh.back (h : τ.Fresh z) : (τ.back z).Fresh z := by
  intro i hi
  rw [back_pos] at hi
  by_cases hself : i = τ.pos - 1
  · rw [hself]
    exact Function.update_self ..
  · rw [back_cells_of_ne hself]
    exact h i (by omega)

/-- Taking back what was put on a blank. -/
theorem back_put (h : τ.cells τ.pos = z) : (τ.put c).back z = τ := by
  unfold Tape.back Tape.put
  simp [← h]

/-- Taking back the start of a line that follows a full one. -/
theorem back_nextLine (h : (τ.nextLine w).pos = τ.pos + 1) (hz : τ.cells τ.pos = z) :
    (τ.nextLine w).back z = τ := by
  unfold Tape.back
  rw [h, nextLine_cells, Int.add_sub_cancel, ← hz, Function.update_eq_self]

end Operations

/-! ### The string before the head -/

/-- `s` stands from `o` up to the head. -/
structure Holds (o : Int) (s : List β) (τ : Tape β) : Prop where
  pos : τ.pos = o + s.length
  cells : ∀ (i : Nat) c, s[i]? = some c → τ.cells (o + i) = c

namespace Holds
variable {o : Int} {s : List β} {τ : Tape β}

theorem nil (h : τ.pos = o) : Holds o [] τ := ⟨by simp [h], by simp⟩

/-- Only the cells before the head matter. -/
theorem congr (h : Holds o s τ) {τ' : Tape β} (hpos : τ'.pos = τ.pos)
    (hcells : ∀ i, i < τ.pos → τ'.cells i = τ.cells i) :
    Holds o s τ' := by
  refine ⟨hpos.trans h.pos, fun i c hc => ?_⟩
  obtain ⟨hlt, _⟩ := List.getElem?_eq_some_iff.mp hc
  have hhead := h.pos
  rw [hcells _ (by omega), h.cells i c hc]

theorem put (h : Holds o s τ) (c : β) : Holds o (s ++ [c]) (τ.put c) := by
  have hpos := h.pos
  refine ⟨by rw [put_pos, hpos, List.length_append]; simp; omega, fun i d hd => ?_⟩
  by_cases hi : i < s.length
  · rw [List.getElem?_append_left hi] at hd
    rw [put_cells_of_ne (by omega), h.cells i d hd]
  · obtain ⟨hlt, hget⟩ := List.getElem?_eq_some_iff.mp hd
    rw [List.length_append, List.length_singleton] at hlt
    have hi' : i = s.length := by omega
    subst hi'
    have hc : c = d := by simpa using hget
    rw [← hpos, put_cells_self, hc]

theorem back (h : Holds o s τ) (hne : s ≠ []) (z : β) : Holds o s.dropLast (τ.back z) := by
  have hpos := h.pos
  have hlen := List.length_pos_iff.mpr hne
  refine ⟨by rw [back_pos, hpos, List.length_dropLast]; omega, fun i d hd => ?_⟩
  obtain ⟨hlt, hget⟩ := List.getElem?_eq_some_iff.mp hd
  rw [List.length_dropLast] at hlt
  rw [back_cells_of_ne (by omega)]
  apply h.cells
  rw [List.getElem?_eq_some_iff]
  exact ⟨by omega, by rw [← hget, List.getElem_dropLast]⟩

end Holds

end Tape

end Foundation
