import Mathlib.Data.List.GetD
import Mathlib.Logic.Function.Basic

/-! Arrays with every access checked.

An array of `n` cells is read and written at an integer, and there is no result outside of it. A block
is copied cell by cell, upwards (`copyUp`) or, to a place further on in it, downwards (`copyDown`); what
either leaves is said by what a read finds. `Holds` says which list stands at the start of the array. -/
namespace Foundation.Cells
variable {β : Type} {n : Nat}

def read (a : Fin n → β) (i : Int) : Option β :=
  if h : 0 ≤ i ∧ i < n then some (a ⟨i.toNat, by omega⟩) else none

def write (a : Fin n → β) (i : Int) (c : β) : Option (Fin n → β) :=
  if h : 0 ≤ i ∧ i < n then some (Function.update a ⟨i.toNat, by omega⟩ c) else none

/-- `count` cells from `src` on copied to `dst` and on, the first of them first. -/
def copyUp (dst src : Int) : (count : Nat) → (Fin n → β) → Option (Fin n → β)
  | 0, a => some a
  | count + 1, a => do
    let c ← read a src
    let a ← write a dst c
    copyUp (dst + 1) (src + 1) count a

/-- The `count` cells from `p` on copied a cell further, the last of them first. -/
def copyDown (p : Int) : (count : Nat) → (Fin n → β) → Option (Fin n → β)
  | 0, a => some a
  | count + 1, a => do
    let c ← read a (p + count)
    let a ← write a (p + count + 1) c
    copyDown p count a

/-- The elements of a list put in the cells from `i` on, as many as there is room for. -/
def fill (a : Fin n → β) (i : Nat) : List β → Fin n → β
  | [] => a
  | c :: l => fill (if h : i < n then Function.update a ⟨i, h⟩ c else a) (i + 1) l

/-- The cells from `i` on, as many as there are rounds, put together by `f`. -/
def foldUp {σ : Type} (f : σ → β → σ) (a : Fin n → β) (i : Int) : (count : Nat) → σ → Option σ
  | 0, s => some s
  | count + 1, s => do
    let c ← read a i
    foldUp f a (i + 1) count (f s c)

variable {a : Fin n → β} {i : Int} {c : β}

theorem read_of_lt (h0 : 0 ≤ i) (h : i < n) : ∃ c, read a i = some c := ⟨_, dif_pos ⟨h0, h⟩⟩

/-- A cell in the array can be written, and is then the only one changed. -/
theorem write_of_lt (h0 : 0 ≤ i) (h : i < n) (c : β) :
    ∃ a', write a i c = some a' ∧ ∀ j, read a' j = if j = i then some c else read a j := by
  refine ⟨_, dif_pos ⟨h0, h⟩, fun j => ?_⟩
  by_cases hj : 0 ≤ j ∧ j < n
  · unfold read
    rw [dif_pos hj, dif_pos hj]
    by_cases hji : j = i
    · subst hji
      rw [if_pos rfl]
      exact congrArg some (Function.update_self ..)
    · rw [if_neg hji]
      refine congrArg some (Function.update_of_ne ?_ c a)
      intro heq
      have := congrArg Fin.val heq
      dsimp only at this
      omega
  · unfold read
    rw [dif_neg hj, dif_neg hj, if_neg (by omega)]

/-- Copying a block to before it. -/
theorem copyUp_read {dst src : Int} (hdst : 0 ≤ dst) (hle : dst ≤ src) (count : Nat) (h : src + count ≤ n) :
    ∃ a', copyUp dst src count a = some a' ∧
      ∀ j, read a' j = if dst ≤ j ∧ j < dst + count then read a (j + (src - dst)) else read a j := by
  induction count generalizing dst src a with
  | zero => exact ⟨a, rfl, fun j => (if_neg (by omega)).symm⟩
  | succ count ih =>
    obtain ⟨c, hc⟩ := read_of_lt (a := a) (i := src) (by omega) (by omega)
    obtain ⟨a₁, hwrite, hread⟩ := write_of_lt (a := a) (i := dst) hdst (by omega) c
    have hdst' : 0 ≤ dst + 1 := by omega
    have hle' : dst + 1 ≤ src + 1 := by omega
    obtain ⟨a', hcopy, hcells⟩ := ih (a := a₁) hdst' hle' (by omega)
    refine ⟨a', ?_, fun j => ?_⟩
    · rw [copyUp, hc, Option.bind_eq_bind, Option.bind_some, hwrite, Option.bind_eq_bind,
        Option.bind_some, hcopy]
    · have hdist : src + 1 - (dst + 1) = src - dst := by omega
      rw [hcells, hdist, hread, hread]
      by_cases hfirst : j = dst
      · have hj : j + (src - dst) = src := by omega
        rw [if_neg (by omega), if_pos hfirst, if_pos (by omega), hj, hc]
      · rw [if_neg hfirst]
        by_cases hin : dst + 1 ≤ j ∧ j < dst + 1 + count
        · rw [if_pos hin, if_neg (by omega), if_pos (by omega)]
        · rw [if_neg hin, if_neg (by omega)]

/-- Moving a block a cell further. -/
theorem copyDown_read {p : Int} (hp : 0 ≤ p) (count : Nat) (h : p + count < n) :
    ∃ a', copyDown p count a = some a' ∧
      ∀ j, read a' j = if p < j ∧ j ≤ p + count then read a (j - 1) else read a j := by
  induction count generalizing a with
  | zero => exact ⟨a, rfl, fun j => (if_neg (by omega)).symm⟩
  | succ count ih =>
    obtain ⟨c, hc⟩ := read_of_lt (a := a) (i := p + count) (by omega) (by omega)
    obtain ⟨a₁, hwrite, hread⟩ := write_of_lt (a := a) (i := p + count + 1) (by omega) (by omega) c
    obtain ⟨a', hcopy, hcells⟩ := ih (a := a₁) (by omega)
    refine ⟨a', ?_, fun j => ?_⟩
    · rw [copyDown, hc, Option.bind_eq_bind, Option.bind_some, hwrite, Option.bind_eq_bind,
        Option.bind_some, hcopy]
    · rw [hcells, hread, hread]
      by_cases hlast : j = p + count + 1
      · have hj : j - 1 = p + count := by omega
        rw [if_neg (by omega), if_pos hlast, if_pos (by omega), hj, hc]
      · rw [if_neg hlast]
        by_cases hin : p < j ∧ j ≤ p + count
        · rw [if_pos hin, if_neg (by omega), if_pos (by omega)]
        · rw [if_neg hin, if_neg (by omega)]

/-- A cell is filled with the element that has its place. -/
theorem fill_apply (a : Fin n → β) (i : Nat) (l : List β) (j : Fin n) :
    fill a i l j = if j.val < i then a j else l[j.val - i]?.getD (a j) := by
  induction l generalizing a i with
  | nil => simp [fill]
  | cons c l ih =>
    rw [fill, ih]
    rcases Nat.lt_trichotomy j.val i with hlt | heq | hgt
    · rw [if_pos (by omega), if_pos hlt]
      split
      · refine Function.update_of_ne (fun heq => ?_) c a
        rw [heq] at hlt
        exact absurd hlt (Nat.lt_irrefl i)
      · rfl
    · obtain rfl := heq
      rw [if_pos (Nat.lt_succ_self _), if_neg (Nat.lt_irrefl _), dif_pos j.isLt, Nat.sub_self]
      exact Function.update_self j c a
    · obtain ⟨k, hk⟩ : ∃ k, j.val = i + k + 1 := ⟨j.val - i - 1, by omega⟩
      have hfront : j.val - (i + 1) = k := by omega
      have hback : j.val - i = k + 1 := by omega
      rw [if_neg (by omega), if_neg (by omega), hfront, hback, List.getElem?_cons_succ]
      split
      · rw [Function.update_of_ne]
        intro heq
        have hval := congrArg Fin.val heq
        dsimp only at hval
        omega
      · rfl

/-! ### A list at the start of an array -/

/-- The array begins with the list. -/
structure Holds (a : Fin n → β) (l : List β) : Prop where
  length_le : l.length ≤ n
  read : ∀ i : Nat, i < l.length → Cells.read a i = l[i]?

namespace Holds
variable {l : List β}

theorem read_getElem (h : Holds a l) {i : Nat} (hi : i < l.length) : Cells.read a i = some l[i] := by
  rw [h.read i hi, List.getElem?_eq_getElem hi]

/-- A list that fills the array from its start. -/
theorem of_fill (a : Fin n → β) (l : List β) : Holds (fill a 0 l) (l.take n) := by
  refine ⟨List.length_take_le n l, fun i hi => ?_⟩
  rw [List.length_take] at hi
  rw [Cells.read, dif_pos (by omega), fill_apply, if_neg (Nat.not_lt_zero _), List.getElem?_take_of_lt (by omega)]
  have hcell : l[i]? = some l[i] := List.getElem?_eq_getElem (by omega)
  show some (l[i]?.getD _) = _
  rw [hcell]
  rfl

/-- The first cells of the array, as a list. -/
theorem take_ofFn (h : Holds a l) : (List.ofFn a).take l.length = l := by
  have hlen := h.length_le
  refine List.ext_getElem (by simp [hlen]) fun i hi hi' => ?_
  have hcell := h.read_getElem hi'
  rw [Cells.read, dif_pos (by omega)] at hcell
  rw [List.getElem_take, List.getElem_ofFn]
  exact Option.some.inj hcell

theorem of_take (a : Fin n → β) {m : Nat} (hm : m ≤ n) : Holds a ((List.ofFn a).take m) := by
  have hlen : ((List.ofFn a).take m).length = m := List.length_take_of_le (by simpa using hm)
  refine ⟨le_of_eq_of_le hlen hm, fun i hi => ?_⟩
  rw [hlen] at hi
  rw [Cells.read, dif_pos (by omega), List.getElem?_take_of_lt hi, List.getElem?_ofFn, dif_pos (by omega)]
  rfl

/-- What begins with a list begins with the start of the list. -/
theorem of_append {l' : List β} (h : Holds a (l ++ l')) : Holds a l := by
  have hlen := h.length_le
  rw [List.length_append] at hlen
  refine ⟨by omega, fun i hi => ?_⟩
  rw [h.read i (by rw [List.length_append]; omega), List.getElem?_append_left hi]

/-- One element more. -/
theorem push (h : Holds a l) (hlt : l.length < n) (c : β) : ∃ a', write a l.length c = some a' ∧
    Holds a' (l ++ [c]) ∧ ∀ j : Int, j ≠ l.length → Cells.read a' j = Cells.read a j := by
  obtain ⟨a', hwrite, hcells⟩ := write_of_lt (a := a) (i := l.length) (by omega) (by omega) c
  refine ⟨a', hwrite, ⟨by simp; omega, fun i hi => ?_⟩, fun j hj => by rw [hcells, if_neg hj]⟩
  rw [List.length_append, List.length_singleton] at hi
  rw [hcells]
  by_cases hlast : i = l.length
  · rw [if_pos (by omega), hlast, List.getElem?_append_right (Nat.le_refl _), Nat.sub_self]
    rfl
  · rw [if_neg (by omega), h.read i (by omega), List.getElem?_append_left (by omega)]

/-- Cells of the list, put together. -/
theorem foldUp_eq (h : Holds a l) {σ : Type} (f : σ → β → σ) (s : σ) {i count : Nat}
    (hle : i + count ≤ l.length) :
    foldUp f a i count s = some (((l.drop i).take count).foldl f s) := by
  induction count generalizing i s with
  | zero => rw [List.take_zero]; rfl
  | succ count ih =>
    have hi : i < l.length := by omega
    have hnext := ih (f s l[i]) (i := i + 1) (by omega)
    rw [foldUp, h.read_getElem hi, Option.bind_eq_bind, Option.bind_some, List.drop_eq_getElem_cons hi,
      List.take_succ_cons, List.foldl_cons, ← hnext]
    rfl

/-- A character let in at `p`, after what is there is moved on. -/
theorem insert (h : Holds a l) {p : Nat} (hp : p ≤ l.length) (hlen : l.length < n) (c : β) :
    ∃ a₁ a₂, copyDown p (l.length - p) a = some a₁ ∧ write a₁ p c = some a₂ ∧
      Holds a₂ (l.take p ++ c :: l.drop p) := by
  obtain ⟨a₁, hcopy, hmoved⟩ := copyDown_read (a := a) (p := p) (by omega) (l.length - p) (by omega)
  obtain ⟨a₂, hwrite, hwritten⟩ := write_of_lt (a := a₁) (i := p) (by omega) (by omega) c
  have hall : (l.take p ++ c :: l.drop p).length = l.length + 1 := by
    simp only [List.length_append, List.length_take, List.length_cons, List.length_drop]
    omega
  have htake : (l.take p).length = p := List.length_take_of_le hp
  refine ⟨a₁, a₂, hcopy, hwrite, by omega, fun i hi => ?_⟩
  rw [hwritten, hmoved]
  rcases Nat.lt_trichotomy i p with hlt | rfl | hlt
  · rw [if_neg (by omega), if_neg (by omega), h.read i (by omega), List.getElem?_append_left (by omega),
      List.getElem?_take_of_lt hlt]
  · rw [if_pos rfl, List.getElem?_append_right (by omega), htake, Nat.sub_self]
    rfl
  · obtain ⟨d, rfl⟩ : ∃ d, i = p + d + 1 := ⟨i - (p + 1), by omega⟩
    have hpred : ((p + d + 1 : Nat) : Int) - 1 = (p + d : Nat) := by omega
    have hoff : p + d + 1 - p = d + 1 := by omega
    rw [if_neg (by omega), if_pos (by omega), hpred, h.read (p + d) (by omega),
      List.getElem?_append_right (by omega), htake, hoff, List.getElem?_cons_succ, List.getElem?_drop]

/-- A character taken out at `p`: what stands behind it is copied over it. -/
theorem erase (h : Holds a l) {p : Nat} (hp : p < l.length) (count : Nat) (hcount : l.length - p - 1 ≤ count)
    (hroom : p + 1 + count ≤ n) : ∃ a', copyUp p (p + 1) count a = some a' ∧ Holds a' (l.eraseIdx p) := by
  have hstart : (0 : Int) ≤ p := by omega
  have hbehind : (p : Int) ≤ p + 1 := by omega
  obtain ⟨a', hcopy, hmoved⟩ := copyUp_read (a := a) hstart hbehind count (by omega)
  have hlen : (l.eraseIdx p).length = l.length - 1 := List.length_eraseIdx_of_lt hp
  have hle := h.length_le
  refine ⟨a', hcopy, by omega, fun i hi => ?_⟩
  rw [hmoved]
  by_cases hlt : i < p
  · rw [if_neg (by omega), h.read i (by omega), List.getElem?_eraseIdx_of_lt hlt]
  · have hsucc : (i : Int) + ((p : Int) + 1 - p) = (i + 1 : Nat) := by omega
    rw [if_pos (by omega), hsucc, h.read (i + 1) (by omega), List.getElem?_eraseIdx_of_ge (by omega)]

end Holds

end Foundation.Cells
