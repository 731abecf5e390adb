import FurOS.Screen.Vga

/-! Drawing at a position of the screen (`kernel/vga.c`).

These helpers store to the cells that they are asked for as far as the screen has them, and to no
others: what each leaves in a cell is said by `_cell`, over the cells of the screen. -/
namespace FurOS.Vga
open Foundation (forUp forUp_count)

def putAt (x y : Int) (c fg bg : UInt8) (v : Vga) : Vga :=
  if x < 0 ∨ y < 0 ∨ x ≥ width ∨ y ≥ height then v else v.store y x (entry c (entryColor fg bg))

/-- The loop of `vga_write_str_at` at column `x`. -/
def writeCharsAt (y : Int) (color : UInt8) : (x : Int) → List UInt8 → Vga → Vga
  | _, [], v => v
  | x, c :: s, v =>
    if x < width then
      writeCharsAt y color (x + 1) s (if x ≥ 0 ∧ y ≥ 0 ∧ y < height then v.store y x (entry c color) else v)
    else v

/-- `none` is the null pointer. -/
def writeStrAt (x y : Int) (str : Option CStr) (fg bg : UInt8) (v : Vga) : Vga :=
  match str with
  | none => v
  | some s => writeCharsAt y (entryColor fg bg) x s.chars v

/-- A row of `vga_fill_rect`. -/
def fillRow (x w : Int) (cell : UInt16) (row : Int) (v : Vga) : Vga :=
  if row < 0 ∨ row ≥ height then v
  else forUp (fun col v => if col < 0 ∨ col ≥ width then v else v.store row col cell) x (x + w) v

def fillRect (x y w h : Int) (c fg bg : UInt8) (v : Vga) : Vga :=
  forUp (fillRow x w (entry c (entryColor fg bg))) y (y + h) v

def setCursorPos (x y : Int) (v : Vga) : Vga :=
  let x := if x < 0 then 0 else x
  let y := if y < 0 then 0 else y
  {v with
    terminalColumn := if x ≥ width then width - 1 else x
    terminalRow := if y ≥ height then height - 1 else y}

/-! ### What is in a cell -/

def cell (v : Vga) (x y : Int) : UInt16 := v.memory (y * width + x)

/-- The color of a cell. -/
def color (cell : UInt16) : UInt8 := (cell >>> 8).toUInt8

@[simp] theorem color_entry (c color : UInt8) : Vga.color (entry c color) = color := by
  unfold Vga.color entry
  apply UInt8.eq_of_toBitVec_eq
  apply BitVec.eq_of_getLsbD_eq
  intro i hi
  have hlow : 8 + i < 16 := by omega
  simp [hi, hlow]

/-- The screen has such a cell. -/
def OnScreen (x y : Int) : Prop := (0 ≤ x ∧ x < width) ∧ 0 ≤ y ∧ y < height

section Cells
variable {x y : Int} (v : Vga)

theorem store_cell {row column : Int} (hc : 0 ≤ column ∧ column < width) (hx : 0 ≤ x ∧ x < width)
    (c : UInt16) :
    (v.store row column c).cell x y = if x = column ∧ y = row then c else v.cell x y := by
  show Function.update v.memory (row * width + column) c (y * width + x) = _
  split
  · next h =>
    obtain ⟨rfl, rfl⟩ := h
    exact Function.update_self ..
  · next h =>
    refine Function.update_of_ne ?_ c v.memory
    unfold width at *
    omega

theorem putAt_cell (h : OnScreen x y) (x' y' : Int) (c fg bg : UInt8) : (v.putAt x' y' c fg bg).cell x y =
    if x = x' ∧ y = y' then entry c (entryColor fg bg) else v.cell x y := by
  obtain ⟨hx, hy⟩ := h
  unfold putAt
  split
  · rw [if_neg (by omega)]
  · exact store_cell v (by omega) hx _

/-- A string takes up the cells from its start on, one for each of its characters. -/
theorem writeCharsAt_cell (h : OnScreen x y) (x' y' : Int) (color : UInt8) (s : List UInt8) :
    (writeCharsAt y' color x' s v).cell x y =
      if y = y' ∧ x' ≤ x ∧ x < x' + s.length then entry (s.getD (x - x').toNat 0) color else v.cell x y := by
  obtain ⟨hx, hy⟩ := h
  induction s generalizing x' v with
  | nil => exact (if_neg (by simp)).symm
  | cons c s ih =>
    rw [writeCharsAt, List.length_cons]
    by_cases hin : x' < width
    · have hfirst : (if x' ≥ 0 ∧ y' ≥ 0 ∧ y' < height then v.store y' x' (entry c color) else v).cell x y =
          if y = y' ∧ x = x' then entry c color else v.cell x y := by
        split
        · rw [store_cell v (by omega) hx]
          simp only [and_comm]
        · rw [if_neg (by omega)]
      rw [if_pos hin, ih, hfirst]
      by_cases hself : y = y' ∧ x = x'
      · have h0 : (x - x').toNat = 0 := by omega
        rw [if_neg (by omega), if_pos hself, if_pos (by omega), h0, List.getD_cons_zero]
      · rw [if_neg hself]
        by_cases hrest : y = y' ∧ x' + 1 ≤ x ∧ x < x' + 1 + s.length
        · have hsucc : (x - x').toNat = (x - (x' + 1)).toNat + 1 := by omega
          rw [if_pos hrest, if_pos (by omega), hsucc, List.getD_cons_succ]
        · rw [if_neg hrest, if_neg (by omega)]
    · rw [if_neg hin, if_neg (by omega)]

theorem writeStrAt_cell (h : OnScreen x y) (x' y' : Int) (s : CStr) (fg bg : UInt8) :
    (v.writeStrAt x' y' (some s) fg bg).cell x y =
      if y = y' ∧ x' ≤ x ∧ x < x' + s.chars.length
      then entry (s.chars.getD (x - x').toNat 0) (entryColor fg bg) else v.cell x y :=
  writeCharsAt_cell v h x' y' _ s.chars

theorem fillRow_cell (h : OnScreen x y) (x' : Int) {w : Int} (hw : 0 ≤ w) (c : UInt16) (row : Int) :
    (fillRow x' w c row v).cell x y = if y = row ∧ x' ≤ x ∧ x < x' + w then c else v.cell x y := by
  obtain ⟨hx, hy⟩ := h
  unfold fillRow
  split
  · rw [if_neg (by omega)]
  · refine forUp_count (P := fun col (s : Vga) =>
      s.cell x y = if y = row ∧ x' ≤ x ∧ x < col then c else v.cell x y) (by omega) ?_ ?_
    · intro col s hlo hhi hs
      split
      · rw [hs]
        simp only [show x < col + 1 ↔ x < col by omega]
      · rw [store_cell s (by omega) hx, hs]
        split
        · rw [if_pos (by omega)]
        · simp only [show (y = row ∧ x' ≤ x ∧ x < col + 1) ↔ (y = row ∧ x' ≤ x ∧ x < col) by omega]
    · exact (if_neg (by omega)).symm

theorem fillRect_cell (h : OnScreen x y) (x' y' : Int) {w h' : Int} (hw : 0 ≤ w) (hh : 0 ≤ h')
    (c fg bg : UInt8) :
    (v.fillRect x' y' w h' c fg bg).cell x y =
      if (x' ≤ x ∧ x < x' + w) ∧ y' ≤ y ∧ y < y' + h' then entry c (entryColor fg bg) else v.cell x y := by
  refine forUp_count (P := fun row (s : Vga) => s.cell x y = if (x' ≤ x ∧ x < x' + w) ∧ y' ≤ y ∧ y < row then
    entry c (entryColor fg bg) else v.cell x y) (by omega) ?_ ?_
  · intro row s hlo hhi hs
    rw [fillRow_cell s h x' hw, hs]
    split
    · rw [if_pos (by omega)]
    · simp only [show ((x' ≤ x ∧ x < x' + w) ∧ y' ≤ y ∧ y < row + 1) ↔
        ((x' ≤ x ∧ x < x' + w) ∧ y' ≤ y ∧ y < row) by omega]
  · exact (if_neg (by omega)).symm

@[simp] theorem setCursorPos_cell (x' y' : Int) : (v.setCursorPos x' y').cell x y = v.cell x y := rfl

end Cells

theorem setCursorPos_row {y : Int} (hy : 0 ≤ y ∧ y < height) (x : Int) (v : Vga) :
    (v.setCursorPos x y).terminalRow = y := by
  unfold setCursorPos
  dsimp only
  rw [if_neg (Int.not_lt.mpr hy.1), if_neg (Int.not_le.mpr hy.2)]

end FurOS.Vga
