import FurOS.Foundation.Tape
import FurOS.Screen.Viewport

/-! The viewport as a window on an endless tape.

A screen that scrolls shows the end of everything that was written: the cells of the viewport
are those of a tape, `k` lines further on for every row that has scrolled away (`Shows`). A
character, a new line and a character taken back do on the tape what they do on the screen,
and scrolling moves the window. What of a cell is looked at is a parameter `f`, so that the
same is known of the cells and of their characters. -/
namespace FurOS.Vga
open Foundation (Tape forUp forUp_count)

/-! ### Scrolling -/

/-- Only the cells have changed, to `m`. -/
def Redrawn (m : Int → UInt16) (v v' : Vga) : Prop := ∃ st, v' = {v with memory := m, stored := st}

namespace Redrawn
variable {m m' : Int → UInt16} {v v' v'' : Vga}

theorem refl (v : Vga) : Redrawn v.memory v v := ⟨v.stored, rfl⟩

theorem store (h : Redrawn m v v') (row column : Int) (cell : UInt16) :
    Redrawn (Function.update m (row * width + column) cell) v (v'.store row column cell) := by
  obtain ⟨st, rfl⟩ := h
  exact ⟨(row * width + column) :: st, rfl⟩

theorem trans (h : Redrawn m v v') (h' : Redrawn m' v' v'') : Redrawn m' v v'' := by
  obtain ⟨st, rfl⟩ := h
  obtain ⟨st', rfl⟩ := h'
  exact ⟨st', rfl⟩

theorem memory (h : Redrawn m v v') : v'.memory = m := by
  obtain ⟨st, rfl⟩ := h
  rfl

theorem terminalColor (h : Redrawn m v v') : v'.terminalColor = v.terminalColor := by
  obtain ⟨st, rfl⟩ := h
  rfl

end Redrawn

/-- A loop that stores one cell after another of a row. -/
theorem storeRow_redrawn (body : Int → Vga → Vga) (row : Int) (cell : (Int → UInt16) → Int → UInt16) (v : Vga)
    (hbody : ∀ x s m, 0 ≤ x → x < width → Redrawn m v s →
      (∀ i, i < row * width ∨ row * width + x ≤ i → m i = v.memory i) →
      body x s = s.store row x (cell v.memory x)) :
    ∃ m, Redrawn m v (forUp body 0 width v) ∧
      (∀ i, i < row * width ∨ row * width + width ≤ i → m i = v.memory i) ∧
      ∀ x, 0 ≤ x → x < width → m (row * width + x) = cell v.memory x := by
  refine forUp_count (P := fun x s => ∃ m, Redrawn m v s ∧
    (∀ i, i < row * width ∨ row * width + x ≤ i → m i = v.memory i) ∧
    ∀ j, 0 ≤ j → j < x → m (row * width + j) = cell v.memory j) zero_lt_width.le ?_ ?_
  · intro x s hlo hhi h
    obtain ⟨m, hm, hout, hin⟩ := h
    refine ⟨_, by rw [hbody x s m hlo hhi hm hout]; exact hm.store row x _, fun i hi => ?_, fun j hj hjx => ?_⟩
    · rw [Function.update_of_ne (by omega), hout i (by omega)]
    · by_cases hx : j = x
      · rw [hx, Function.update_self]
      · rw [Function.update_of_ne (by omega), hin j hj (by omega)]
  · exact ⟨v.memory, .refl v, fun _ _ => rfl, fun j hj hj0 => by omega⟩

/-- A row has moved up, and everything else is as it was. -/
theorem liftRow_redrawn (y : Int) (v : Vga) : ∃ m, Redrawn m v (v.liftRow y) ∧
    ∀ i, m i = if (y - 1) * width ≤ i ∧ i < y * width then v.memory (i + width) else v.memory i := by
  obtain ⟨m, hm, hout, hin⟩ := storeRow_redrawn (fun x v => v.store (y - 1) x (v.memory (y * width + x)))
    (y - 1) (fun m x => m (y * width + x)) v fun x s m hlo hhi hm hout => by
      rw [hm.memory, hout _ (.inr (by unfold width at *; omega))]
  refine ⟨m, hm, fun i => ?_⟩
  unfold width at *
  by_cases hi : (y - 1) * 80 ≤ i ∧ i < y * 80
  · have hcell := hin (i - (y - 1) * 80) (by omega) (by omega)
    have hfrom : (y - 1) * 80 + (i - (y - 1) * 80) = i := by omega
    have hto : y * 80 + (i - (y - 1) * 80) = i + 80 := by omega
    rw [hfrom, hto] at hcell
    rw [if_pos hi, hcell]
  · rw [if_neg hi, hout i (by omega)]

/-- A row is blank, and everything else is as it was. -/
theorem blankRow_redrawn (y : Int) (v : Vga) : ∃ m, Redrawn m v (v.blankRow y) ∧
    ∀ i, m i = if y * width ≤ i ∧ i < (y + 1) * width then entry 32 v.terminalColor else v.memory i := by
  obtain ⟨m, hm, hout, hin⟩ := storeRow_redrawn (fun x v => v.blank y x) y
    (fun _ _ => entry 32 v.terminalColor) v fun x s m hlo hhi hm hout => by
      rw [blank, hm.terminalColor]
  refine ⟨m, hm, fun i => ?_⟩
  unfold width at *
  by_cases hi : y * 80 ≤ i ∧ i < (y + 1) * 80
  · have hcell := hin (i - y * 80) (by omega) (by omega)
    have hfrom : y * 80 + (i - y * 80) = i := by omega
    rw [hfrom] at hcell
    rw [if_pos hi, hcell]
  · rw [if_neg hi, hout i (by omega)]

/-- All rows of the viewport move up, and the last is blank. -/
theorem scroll_redrawn {v : Vga} (hle : v.vpTop ≤ v.vpBot) : ∃ m, Redrawn m v v.scroll ∧
    ∀ i, v.vpTop * width ≤ i → i < (v.vpBot + 1) * width →
      m i = if i < v.vpBot * width then v.memory (i + width) else entry 32 v.terminalColor := by
  have hlift : ∃ m, Redrawn m v (forUp liftRow (v.vpTop + 1) (v.vpBot + 1) v) ∧ ∀ i, v.vpTop * width ≤ i →
      m i = if i < (v.vpBot + 1 - 1) * width then v.memory (i + width) else v.memory i := by
    refine forUp_count (P := fun y s => ∃ m, Redrawn m v s ∧ ∀ i, v.vpTop * width ≤ i →
      m i = if i < (y - 1) * width then v.memory (i + width) else v.memory i) (by omega) ?_ ?_
    · intro y s hlo hhi h
      obtain ⟨m, hm, hcells⟩ := h
      obtain ⟨m', hm', hcells'⟩ := liftRow_redrawn y s
      refine ⟨m', hm.trans hm', fun i hi => ?_⟩
      rw [hcells' i, hm.memory]
      unfold width at *
      by_cases hrow : (y - 1) * 80 ≤ i ∧ i < y * 80
      · rw [if_pos hrow, hcells _ (by omega), if_neg (by omega), if_pos (by omega)]
      · rw [if_neg hrow, hcells i hi]
        by_cases hbefore : i < (y - 1) * 80
        · rw [if_pos hbefore, if_pos (by omega)]
        · rw [if_neg hbefore, if_neg (by omega)]
    · refine ⟨v.memory, .refl v, fun i hi => ?_⟩
      unfold width at *
      rw [if_neg (by omega)]
  obtain ⟨m, hm, hcells⟩ := hlift
  obtain ⟨m', hm', hcells'⟩ := blankRow_redrawn v.vpBot (forUp liftRow (v.vpTop + 1) (v.vpBot + 1) v)
  refine ⟨m', ?_, fun i hlo hhi => ?_⟩
  · have hbot : (forUp liftRow (v.vpTop + 1) (v.vpBot + 1) v).vpBot = v.vpBot := by
      obtain ⟨st, heq⟩ := hm
      rw [heq]
    unfold scroll
    dsimp only
    rw [hbot]
    exact hm.trans hm'
  · rw [hcells' i, hm.memory, hm.terminalColor]
    unfold width at *
    by_cases hrow : i < v.vpBot * 80
    · rw [if_pos hrow, if_neg (by omega), hcells i hlo, if_pos (by omega)]
    · rw [if_neg hrow, if_pos (by omega)]

/-! ### The window -/

/-- The cells of rows `t` to `b`, seen through `f`, are those of a tape, `k` lines further on. What
is to come from below is blank. -/
structure Area {β : Type} (f : UInt16 → β) (z : β) (t b : Int) (memory : Int → UInt16) (k : Int)
    (cells : Int → β) : Prop where
  shown : ∀ i, t * width ≤ i → i < (b + 1) * width → f (memory i) = cells (i + width * k)
  below : ∀ i, (b + 1 + k) * width ≤ i → cells i = z

/-- The viewport shows the tape, and the cursor is at its head. -/
structure Shows {β : Type} (f : UInt16 → β) (z : β) (t b : Int) (v : Vga) (k : Int) (τ : Tape β) : Prop
    extends Inside t b v where
  cursor : v.terminalRow * width + v.terminalColumn + width * k = τ.pos
  area : Area f z t b v.memory k τ.cells

/-- By how many rows a character scrolls. -/
def scrolls (c : UInt8) (v : Vga) : Int :=
  if (c = 10 ∨ c ≠ 13 ∧ width ≤ v.terminalColumn + 1) ∧ v.vpBot < v.terminalRow + 1 then 1 else 0

section Steps
variable {β : Type} {f : UInt16 → β} {z : β} {t b : Int} {v : Vga} {k : Int} {τ : Tape β}

/-- A window on whatever is on the screen. -/
theorem Inside.shows (h : Inside t b v) (f : UInt16 → β) (z : β) :
    Shows f z t b v 0 ⟨fun i => if i < (b + 1) * width then f (v.memory i) else z,
      v.terminalRow * width + v.terminalColumn⟩ := by
  refine ⟨h, by simp, fun i _ hhi => ?_, fun i hi => ?_⟩
  · dsimp only
    rw [Int.mul_zero, Int.add_zero, if_pos hhi]
  · rw [Int.add_zero] at hi
    exact if_neg (by omega)

/-- A cell stored at the head. -/
theorem Area.store {memory : Int → UInt16} {cells : Int → β} (h : Area f z t b memory k cells) {p : Int}
    (hp : p < (b + 1) * width) (cell : UInt16) :
    Area f z t b (Function.update memory p cell) k (Function.update cells (p + width * k) (f cell)) := by
  refine ⟨fun i hlo hhi => ?_, fun i hi => ?_⟩
  · by_cases hip : i = p
    · rw [hip, Function.update_self, Function.update_self]
    · rw [Function.update_of_ne hip, Function.update_of_ne (by omega), h.shown i hlo hhi]
  · have hbelow := h.below i hi
    unfold width at *
    rwa [Function.update_of_ne (by omega)]

/-- The next line, below the cursor: the window moves if there is none. -/
theorem newline_shows (ht : v.vpTop = t) (hb : v.vpBot = b) (hrow : t ≤ v.terminalRow ∧ v.terminalRow ≤ b)
    (hz : f (entry 32 v.terminalColor) = z) (hpos : (v.terminalRow + 1 + k) * width = τ.pos)
    (harea : Area f z t b v.memory k τ.cells) :
    Shows f z t b v.newline (k + if v.vpBot < v.terminalRow + 1 then 1 else 0) τ := by
  suffices h : v.newline.terminalRow * width + v.newline.terminalColumn +
      width * (k + if v.vpBot < v.terminalRow + 1 then 1 else 0) = τ.pos ∧
      Area f z t b v.newline.memory (k + if v.vpBot < v.terminalRow + 1 then 1 else 0) τ.cells from
    ⟨(newline_drawn ht hb hrow).2, h.1, h.2⟩
  unfold newline
  dsimp only
  by_cases hend : v.terminalRow + 1 > v.vpBot
  · obtain ⟨m, ⟨st, hscroll⟩, hcells⟩ :=
      scroll_redrawn (v := {v with terminalColumn := 0, terminalRow := v.terminalRow + 1}) (by dsimp only; omega)
    rw [if_pos hend, if_pos hend, hscroll]
    dsimp only at hcells ⊢
    rw [ht, hb] at hcells
    refine ⟨by unfold width at *; omega, ⟨fun i hlo hhi => ?_, fun i hi => harea.below i ?_⟩⟩
    · rw [hcells i hlo hhi]
      unfold width at *
      by_cases hlast : i < b * 80
      · rw [if_pos hlast, harea.shown _ (by unfold width; omega) (by unfold width; omega)]
        congr 1
        unfold width
        omega
      · rw [if_neg hlast, hz, harea.below _ (by unfold width; omega)]
    · unfold width at *
      omega
  · rw [if_neg hend, if_neg hend]
    simp only [Int.add_zero]
    exact ⟨by unfold width at *; omega, harea⟩

/-- What a character does to the tape. -/
def type (f : UInt16 → β) (color c : UInt8) (τ : Tape β) : Tape β :=
  if c = 10 then τ.nextLine width else τ.put (f (entry c color))

/-- **A character is put on the tape.** -/
theorem Shows.putchar (h : Shows f z t b v k τ) (hz : f (entry 32 v.terminalColor) = z) {c : UInt8} (hc : c ≠ 13) :
    Shows f z t b (v.putchar c) (k + scrolls c v) (type f v.terminalColor c τ) := by
  have hrow := h.row
  have hcolumn := h.column
  have hcursor := h.cursor
  unfold Vga.putchar type scrolls
  by_cases hn : c = 10
  · rw [if_pos hn, if_pos hn]
    have hpos : (v.terminalRow + 1 + k) * width = (τ.nextLine width).pos := by
      rw [Tape.nextLine_pos, ← hcursor]
      unfold width at *
      omega
    have hshows := newline_shows h.top h.bot hrow hz hpos h.area
    simpa only [hn, true_or, true_and] using hshows
  rw [if_neg hn, if_neg hc, if_neg hn]
  have hstored := h.area.store (p := v.terminalRow * width + v.terminalColumn) (by unfold width at *; omega)
    (entry c v.terminalColor)
  rw [hcursor] at hstored
  dsimp only
  by_cases hend : v.terminalColumn + 1 ≥ width
  · have hpos : (v.terminalRow + 1 + k) * width = (τ.put (f (entry c v.terminalColor))).pos := by
      rw [Tape.put_pos, ← hcursor]
      unfold width at *
      omega
    have hshows := newline_shows (v := {v.store v.terminalRow v.terminalColumn (entry c v.terminalColor) with
      terminalColumn := v.terminalColumn + 1}) h.top h.bot hrow hz hpos hstored
    have hend' :
        (v.store v.terminalRow v.terminalColumn (entry c v.terminalColor)).terminalColumn + 1 ≥ width := hend
    have hcount :
        (if (c = 10 ∨ c ≠ 13 ∧ width ≤ v.terminalColumn + 1) ∧ v.vpBot < v.terminalRow + 1 then (1 : Int) else 0) =
        if v.vpBot < v.terminalRow + 1 then 1 else 0 := by simp [hn, hc, hend]
    rw [if_pos hend', hcount]
    exact hshows
  · have hend' :
        ¬ (v.store v.terminalRow v.terminalColumn (entry c v.terminalColor)).terminalColumn + 1 ≥ width := hend
    rw [if_neg hend', if_neg (by simp [hn]; omega), Int.add_zero]
    refine ⟨⟨h.top, h.bot, hrow, ?_⟩, ?_, hstored⟩
    · show 0 ≤ v.terminalColumn + 1 ∧ v.terminalColumn + 1 < width
      omega
    · show v.terminalRow * width + (v.terminalColumn + 1) + width * k = τ.pos + 1
      omega

/-- **A character is taken back on the tape**, but not from above the viewport. -/
theorem Shows.backspace (h : Shows f z t b v k τ) (hz : f (entry 32 v.terminalColor) = z)
    (hstart : ¬ (v.terminalRow = v.vpTop ∧ v.terminalColumn = 0)) : Shows f z t b v.backspace k (τ.back z) := by
  have hrow := h.row
  have hcolumn := h.column
  have htop := h.top
  have hcursor := h.cursor
  have hstored (p : Int) (hp : p < (b + 1) * width) (hpos : p + width * k = τ.pos - 1) :
      Area f z t b (Function.update v.memory p (entry 32 v.terminalColor)) k (τ.back z).cells := by
    have := h.area.store hp (entry 32 v.terminalColor)
    rwa [hz, hpos] at this
  unfold Vga.backspace
  rw [if_neg hstart]
  dsimp only
  by_cases h0 : v.terminalColumn = 0
  · rw [if_pos h0]
    refine ⟨⟨h.top, h.bot, ?_, last_column⟩, ?_, hstored _ ?_ ?_⟩
    · show t ≤ v.terminalRow - 1 ∧ v.terminalRow - 1 ≤ b
      omega
    · show (v.terminalRow - 1) * width + (width - 1) + width * k = τ.pos - 1
      unfold width at *
      omega
    · show (v.terminalRow - 1) * width + (width - 1) < (b + 1) * width
      unfold width at *
      omega
    · show (v.terminalRow - 1) * width + (width - 1) + width * k = τ.pos - 1
      unfold width at *
      omega
  · rw [if_neg h0]
    refine ⟨⟨h.top, h.bot, hrow, ?_⟩, ?_, hstored _ ?_ ?_⟩
    · show 0 ≤ v.terminalColumn - 1 ∧ v.terminalColumn - 1 < width
      omega
    · show v.terminalRow * width + (v.terminalColumn - 1) + width * k = τ.pos - 1
      omega
    · show v.terminalRow * width + (v.terminalColumn - 1) < (b + 1) * width
      unfold width at *
      omega
    · show v.terminalRow * width + (v.terminalColumn - 1) + width * k = τ.pos - 1
      omega

/-- In another colour, what is to come from below is blank in that colour. -/
theorem Shows.setColor (h : Shows f z t b v k τ) (fg bg : UInt8) (z' : β) :
    ∃ τ', Shows f z' t b (v.setColor fg bg) k τ' ∧ τ'.pos = τ.pos ∧
      ∀ i, i < (b + 1 + k) * width → τ'.cells i = τ.cells i := by
  refine ⟨⟨fun i => if i < (b + 1 + k) * width then τ.cells i else z', τ.pos⟩,
    ⟨⟨h.top, h.bot, h.row, h.column⟩, h.cursor, fun i hlo hhi => ?_, fun i hi => ?_⟩, rfl, fun i hi => if_pos hi⟩
  · have hcell := h.area.shown i hlo hhi
    unfold width at *
    dsimp only
    rw [if_pos (by omega)]
    exact hcell
  · exact if_neg (by omega)

/-- The head is above the lower end of the window. -/
theorem Shows.pos_lt (h : Shows f z t b v k τ) : τ.pos < (b + 1 + k) * width := by
  have hcursor := h.cursor
  have hrow := h.row
  have hcolumn := h.column
  unfold width at *
  omega

/-- Only `setColor` changes the colour. -/
theorem putchar_terminalColor (c : UInt8) (v : Vga) : (v.putchar c).terminalColor = v.terminalColor := by
  have hnewline (v : Vga) : v.newline.terminalColor = v.terminalColor := by
    have hscroll := scroll_field Vga.terminalColor (fun _ _ _ _ => rfl)
      {v with terminalColumn := 0, terminalRow := v.terminalRow + 1}
    unfold newline
    dsimp only at hscroll ⊢
    split
    · exact hscroll
    · rfl
  unfold Vga.putchar
  split
  · exact hnewline v
  split
  · rfl
  dsimp only
  split
  · exact hnewline _
  · rfl

theorem backspace_terminalColor (v : Vga) : v.backspace.terminalColor = v.terminalColor := by
  unfold Vga.backspace
  split
  · rfl
  dsimp only
  split
  · rfl
  · rfl

end Steps

/-! ### Texts on the tape -/

/-- Characters one after another. -/
def layout {β : Type} (f : UInt16 → β) (color : UInt8) (s : List UInt8) (τ : Tape β) : Tape β :=
  s.foldl (fun τ c => type f color c τ) τ

/-- The column after characters that start in the first. -/
def columnAfter (s : List UInt8) : Int :=
  s.foldl (fun x c => if c = 10 then 0 else if x + 1 ≥ width then 0 else x + 1) 0

section Layout
variable {β : Type} {f : UInt16 → β} {color : UInt8} {z : β} {τ : Tape β}

theorem layout_concat (s : List UInt8) (c : UInt8) (τ : Tape β) :
    layout f color (s ++ [c]) τ = type f color c (layout f color s τ) := List.foldl_concat ..

theorem type_fresh (h : τ.Fresh z) (c : UInt8) : (type f color c τ).Fresh z := by
  unfold type
  split
  · exact h.nextLine zero_lt_width
  · exact h.put

theorem layout_fresh (h : τ.Fresh z) (s : List UInt8) : (layout f color s τ).Fresh z := by
  induction s generalizing τ with
  | nil => exact h
  | cons c rest ih => exact ih (type_fresh h c)

theorem type_pos (c : UInt8) (τ : Tape β) :
    (type f color c τ).pos = if c = 10 then (τ.pos / width + 1) * width else τ.pos + 1 := by
  unfold type
  split
  · rfl
  · rfl

/-- Every character moves the head on. -/
theorem lt_type_pos (c : UInt8) (τ : Tape β) : τ.pos < (type f color c τ).pos := by
  rw [type_pos]
  split
  · exact Tape.lt_nextLine_pos zero_lt_width
  · omega

/-- A character is taken back where it is no new line, or one at the end of a row. -/
theorem type_back (h : τ.Fresh z) {c : UInt8} (hc : c = 10 → τ.pos % width = width - 1) :
    (type f color c τ).back z = τ := by
  have hz : τ.cells τ.pos = z := h _ (Int.le_refl _)
  unfold type
  by_cases hn : c = 10
  · rw [if_pos hn]
    refine Tape.back_nextLine ?_ hz
    have hend := hc hn
    rw [Tape.nextLine_pos]
    unfold width at *
    omega
  · rw [if_neg hn]
    exact Tape.back_put hz

/-- From anywhere else in a row, the head does not come back to where it was. -/
theorem type_back_ne {c : UInt8} (hc : c = 10) (hpos : τ.pos % width ≠ width - 1) :
    ((type f color c τ).back z).pos ≠ τ.pos := by
  rw [Tape.back_pos, type_pos, if_pos hc]
  unfold width at *
  omega

theorem layout_column (hstart : τ.pos % width = 0) (s : List UInt8) :
    (layout f color s τ).pos % width = columnAfter s := by
  induction s using List.reverseRecOn with
  | nil => exact hstart
  | append_singleton s c ih =>
    have hcolumn : columnAfter (s ++ [c]) =
        if c = 10 then 0 else if columnAfter s + 1 ≥ width then 0 else columnAfter s + 1 := List.foldl_concat ..
    rw [layout_concat, hcolumn, ← ih, type_pos]
    by_cases hn : c = 10
    · rw [if_pos hn, if_pos hn, Int.mul_emod_left]
    · rw [if_neg hn, if_neg hn]
      unfold width
      omega

end Layout

/-! ### Strings -/

/-- By how many rows a string scrolls. -/
def scrolledOver : List UInt8 → Vga → Int
  | [], _ => 0
  | c :: rest, v => scrolls c v + scrolledOver rest (v.putchar c)

section Printing
variable {β : Type} {f : UInt16 → β} {z : β} {t b : Int} {v : Vga} {k : Int} {τ : Tape β}

/-- A string is put on the tape. -/
theorem putchars_shows (h : Shows f z t b v k τ) (hz : f (entry 32 v.terminalColor) = z) {s : List UInt8}
    (hs : ∀ c ∈ s, c ≠ 13) :
    Shows f z t b (v.putchars s) (k + scrolledOver s v) (layout f v.terminalColor s τ) ∧
      (v.putchars s).terminalColor = v.terminalColor := by
  induction s generalizing v k τ with
  | nil =>
    refine ⟨?_, rfl⟩
    show Shows f z t b v (k + 0) τ
    rwa [Int.add_zero]
  | cons c rest ih =>
    have hcolor := putchar_terminalColor c v
    have hput := h.putchar hz (hs c List.mem_cons_self)
    obtain ⟨hshows, hkept⟩ := ih hput (by rwa [hcolor]) fun d hd => hs d (List.mem_cons_of_mem c hd)
    rw [hcolor, Int.add_assoc] at hshows
    exact ⟨hshows, hkept.trans hcolor⟩

/-- A screen scrolls only when the cursor is in the last row, and there it stays. -/
theorem putchar_last (h : Inside t b v) {c : UInt8} (hc : c ≠ 13) (hk : 0 ≤ k ∧ (k = 0 ∨ v.terminalRow = b)) :
    0 ≤ k + scrolls c v ∧ (k + scrolls c v = 0 ∨ (v.putchar c).terminalRow = b) := by
  have hshows := h.shows id (entry 32 v.terminalColor)
  have hput := hshows.putchar rfl hc
  have hcursor := hput.cursor
  rw [type_pos] at hcursor
  dsimp only at hcursor
  have hrow := hput.row
  have hcolumn := hput.column
  have hrow₀ := h.row
  have hcolumn₀ := h.column
  have hbot := h.bot
  unfold scrolls at *
  by_cases hscroll : (c = 10 ∨ c ≠ 13 ∧ width ≤ v.terminalColumn + 1) ∧ v.vpBot < v.terminalRow + 1
  · rw [if_pos hscroll] at hcursor ⊢
    have hlast : c ≠ 10 → width ≤ v.terminalColumn + 1 := fun hn => (hscroll.1.resolve_left hn).2
    unfold width at *
    split at hcursor
    · omega
    · have := hlast ‹_›
      omega
  · rw [if_neg hscroll] at hcursor ⊢
    unfold width at *
    split at hcursor
    · omega
    · omega

theorem putchars_last (h : Inside t b v) {s : List UInt8} (hs : ∀ c ∈ s, c ≠ 13)
    (hk : 0 ≤ k ∧ (k = 0 ∨ v.terminalRow = b)) :
    0 ≤ k + scrolledOver s v ∧ (k + scrolledOver s v = 0 ∨ (v.putchars s).terminalRow = b) := by
  induction s generalizing v k with
  | nil =>
    show 0 ≤ k + 0 ∧ (k + 0 = 0 ∨ v.terminalRow = b)
    rwa [Int.add_zero]
  | cons c rest ih =>
    have hput := putchar_last h (hs c List.mem_cons_self) hk
    have hrest := ih (putchar_keeps c v h).2 (fun d hd => hs d (List.mem_cons_of_mem c hd)) hput
    rw [Int.add_assoc] at hrest
    exact hrest

end Printing

/-! ### A clean screen -/

/-- The character of a cell. -/
def char (cell : UInt16) : UInt8 := cell.toUInt8

@[simp] theorem char_entry (c color : UInt8) : char (entry c color) = c := by
  unfold char entry
  apply UInt8.eq_of_toBitVec_eq
  simp

/-- Seen through `f`, the viewport is blank from the cursor on. -/
def Clean {β : Type} (f : UInt16 → β) (v : Vga) : Prop :=
  ∀ i, v.terminalRow * width + v.terminalColumn ≤ i → i < (v.vpBot + 1) * width →
    f (v.memory i) = f (entry 32 v.terminalColor)

section Cleaning
variable {β : Type} {f : UInt16 → β} {t b : Int} {v : Vga}

/-- A window on a clean screen shows a fresh tape. -/
theorem Inside.shows_fresh (h : Inside t b v) (hclean : Clean f v) :
    ∃ τ, Shows f (f (entry 32 v.terminalColor)) t b v 0 τ ∧ τ.Fresh (f (entry 32 v.terminalColor)) := by
  refine ⟨_, h.shows f _, fun i hi => ?_⟩
  dsimp only at hi ⊢
  split
  · rename_i hlt
    rw [← h.bot] at hlt
    exact hclean i hi hlt
  · rfl

theorem Shows.clean {k : Int} {z : β} {τ : Tape β} (h : Shows f z t b v k τ) (hfresh : τ.Fresh z)
    (hz : f (entry 32 v.terminalColor) = z) : Clean f v := by
  intro i hlo hhi
  have hcursor := h.cursor
  have hrow := h.row
  have hcolumn := h.column
  have hbot := h.bot
  rw [hz, h.area.shown i (by unfold width at *; omega) (by rwa [← hbot]), hfresh _ (by omega)]

/-- Clearing blanks the viewport, and the cursor goes to its start. -/
theorem clear_redrawn {v : Vga} (hle : v.vpTop ≤ v.vpBot) : ∃ m st,
    v.clear = {v with memory := m, stored := st, terminalRow := v.vpTop, terminalColumn := 0} ∧
    ∀ i, v.vpTop * width ≤ i → i < (v.vpBot + 1) * width → m i = entry 32 v.terminalColor := by
  have hrows : ∃ m, Redrawn m v (forUp blankRow v.vpTop (v.vpBot + 1) v) ∧
      ∀ i, v.vpTop * width ≤ i → i < (v.vpBot + 1) * width → m i = entry 32 v.terminalColor := by
    refine forUp_count (P := fun y s => ∃ m, Redrawn m v s ∧
      ∀ i, v.vpTop * width ≤ i → i < y * width → m i = entry 32 v.terminalColor) (by omega) ?_ ?_
    · intro y s hlo hhi hs
      obtain ⟨m, hm, hcells⟩ := hs
      obtain ⟨m', hm', hcells'⟩ := blankRow_redrawn y s
      refine ⟨m', hm.trans hm', fun i hfrom hto => ?_⟩
      rw [hcells' i, hm.memory, hm.terminalColor]
      split
      · rfl
      · exact hcells i hfrom (by unfold width at *; omega)
    · exact ⟨v.memory, .refl v, fun i hlo hhi => by omega⟩
  obtain ⟨m, ⟨st, hm⟩, hcells⟩ := hrows
  refine ⟨m, st, ?_, hcells⟩
  unfold clear
  dsimp only
  rw [hm]

/-- A cleared screen is clean. -/
theorem clear_clean (hle : v.vpTop ≤ v.vpBot) : Clean f v.clear := by
  obtain ⟨m, st, heq, hcells⟩ := clear_redrawn hle
  rw [heq]
  intro i hlo hhi
  dsimp only at hlo hhi ⊢
  rw [hcells i (by omega) hhi]

/-- A character that does not return to the start of its row leaves the screen clean. -/
theorem Clean.putchar (h : Inside t b v) (hclean : Clean f v) {c : UInt8} (hc : c ≠ 13) :
    Clean f (v.putchar c) := by
  obtain ⟨τ, hshows, hfresh⟩ := h.shows_fresh hclean
  exact (hshows.putchar rfl hc).clean (type_fresh hfresh c) (by rw [putchar_terminalColor])

theorem Clean.backspace (h : Inside t b v) (hclean : Clean f v) : Clean f v.backspace := by
  by_cases hstart : v.terminalRow = v.vpTop ∧ v.terminalColumn = 0
  · unfold Vga.backspace
    rwa [if_pos hstart]
  · obtain ⟨τ, hshows, hfresh⟩ := h.shows_fresh hclean
    exact (hshows.backspace rfl hstart).clean hfresh.back (by rw [backspace_terminalColor])

end Cleaning

end FurOS.Vga
