import FurOS.Screen.Window
import Mathlib.Data.List.GetD

/-! The terminal as a window on a scrollback.

A string without carriage returns spells rows: a new one starts after a newline and after the last
column (`rows`). They are what the tape holds, one row of it each (`layout_rows`), so the viewport
shows the last of them and the cursor is at the end of the last (`writeString_rows`). -/
namespace FurOS.Vga
open Foundation (Tape)

/-! ### Rows of a string -/

/-- The rows from the one on that holds `row` so far. -/
def rowsFrom (row : List UInt8) : List UInt8 → List (List UInt8)
  | [] => [row]
  | c :: rest =>
    if c = 10 then row :: rowsFrom [] rest
    else if (row.length : Int) + 1 = width then (row ++ [c]) :: rowsFrom [] rest
    else rowsFrom (row ++ [c]) rest

def rows (s : List UInt8) : List (List UInt8) := rowsFrom [] s

theorem rowsFrom_ne_nil (row s : List UInt8) : rowsFrom row s ≠ [] := by
  induction s generalizing row with
  | nil => simp [rowsFrom]
  | cons c rest ih =>
    rw [rowsFrom]
    split
    · simp
    split
    · simp
    · exact ih _

/-! ### Rows of the tape -/

/-- Row `o` of the tape shows these characters, and blanks behind them. -/
def ShowsRow (color : UInt8) (τ : Tape UInt16) (o : Int) (row : List UInt8) : Prop :=
  ∀ x : Nat, (x : Int) < width → τ.cells (o * width + x) = entry (row.getD x 32) color

section Layout
variable {color : UInt8} {τ : Tape UInt16} {o : Int} {row : List UInt8}

/-- A row on its way: the head is behind its characters, and all is blank from there on. -/
structure Typing (color : UInt8) (τ : Tape UInt16) (o : Int) (row : List UInt8) : Prop where
  room : (row.length : Int) < width
  pos : τ.pos = o * width + row.length
  shown : ShowsRow color τ o row
  fresh : τ.Fresh (entry 32 color)

/-- A fresh tape shows an empty row wherever the head is at the start of one. -/
theorem Typing.start (hpos : τ.pos = o * width) (hfresh : τ.Fresh (entry 32 color)) : Typing color τ o [] := by
  refine ⟨zero_lt_width, by simpa using hpos, fun x _ => ?_, hfresh⟩
  rw [hfresh _ (by omega)]
  rfl

/-- A character put at the end of the row. -/
theorem Typing.put (h : Typing color τ o row) (c : UInt8) :
    ShowsRow color (τ.put (entry c color)) o (row ++ [c]) := by
  intro x hx
  have hpos := h.pos
  rcases Nat.lt_trichotomy x row.length with hlt | heq | hgt
  · rw [Tape.put_cells_of_ne (by omega), h.shown x hx, List.getD_append _ _ _ _ hlt]
  · subst heq
    rw [← hpos, Tape.put_cells_self, List.getD_append_right _ _ _ _ (Nat.le_refl _), Nat.sub_self]
    rfl
  · rw [Tape.put_cells_of_ne (by omega), h.fresh _ (by omega), List.getD_eq_default _ _ (by simp; omega)]

/-- What stands above the row is left alone. -/
theorem type_above (h : Typing color τ o row) (c : UInt8) {i : Int} (hi : i < o * width) :
    (type id color c τ).cells i = τ.cells i := by
  have hpos := h.pos
  unfold type
  split
  · rfl
  · exact Tape.put_cells_of_ne (by omega)

/-- The rows `rs` stand on the tape from row `o` on, and the head is in the last of them. -/
structure HoldsRows (color : UInt8) (τ : Tape UInt16) (o : Int) (rs : List (List UInt8))
    (hne : rs ≠ []) : Prop where
  shown : ∀ (j : Nat) r, rs[j]? = some r → ShowsRow color τ (o + j) r
  last : Typing color τ (o + rs.length - 1) (rs.getLast hne)

/-- A row more above them. -/
theorem HoldsRows.cons {rs : List (List UInt8)} {hne : rs ≠ []} (h : HoldsRows color τ (o + 1) rs hne)
    (hrow : ShowsRow color τ o row) : HoldsRows color τ o (row :: rs) (List.cons_ne_nil row rs) := by
  refine ⟨fun j r hr => ?_, ?_⟩
  · cases j with
    | zero =>
      cases hr
      rwa [Int.natCast_zero, Int.add_zero]
    | succ j =>
      have hshown := h.shown j r hr
      rwa [Int.add_right_comm, Int.add_assoc] at hshown
  · have hlast := h.last
    have hindex : o + 1 + (rs.length : Int) - 1 = o + (row :: rs).length - 1 := by
      rw [List.length_cons]
      omega
    rwa [hindex, ← List.getLast_cons hne] at hlast

/-- What stands in a row, also where none was written. -/
theorem HoldsRows.cells {rs : List (List UInt8)} {hne : rs ≠ []} (h : HoldsRows color τ o rs hne)
    (j : Nat) {x : Nat}
    (hx : (x : Int) < width) : τ.cells ((o + j) * width + x) = entry ((rs.getD j []).getD x 32) color := by
  have hpos := h.last.pos
  have hroom := h.last.room
  cases hget : rs[j]? with
  | some r =>
    have hrow : rs.getD j [] = r := by rw [List.getD_eq_getElem?_getD, hget, Option.getD_some]
    rw [hrow]
    exact h.shown j r hget x hx
  | none =>
    have hend : rs.length ≤ j := List.getElem?_eq_none_iff.mp hget
    have hbelow : τ.pos ≤ (o + j) * width + x := by
      unfold width at *
      omega
    rw [h.last.fresh _ hbelow, List.getD_eq_default rs [] hend]
    rfl

/-- **The tape holds the rows of what was typed**, and what stands above them is left alone. -/
theorem layout_rows (h : Typing color τ o row) (s : List UInt8) :
    HoldsRows color (layout id color s τ) o (rowsFrom row s) (rowsFrom_ne_nil row s) ∧
      ∀ i, i < o * width → (layout id color s τ).cells i = τ.cells i := by
  induction s generalizing τ o row with
  | nil =>
    refine ⟨⟨fun j r hr => ?_, ?_⟩, fun _ _ => rfl⟩
    · obtain ⟨rfl, rfl⟩ : j = 0 ∧ r = row := by simpa [rowsFrom, List.getElem?_singleton, eq_comm] using hr
      rw [Int.natCast_zero, Int.add_zero]
      exact h.shown
    · have hindex : o + ((rowsFrom row []).length : Int) - 1 = o := by simp [rowsFrom]
      rw [hindex]
      exact h
  | cons c rest ih =>
    -- where a new row starts, the one before it is done
    have hnext {τ' : Tape UInt16} {done : List UInt8} (hpos : τ'.pos = (o + 1) * width)
        (hfresh : τ'.Fresh (entry 32 color)) (hdone : ShowsRow color τ' o done)
        (habove : ∀ i, i < o * width → τ'.cells i = τ.cells i) :
        HoldsRows color (layout id color rest τ') o (done :: rowsFrom [] rest) (List.cons_ne_nil _ _) ∧
          ∀ i, i < o * width → (layout id color rest τ').cells i = τ.cells i := by
      obtain ⟨hrows, hsame⟩ := ih (.start hpos hfresh)
      refine ⟨hrows.cons fun x hx => ?_, fun i hi => ?_⟩
      · rw [hsame _ (by unfold width at *; omega), hdone x hx]
      · rw [hsame i (by unfold width at *; omega), habove i hi]
    have hpos := h.pos
    have hroom := h.room
    have hfresh : (type id color c τ).Fresh (entry 32 color) := type_fresh h.fresh c
    have htype : (type id color c τ).pos = if c = 10 then (τ.pos / width + 1) * width else τ.pos + 1 :=
      type_pos c τ
    have habove (i : Int) (hi : i < o * width) : (type id color c τ).cells i = τ.cells i := type_above h c hi
    by_cases hn : c = 10
    · have hrow : rowsFrom row (c :: rest) = row :: rowsFrom [] rest := if_pos hn
      have hend : (type id color c τ).pos = (o + 1) * width := by
        rw [htype, if_pos hn, hpos]
        unfold width at *
        omega
      have hdone : ShowsRow color (type id color c τ) o row := by
        rw [type, if_pos hn]
        exact h.shown
      simp only [hrow]
      exact hnext hend hfresh hdone habove
    have hput : type id color c τ = τ.put (entry c color) := if_neg hn
    have hdone : ShowsRow color (type id color c τ) o (row ++ [c]) := by
      rw [hput]
      exact h.put c
    rw [if_neg hn, hpos] at htype
    by_cases hfull : (row.length : Int) + 1 = width
    · have hrow : rowsFrom row (c :: rest) = (row ++ [c]) :: rowsFrom [] rest := by
        rw [rowsFrom, if_neg hn, if_pos hfull]
      have hend : (type id color c τ).pos = (o + 1) * width := by
        rw [htype]
        unfold width at *
        omega
      simp only [hrow]
      exact hnext hend hfresh hdone habove
    · have hrow : rowsFrom row (c :: rest) = rowsFrom (row ++ [c]) rest := by
        rw [rowsFrom, if_neg hn, if_neg hfull]
      have hlen : ((row ++ [c]).length : Int) = row.length + 1 := by simp
      have hmore : Typing color (type id color c τ) o (row ++ [c]) :=
        ⟨by omega, by rw [htype, hlen]; omega, hdone, hfresh⟩
      simp only [hrow]
      obtain ⟨hrows, hsame⟩ := ih hmore
      exact ⟨hrows, fun i hi => (hsame i hi).trans (habove i hi)⟩

end Layout

/-! ### The viewport -/

/-- A viewport that is set and cleared: the cursor is at its start, and all of it is blank. -/
theorem setViewport_clear {t b : Int} (h : 0 ≤ t ∧ t ≤ b ∧ b ≤ 24) (v : Vga) :
    Inside t b (v.setViewport t b).clear ∧ (v.setViewport t b).clear.terminalRow = t ∧
      (v.setViewport t b).clear.terminalColumn = 0 ∧
      (v.setViewport t b).clear.terminalColor = v.terminalColor ∧ Clean id (v.setViewport t b).clear := by
  have hset := setViewport_eq h v
  have htop : (v.setViewport t b).vpTop = t := by rw [hset]
  have hbot : (v.setViewport t b).vpBot = b := by rw [hset]
  have hcolor : (v.setViewport t b).terminalColor = v.terminalColor := by rw [hset]
  have hclean : Clean id (v.setViewport t b).clear := clear_clean (by omega)
  obtain ⟨m, st, heq, -⟩ := clear_redrawn (v := v.setViewport t b) (by omega)
  rw [heq] at hclean ⊢
  refine ⟨⟨htop, hbot, ?_, le_refl _, zero_lt_width⟩, htop, rfl, hcolor, hclean⟩
  dsimp only
  omega

/-- By how many rows the viewport has scrolled once `n` of them are written, and where that leaves the cursor. -/
theorem scrolled_rows {t b row column k pos : Int} {n len : Nat} (hn : 0 < n) (hrow : t ≤ row ∧ row ≤ b)
    (hcolumn : 0 ≤ column ∧ column < width) (hlen : (len : Int) < width) (hk : 0 ≤ k ∧ (k = 0 ∨ row = b))
    (hcursor : row * width + column + width * k = pos) (hpos : pos = (t + n - 1) * width + len) :
    k = (n - (b - t + 1).toNat : Nat) ∧ row = t + (n - (n - (b - t + 1).toNat) : Nat) - 1 ∧ column = len := by
  unfold width at *
  have hline : row + k = t + n - 1 := by omega
  rcases Nat.lt_or_ge (b - t + 1).toNat n with hmore | hfit
  · omega
  · have h0 : n - (b - t + 1).toNat = 0 := Nat.sub_eq_zero_of_le hfit
    rw [h0]
    omega

/-- **The terminal is a window on an unbounded scrollback.** The viewport that is set, cleared and
written to shows the last rows of the string, from the top, with blanks behind them and below, and
the cursor is at the end of the last of them. -/
theorem writeString_rows (t b : Int) (h : 0 ≤ t ∧ t ≤ b ∧ b ≤ 24) (v : Vga) (s : CStr) (hs : 13 ∉ s.chars) :
    let v' := ((v.setViewport t b).clear).writeString (some s)
    let shown := (rows s.chars).drop ((rows s.chars).length - (b - t + 1).toNat)
    (∀ (y x : Nat), t + y ≤ b → (x : Int) < width →
      v'.memory ((t + y) * width + x) = entry ((shown.getD y []).getD x 32) v.terminalColor) ∧
    v'.terminalRow = t + shown.length - 1 ∧
    v'.terminalColumn = ((rows s.chars).getLast (rowsFrom_ne_nil [] s.chars)).length := by
  obtain ⟨hinside, hrow, hcolumn, hcolor, hclean⟩ := setViewport_clear h v
  have hno : ∀ c ∈ s.chars, c ≠ 13 := fun c hc heq => hs (heq ▸ hc)
  obtain ⟨τ, hshows, hfresh⟩ := hinside.shows_fresh hclean
  have hlast := putchars_last (k := 0) hinside hno ⟨le_refl _, .inl rfl⟩
  have hcursor := hshows.cursor
  obtain ⟨hshows, -⟩ := putchars_shows hshows rfl hno
  rw [hcolor] at hshows hfresh
  have hstart : Typing v.terminalColor τ t [] :=
    .start (by rw [← hcursor, hrow, hcolumn]; omega) hfresh
  obtain ⟨hrows, -⟩ := layout_rows hstart s.chars
  generalize hscroll : 0 + scrolledOver s.chars (v.setViewport t b).clear = k at hshows hlast
  obtain ⟨hk, hrow', hcolumn'⟩ := scrolled_rows (List.length_pos_iff.mpr (rowsFrom_ne_nil [] s.chars))
    hshows.row hshows.column hrows.last.room hlast hshows.cursor hrows.last.pos
  refine ⟨fun y x hy hx => ?_, ?_, hcolumn'⟩
  · have hcell := hshows.area.shown ((t + y) * width + x) (by unfold width at *; omega)
      (by unfold width at *; omega)
    have hline : (t + y) * width + x + width * k = (t + (k + y)) * width + x := by unfold width; omega
    have hrow : ((rows s.chars).drop ((rows s.chars).length - (b - t + 1).toNat)).getD y [] =
        (rows s.chars).getD ((rows s.chars).length - (b - t + 1).toNat + y) [] := by
      rw [List.getD_eq_getElem?_getD, List.getElem?_drop, List.getD_eq_getElem?_getD]
    rw [hrow]
    rw [hline, hk, ← Int.natCast_add] at hcell
    exact Eq.trans hcell (hrows.cells _ hx)
  · rw [List.length_drop]
    exact hrow'

/-- Three rows, the second of them full. -/
def text : CStr := .ofLit "ab\n01234567890123456789012345678901234567890123456789012345678901234567890123456789c"

theorem writeString_rows_text :
    let v' := ((initial.setViewport 3 4).clear).writeString (some text)
    let shown := (rows text.chars).drop ((rows text.chars).length - ((4 : Int) - 3 + 1).toNat)
    (∀ (y x : Nat), (3 : Int) + y ≤ 4 → (x : Int) < width →
      v'.memory ((3 + y) * width + x) = entry ((shown.getD y []).getD x 32) initial.terminalColor) ∧
    v'.terminalRow = 3 + shown.length - 1 ∧
    v'.terminalColumn = ((rows text.chars).getLast (rowsFrom_ne_nil [] text.chars)).length :=
  writeString_rows 3 4 (by decide) initial text (by decide)

end FurOS.Vga
