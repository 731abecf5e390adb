import FurOS.Desktop.Drawing
import FurOS.Desktop.Lines

/-! What the editor shows (`kate_draw`).

Below the bar with the name are 18 rows of text, each with a gutter for the line's number, of which
at most 76 characters are shown. The rows are drawn from the first visible line on, with the rest of the
text carried along; numbers are printed into arrays of the stack, whatever is in them. -/
namespace FurOS.Desktop
open Foundation (forUp forUp_count lines sep_not_mem_drop)
open Vga (OnScreen entry entryColor black lightGrey darkGrey lightCyan lightRed white)

def kateVrows : Int := 18
def kateGutter : Int := 4
def kateVcols : Nat := 76

/-- The first visible line is moved as little as the cursor's line needs. -/
def kateScroll (ln vscroll : Int) : Int :=
  let vscroll := if ln < vscroll then ln else vscroll
  if ln ≥ vscroll + kateVrows then ln - kateVrows + 1 else vscroll

def kateTabBar (k : Kate) (v : Vga) : Vga :=
  let slen : Int := k.fname.chars.length
  let v := v.fillRect 0 ctop Vga.width 1 32 white darkGrey
  let v := v.writeStrAt 1 ctop (some (.ofLit " [")) white black
  let v := v.writeStrAt 3 ctop (some k.fname) lightCyan black
  let v := if k.modified then v.putAt (3 + slen) ctop 42 lightRed black else v
  let v := v.writeStrAt (3 + slen + if k.modified then 1 else 0) ctop (some (.ofLit "] ")) white black
  v.writeStrAt (Vga.width - 16) ctop
    (some (.ofChars (lit " Kate " ++ 0xB3 :: lit " FurOS  "))) lightGrey darkGrey

/-- Between two rows: what is left of the text, and the array for line numbers. -/
structure KateRows where
  rest : List UInt8
  nb : Fin 16 → UInt8
  screen : Vga

/-- One row of text. -/
def kateRow (vscroll row : Int) (s : KateRows) : KateRows :=
  let y := ctop + 1 + row
  let lnnum := UInt32.ofInt (vscroll + row + 1)
  let p := u2sString lnnum s.nb
  let gx := kateGutter - 1 - p.chars.length
  let copied := (s.rest.takeWhile fun c => decide (c ≠ 10)).take kateVcols
  let lbuf := CStr.ofChars (copied ++ List.replicate (kateVcols - copied.length) 32)
  let left := s.rest.drop copied.length
  let v := s.screen.fillRect 0 y kateGutter 1 32 darkGrey black
  let v := v.writeStrAt (if gx < 0 then 0 else gx) y (some p) darkGrey black
  { rest := (left.dropWhile fun c => decide (c ≠ 10)).drop 1
    nb := (u2s lnnum s.nb).2
    screen := v.writeStrAt kateGutter y (some lbuf) lightGrey black }

/-- `sb`. -/
def kateStatus (ln col : Nat) (lnb clb : Fin 16 → UInt8) : CStr :=
  .ofChars (lit " Ln " ++ (u2sString (UInt32.ofNat (ln + 1)) lnb).chars ++
    (lit ", Col " ++ (u2sString (UInt32.ofNat (col + 1)) clb).chars))

def kateStatusBar (ln col : Nat) (lnb clb : Fin 16 → UInt8) (v : Vga) : Vga :=
  let y := ctop + 1 + kateVrows + 1
  let v := v.fillRect 0 y Vga.width 1 32 lightGrey darkGrey
  let v := v.writeStrAt 1 y (some (kateStatus ln col lnb clb)) lightGrey darkGrey
  v.writeStrAt (Vga.width - 32) y (some (.ofLit " F2: Save | Del key: Del | ESC: Close ")) lightGrey darkGrey

/-- Where the cursor is set on the screen. -/
def kateCursor (ln col vscroll : Int) (v : Vga) : Vga :=
  let cx := kateGutter + col
  let cy := ctop + 1 + (ln - vscroll)
  let cx := if cx ≥ Vga.width then Vga.width - 1 else cx
  let cy := if cy < ctop + 1 then ctop + 1 else cy
  let cy := if cy > ctop + kateVrows then ctop + kateVrows else cy
  v.setCursorPos cx cy

/-- The first visible line, and the screen. -/
def kateDraw (k : Kate) (vscroll : Int) (nb lnb clb : Fin 16 → UInt8) (v : Vga) : Int × Vga :=
  let ln := kateLineof k.buf.chars k.pos
  let col := kateColof k.buf.chars k.pos
  let vscroll := kateScroll ln vscroll
  let v := kateTabBar k v
  let v := v.fillRect 0 (ctop + 1) Vga.width kateVrows 32 lightGrey black
  let rows := forUp (kateRow vscroll) 0 kateVrows
    ⟨k.buf.chars.drop (kateLnstart k.buf.chars vscroll.toNat), nb, v⟩
  let v := hline 0 (ctop + 1 + kateVrows) Vga.width darkGrey black rows.screen
  let v := kateStatusBar ln col lnb clb v
  (vscroll, kateCursor ln col vscroll v)

theorem lit_noNul_status : (lit " Ln ").length = 4 ∧ (lit ", Col ").length = 6 := by decide

/-- `sb` has room for 40 characters. -/
theorem kateStatus_fits (ln col : Nat) (lnb clb : Fin 16 → UInt8) :
    (kateStatus ln col lnb clb).chars.length < 40 := by
  have hnum (v : UInt32) (buf : Fin 16 → UInt8) : (u2sString v buf).chars.length ≤ 11 := by
    have hlen := decimal_length_le v
    rw [u2sString_chars, List.length_append]
    split
    · simp
      omega
    · simp
      omega
  have hln := hnum (UInt32.ofNat (ln + 1)) lnb
  have hcol := hnum (UInt32.ofNat (col + 1)) clb
  obtain ⟨h1, h2⟩ := lit_noNul_status
  have hall := (List.takeWhile_sublist (l := lit " Ln " ++ (u2sString (UInt32.ofNat (ln + 1)) lnb).chars ++
    (lit ", Col " ++ (u2sString (UInt32.ofNat (col + 1)) clb).chars)) fun c => decide (c ≠ 0)).length_le
  simp only [List.length_append] at hall
  show (List.takeWhile _ _).length < 40
  omega

/-! ### One row -/

/-- What the row of a line shows, up to a column. -/
def kateShown (text : List UInt8) (n j : Nat) : UInt8 :=
  (((lines 10 text).getD n []).take kateVcols).getD j 32

/-- The array for a line's characters: as many as it has room for, and blanks. -/
theorem lbuf_getD {line : List UInt8} (h0 : 0 ∉ line) :
    (CStr.ofChars (line.take kateVcols ++
      List.replicate (kateVcols - (line.take kateVcols).length) 32)).chars.length = kateVcols ∧
    ∀ j < kateVcols, (CStr.ofChars (line.take kateVcols ++
      List.replicate (kateVcols - (line.take kateVcols).length) 32)).chars.getD j 0 =
        (line.take kateVcols).getD j 32 := by
  have hchars : (CStr.ofChars (line.take kateVcols ++
      List.replicate (kateVcols - (line.take kateVcols).length) 32)).chars =
      line.take kateVcols ++ List.replicate (kateVcols - (line.take kateVcols).length) 32 := by
    refine List.takeWhile_eq_self_iff.mpr fun c hc => decide_eq_true fun hzero => ?_
    subst hzero
    rcases List.mem_append.mp hc with hc | hc
    · exact h0 (List.mem_of_mem_take hc)
    · exact absurd (List.eq_of_mem_replicate hc) (by decide)
  have hle : (line.take kateVcols).length ≤ kateVcols := List.length_take_le _ _
  rw [hchars]
  refine ⟨?_, fun j hj => ?_⟩
  · rw [List.length_append, List.length_replicate]
    omega
  · by_cases hin : j < (line.take kateVcols).length
    · rw [List.getD_append _ _ _ _ hin, List.getD_eq_getElem _ _ hin, List.getD_eq_getElem _ _ hin]
    · rw [List.getD_append_right _ _ _ _ (Nat.le_of_not_lt hin),
        List.getD_eq_default _ _ (Nat.le_of_not_lt hin), List.getD_replicate]
      omega

section Rows
variable {text : List UInt8} {vscroll row : Int} {s : KateRows} {n : Nat}

theorem kateRow_rest (hrest : s.rest = [10].intercalate ((lines 10 text).drop n)) :
    (kateRow vscroll row s).rest = [10].intercalate ((lines 10 text).drop (n + 1)) := by
  have hseps : ∀ l ∈ (lines 10 text).drop n, (10 : UInt8) ∉ l := sep_not_mem_drop n
  have hnext := Foundation.dropWhile_intercalate hseps
  show ((s.rest.drop _).dropWhile _).drop 1 = _
  rw [Foundation.dropWhile_drop, hrest, hnext, List.drop_drop, Nat.add_comm]

/-- A row shows the line that the text goes on with. -/
theorem kateRow_shown (h0 : 0 ∉ text) (hrest : s.rest = [10].intercalate ((lines 10 text).drop n))
    (hrow : 0 ≤ row ∧ row < kateVrows)
    {j : Nat} (hj : j < kateVcols) : (kateRow vscroll row s).screen.cell (kateGutter + j) (ctop + 1 + row) =
      entry (kateShown text n j) (entryColor lightGrey black) := by
  have hline : (s.rest.takeWhile fun c => decide (c ≠ 10)) = (lines 10 text).getD n [] := by
    rw [hrest, Foundation.takeWhile_intercalate (sep_not_mem_drop n), Foundation.getD_drop]
  have hnul : 0 ∉ (lines 10 text).getD n [] := fun hmem => h0 (Foundation.mem_of_mem_line hmem)
  obtain ⟨hlen, hget⟩ := lbuf_getD hnul
  have hscreen : OnScreen (kateGutter + j) (ctop + 1 + row) := by
    unfold OnScreen kateGutter ctop kateVrows kateVcols Vga.width Vga.height at *
    omega
  have hcol : (kateGutter + (j : Int) - kateGutter).toNat = j := by omega
  unfold kateRow
  dsimp only
  rw [hline, Vga.writeStrAt_cell _ hscreen, if_pos (by omega), hcol, hget j hj]
  rfl

/-- Other rows are left alone. -/
theorem kateRow_other {x y : Int} (h : OnScreen x y) (hy : y ≠ ctop + 1 + row) :
    (kateRow vscroll row s).screen.cell x y = s.screen.cell x y := by
  unfold kateRow
  dsimp only
  rw [Vga.writeStrAt_cell _ h, if_neg (by omega), Vga.writeStrAt_cell _ h, if_neg (by omega),
    Vga.fillRect_cell _ h _ _ (by decide) (by decide), if_neg (by omega)]

/-- The rows from the first visible line on. -/
theorem kateRows_shown (h0 : 0 ∉ text) (vscroll : Int)
    (hrest : s.rest = [10].intercalate ((lines 10 text).drop n)) {r j : Nat}
    (hr : r < kateVrows) (hj : j < kateVcols) :
    (forUp (kateRow vscroll) 0 kateVrows s).screen.cell (kateGutter + j) (ctop + 1 + r) =
      entry (kateShown text (n + r) j) (entryColor lightGrey black) := by
  suffices hall : (forUp (kateRow vscroll) 0 kateVrows s).rest =
      [10].intercalate ((lines 10 text).drop (n + kateVrows.toNat)) ∧
      ∀ r : Nat, r < kateVrows → ∀ j : Nat, j < kateVcols →
        (forUp (kateRow vscroll) 0 kateVrows s).screen.cell (kateGutter + j) (ctop + 1 + r) =
          entry (kateShown text (n + r) j) (entryColor lightGrey black) from hall.2 r hr j hj
  refine forUp_count (P := fun row (s : KateRows) =>
      s.rest = [10].intercalate ((lines 10 text).drop (n + row.toNat)) ∧
      ∀ r : Nat, r < row → ∀ j : Nat, j < kateVcols → s.screen.cell (kateGutter + j) (ctop + 1 + r) =
        entry (kateShown text (n + r) j) (entryColor lightGrey black)) (by decide) ?_ ?_
  · intro row s hlo hhi hs
    obtain ⟨hrest, hshown⟩ := hs
    have hnext : n + (row + 1).toNat = n + row.toNat + 1 := by omega
    refine ⟨?_, fun r hr j hj => ?_⟩
    · rw [hnext]
      exact kateRow_rest hrest
    · by_cases hself : (r : Int) = row
      · have hn : n + row.toNat = n + r := by omega
        rw [hself, kateRow_shown h0 hrest ⟨hlo, hhi⟩ hj, hn]
      · have hscreen : OnScreen (kateGutter + j) (ctop + 1 + r) := by
          unfold OnScreen kateGutter ctop kateVrows kateVcols Vga.width Vga.height at *
          omega
        rw [kateRow_other hscreen (by omega), hshown r (by omega) j hj]
  · exact ⟨hrest, fun r hr => absurd hr (by omega)⟩

end Rows

/-! ### The whole window -/

/-- The cursor's line is visible. -/
theorem kateScroll_bounds {ln vscroll : Int} (hln : 0 ≤ ln) (hv : 0 ≤ vscroll) : 0 ≤ kateScroll ln vscroll ∧
    kateScroll ln vscroll ≤ ln ∧ ln < kateScroll ln vscroll + kateVrows := by
  unfold kateScroll kateVrows
  dsimp only
  repeat' split
  all_goals omega

/-- What comes below the rows of text leaves them alone. -/
theorem kateStatusBar_cell {x y : Int} (h : OnScreen x y) (hy : y < ctop + 1 + kateVrows) (ln col : Nat)
    (lnb clb : Fin 16 → UInt8)
    (v : Vga) :
    (kateStatusBar ln col lnb clb (hline 0 (ctop + 1 + kateVrows) Vga.width darkGrey black v)).cell x y =
      v.cell x y := by
  unfold kateStatusBar
  dsimp only
  rw [Vga.writeStrAt_cell _ h, if_neg (by omega), Vga.writeStrAt_cell _ h, if_neg (by omega),
    Vga.fillRect_cell _ h _ _ (by decide) (by decide), if_neg (by omega), hline_cell h _ _ (by decide),
      if_neg (by omega)]

theorem kateCursor_row {ln vscroll : Int} (h : vscroll ≤ ln ∧ ln < vscroll + kateVrows) (col : Int)
    (v : Vga) :
    (kateCursor ln col vscroll v).terminalRow = ctop + 1 + (ln - vscroll) := by
  have hrow : ¬ ctop + 1 + (ln - vscroll) < ctop + 1 ∧
      ¬ ctop + 1 + (ln - vscroll) > ctop + kateVrows := by omega
  have hscreen : 0 ≤ ctop + 1 + (ln - vscroll) ∧ ctop + 1 + (ln - vscroll) < Vga.height := by
    unfold ctop kateVrows Vga.height at *
    omega
  unfold kateCursor
  dsimp only
  rw [if_neg hrow.1, if_neg hrow.2]
  exact Vga.setCursorPos_row hscreen _ v

/-- **The editor shows the lines around the cursor**: the cursor's line is among the visible ones, the cursor is set in its
row, and each row shows the line that it is for, as far as there is room. -/
theorem kateDraw_shows (k : Kate) (h0 : 0 ∉ k.buf.chars) {vscroll : Int} (hv : 0 ≤ vscroll)
    (nb lnb clb : Fin 16 → UInt8) (v : Vga) :
    let ln : Int := kateLineof k.buf.chars k.pos
    let drawn := kateDraw k vscroll nb lnb clb v
    (drawn.1 ≤ ln ∧ ln < drawn.1 + kateVrows) ∧ drawn.2.terminalRow = ctop + 1 + (ln - drawn.1) ∧
      ∀ r j : Nat, r < kateVrows → j < kateVcols → drawn.2.cell (kateGutter + j) (ctop + 1 + r) =
        entry ((((lines 10 k.buf.chars).getD (drawn.1.toNat + r) []).take kateVcols).getD j 32)
          (entryColor lightGrey black) := by
  intro ln drawn
  obtain ⟨-, hbounds⟩ := kateScroll_bounds (Int.natCast_nonneg (kateLineof k.buf.chars k.pos)) hv
  refine ⟨hbounds, kateCursor_row hbounds _ _, fun r j hr hj => ?_⟩
  have hscreen : OnScreen (kateGutter + j) (ctop + 1 + r) := by
    unfold OnScreen kateGutter ctop kateVrows kateVcols Vga.width Vga.height at *
    omega
  show (Vga.cell (kateCursor _ _ _ (kateStatusBar _ _ _ _ (hline _ _ _ _ _ _))) _ _) = _
  unfold kateCursor
  dsimp only
  rw [Vga.setCursorPos_cell, kateStatusBar_cell hscreen (by omega)]
  exact kateRows_shown h0 _ (drop_kateLnstart _ _) hr hj

/-- One character, on a screen that was scrolled down. -/
theorem kateDraw_shows_typed :
    let k := (Kate.opened 0).insert 65
    let drawn := kateDraw k 30 (fun _ => 88) (fun _ => 88) (fun _ => 88) ⟨fun _ => 0, [], 0, 0, 7, 0, 24⟩
    (0 ∉ k.buf.chars ∧ (0 : Int) ≤ 30) ∧ drawn.2.cell (kateGutter + (0 : Nat)) (ctop + 1 + (0 : Nat)) =
      entry ((((lines 10 k.buf.chars).getD (drawn.1.toNat + 0) []).take kateVcols).getD 0 32)
        (entryColor lightGrey black) :=
  ⟨⟨by decide, by decide⟩, (kateDraw_shows ((Kate.opened 0).insert 65) (by decide) (by decide)
    (fun _ => 88) (fun _ => 88) (fun _ => 88) ⟨fun _ => 0, [], 0, 0, 7, 0, 24⟩).2.2 0 0 (by decide) (by decide)⟩

end FurOS.Desktop
