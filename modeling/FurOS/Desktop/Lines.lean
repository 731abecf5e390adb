import FurOS.Desktop.Kate
import FurOS.Foundation.Lines
import Mathlib.Data.List.GetD

/-! The lines of the editor's text.

The editor counts line ends anew for every move: `kate_lineof` and `kate_colof` from the start to
the cursor, `kate_lnstart` and `kate_lnend` on to a line. Together they are the position in the text
cut at every line end. -/
namespace FurOS.Desktop
open Foundation (lines lineOf lineStart lineStart_zero lineStart_succ lineStart_next lineOf_bounds
  lineOf_eq lines_ne_nil intercalate_lines sep_not_mem_line sep_not_mem_drop getD_drop drop_lines lineEnd_le)

/-- The length of a line; a missing line has none. -/
def lineLength (text : List UInt8) (ln : Nat) : Nat := ((lines 10 text).getD ln []).length

/-! ### The four loops -/

theorem kateLineof_eq (text : List UInt8) (pos : Nat) : kateLineof text pos = lineOf 10 text pos := rfl

section Scanning
variable {ln i cur : Nat}

/-- `kate_lnstart` passes over a line. -/
theorem lnstartFrom_append {l : List UInt8} (hl : 10 ∉ l) (rest : List UInt8) :
    lnstartFrom ln i cur (l ++ rest) = lnstartFrom ln (i + l.length) cur rest := by
  induction l generalizing i with
  | nil => rfl
  | cons ch l ih =>
    have hch : ch ≠ 10 := fun h => hl (h ▸ List.mem_cons_self)
    rw [List.cons_append, lnstartFrom, if_neg hch, ih fun h => hl (List.mem_cons_of_mem ch h),
      List.length_cons]
    congr 1
    omega

theorem lnstartFrom_lines {ls : List (List UInt8)} (hne : ls ≠ []) (hls : ∀ l ∈ ls, 10 ∉ l)
    (hcur : cur < ln) :
    lnstartFrom ln i cur ([10].intercalate ls) =
      i + if ln - cur < ls.length then lineStart ls (ln - cur) else ([10].intercalate ls).length := by
  induction ls generalizing i cur with
  | nil => exact absurd rfl hne
  | cons l ls ih =>
    have hl := hls l List.mem_cons_self
    obtain ⟨d, rfl⟩ : ∃ d, ln = cur + 1 + d := ⟨ln - (cur + 1), by omega⟩
    have hsub : cur + 1 + d - cur = d + 1 := by omega
    rw [hsub]
    cases ls with
    | nil =>
      have hend : lnstartFrom (cur + 1 + d) i cur (l ++ []) = i + l.length := lnstartFrom_append hl []
      rw [List.append_nil] at hend
      rw [List.intercalate_singleton, hend, if_neg (by simp)]
    | cons m ls =>
      rw [List.intercalate_cons_cons, List.append_assoc, lnstartFrom_append hl, lineStart_succ,
        List.singleton_append, lnstartFrom, if_pos rfl]
      cases d with
      | zero =>
        rw [if_pos rfl, if_pos (by simp)]
        simp
        omega
      | succ d =>
        rw [if_neg (by omega), ih (List.cons_ne_nil m ls)
          (fun l hmem => hls l (List.mem_cons_of_mem _ hmem)) (by omega)]
        have hsub' : cur + 1 + (d + 1) - (cur + 1) = d + 1 := by omega
        rw [hsub']
        simp only [List.length_append, List.length_cons]
        split <;> split <;> omega

end Scanning

/-- **Where `kate_lnstart` finds a line**: where it starts, and at the end of the text a missing one. -/
theorem kateLnstart_eq (text : List UInt8) (ln : Nat) : kateLnstart text ln =
    if ln < (lines 10 text).length then lineStart (lines 10 text) ln else text.length := by
  have hne : lines 10 text ≠ [] := lines_ne_nil 10 text
  rw [kateLnstart]
  by_cases h0 : ln = 0
  · rw [if_pos h0, h0, if_pos (List.length_pos_iff.mpr hne), lineStart_zero]
  · have hscan := lnstartFrom_lines (i := 0) hne (fun l hl => sep_not_mem_line hl) (Nat.pos_of_ne_zero h0)
    rw [intercalate_lines, Nat.sub_zero, Nat.zero_add] at hscan
    rw [if_neg h0, hscan]

/-- `kate_lnend` passes over the first line. -/
theorem lnendFrom_lines (i : Nat) {ls : List (List UInt8)} (hls : ∀ l ∈ ls, 10 ∉ l) :
    lnendFrom i ([10].intercalate ls) = i + (ls.getD 0 []).length := by
  have happend (l rest : List UInt8) (hl : 10 ∉ l) (i : Nat) :
      lnendFrom i (l ++ rest) = lnendFrom (i + l.length) rest := by
    induction l generalizing i with
    | nil => rfl
    | cons ch l ih =>
      have hch : ch ≠ 10 := fun h => hl (h ▸ List.mem_cons_self)
      rw [List.cons_append, lnendFrom, if_neg hch, ih fun h => hl (List.mem_cons_of_mem ch h),
        List.length_cons]
      congr 1
      omega
  cases ls with
  | nil => rfl
  | cons l ls =>
    have hl := hls l List.mem_cons_self
    cases ls with
    | nil =>
      have hend := happend l [] hl i
      rw [List.append_nil] at hend
      rw [List.intercalate_singleton, hend]
      rfl
    | cons m ls =>
      rw [List.intercalate_cons_cons, List.append_assoc, happend l _ hl]
      rfl

/-- **Where `kate_lnend` finds the end of a line.** -/
theorem kateLnend_eq (text : List UInt8) (ln : Nat) :
    kateLnend text ln = kateLnstart text ln + lineLength text ln := by
  have hstart := kateLnstart_eq text ln
  rw [kateLnend, lineLength]
  by_cases hln : ln < (lines 10 text).length
  · rw [if_pos hln] at hstart
    have hdrop : text.drop (lineStart (lines 10 text) ln) = [10].intercalate ((lines 10 text).drop ln) :=
      drop_lines hln
    rw [hstart, hdrop, lnendFrom_lines _ (sep_not_mem_drop ln), getD_drop]
  · rw [if_neg hln] at hstart
    rw [hstart, List.drop_length, List.getD_eq_default _ _ (Nat.le_of_not_lt hln)]
    rfl

/-- What comes from where `kate_lnstart` finds a line on. -/
theorem drop_kateLnstart (text : List UInt8) (ln : Nat) :
    text.drop (kateLnstart text ln) = [10].intercalate ((lines 10 text).drop ln) := by
  rw [kateLnstart_eq]
  split
  · next hln => exact drop_lines hln
  · next hln => rw [List.drop_length, List.drop_eq_nil_of_le (Nat.le_of_not_lt hln)]; rfl

/-- **The column is how far a position is behind the start of its line.** -/
theorem kateColof_eq {text : List UInt8} {p : Nat} (hp : p ≤ text.length) :
    lineStart (lines 10 text) (lineOf 10 text p) + kateColof text p = p := by
  induction p with
  | zero =>
    obtain ⟨_, hfrom, _⟩ := lineOf_bounds (10 : UInt8) hp
    have hcol : kateColof text 0 = 0 := by rw [kateColof, List.take_zero, List.foldl_nil]
    omega
  | succ p ih =>
    have hlt : p < text.length := hp
    have hbefore := ih hlt.le
    obtain ⟨hin, hfrom, hto⟩ := lineOf_bounds (10 : UInt8) hlt.le
    obtain ⟨hin', hfrom', hto'⟩ := lineOf_bounds (10 : UInt8) hp
    have htake : text.take (p + 1) = text.take p ++ [text[p]] := List.take_succ_eq_append_getElem hlt
    have hline : lineOf 10 text (p + 1) = lineOf 10 text p + if text[p] = 10 then 1 else 0 := by
      rw [lineOf, htake, List.count_append, List.count_singleton]
      simp [lineOf]
    have hcol : kateColof text (p + 1) = if text[p] = 10 then 0 else kateColof text p + 1 := by
      rw [kateColof, htake, List.foldl_concat]
      rfl
    have hnext := lineStart_next hin
    by_cases hsep : text[p] = 10
    · rw [if_pos hsep] at hline hcol
      rw [hline] at hfrom' ⊢
      rw [hcol]
      omega
    · have hsame : lineOf 10 text (p + 1) = lineOf 10 text p := by rw [hline, if_neg hsep, Nat.add_zero]
      rw [if_neg hsep] at hcol
      rw [hsame, hcol]
      omega

/-! ### Moves -/

namespace Kate
variable {k : Kate} {ln col : Nat}

/-- The cursor of `k'` is at this line and column of the text of `k`. -/
structure MovedTo (k : Kate) (ln col : Nat) (k' : Kate) : Prop where
  buf : k'.buf = k.buf
  lineof : kateLineof k'.buf.chars k'.pos = ln
  colof : kateColof k'.buf.chars k'.pos = col

/-- A position by its line and column. -/
theorem movedTo_of_pos {k' : Kate} (hbuf : k'.buf = k.buf) (hln : ln < (lines 10 k.buf.chars).length)
    (hcol : col ≤ lineLength k.buf.chars ln) (hpos : k'.pos = lineStart (lines 10 k.buf.chars) ln + col) :
    MovedTo k ln col k' := by
  have hline : lineOf 10 k.buf.chars (lineStart (lines 10 k.buf.chars) ln + col) = ln := lineOf_eq hln hcol
  have hle := k'.pos_le
  rw [hbuf] at hle
  have hcolof := kateColof_eq hle
  rw [hpos, hline] at hcolof
  refine ⟨hbuf, ?_, ?_⟩
  · rw [hbuf, hpos]
    exact hline
  · rw [hbuf, hpos]
    omega

/-- The column in a line that there is, or its end. -/
theorem atColumn_movedTo (k : Kate) (hln : ln < (lines 10 k.buf.chars).length) (col : Nat) :
    MovedTo k ln (min col (lineLength k.buf.chars ln)) (k.atColumn ln col) := by
  have hstart := kateLnstart_eq k.buf.chars ln
  have hend := kateLnend_eq k.buf.chars ln
  rw [if_pos hln] at hstart
  refine movedTo_of_pos rfl hln (Nat.min_le_right _ _) ?_
  show kateLnstart k.buf.chars ln + (if col < kateLnend k.buf.chars ln - kateLnstart k.buf.chars ln then col
    else kateLnend k.buf.chars ln - kateLnstart k.buf.chars ln) = _
  rw [hend, hstart, Nat.add_sub_cancel_left]
  split <;> omega

/-- The last line starts behind a line end. -/
theorem getLast?_of_last_empty {text : List UInt8} (hln : ln + 1 < (lines 10 text).length)
    (hstart : lineStart (lines 10 text) (ln + 1) = text.length) : text.getLast? = some 10 := by
  have hnext := lineStart_next (Nat.lt_of_succ_lt hln)
  have hlast : lineOf 10 text (lineStart (lines 10 text) (ln + 1) + 0) = ln + 1 :=
    lineOf_eq hln (Nat.zero_le _)
  have hprev : lineOf 10 text (lineStart (lines 10 text) ln + lineLength text ln) = ln :=
    lineOf_eq (Nat.lt_of_succ_lt hln) (Nat.le_refl _)
  have hpos : lineStart (lines 10 text) ln + lineLength text ln = text.length - 1 := by
    unfold lineLength
    omega
  have hlt : text.length - 1 < text.length := by omega
  have htake : text.take (text.length - 1 + 1) = text.take (text.length - 1) ++ [text[text.length - 1]] :=
    List.take_succ_eq_append_getElem hlt
  have hsucc : text.length - 1 + 1 = text.length := by omega
  rw [hsucc, List.take_length] at htake
  rw [Nat.add_zero, hstart, lineOf, List.take_length, htake, List.count_append, List.count_singleton] at hlast
  rw [hpos, lineOf] at hprev
  rw [hprev] at hlast
  rw [List.getLast?_eq_getElem?, List.getElem?_eq_getElem hlt]
  by_contra hne
  have hne' : text[text.length - 1] ≠ 10 := fun h => hne (by rw [h])
  simp [hne'] at hlast

theorem atColumn_of_pos (h : (k.atColumn ln col).pos = k.pos) : k.atColumn ln col = k := by
  cases k
  simp only [atColumn] at h ⊢
  congr

/-- A text that ends in a line end has no cursor on its last line but the one at its end. -/
theorem pos_of_last_line {text : List UInt8} {p : Nat} (hp : p ≤ text.length)
    (hlast : text.getLast? = some 10)
    (hln : ¬ kateLineof text p + 1 < (lines 10 text).length) : p = text.length := by
  by_contra hne
  have hlt : text.length - 1 < text.length := by omega
  have htake : text.take (text.length - 1 + 1) = text.take (text.length - 1) ++ [text[text.length - 1]] :=
    List.take_succ_eq_append_getElem hlt
  have hsep : text[text.length - 1] = 10 := by
    rw [List.getLast?_eq_getElem?, List.getElem?_eq_getElem hlt] at hlast
    exact Option.some.inj hlast
  have hsucc : text.length - 1 + 1 = text.length := by omega
  rw [hsucc, List.take_length, hsep] at htake
  obtain ⟨hin, _, _⟩ := lineOf_bounds (10 : UInt8) (Nat.le_refl text.length)
  have hcount : lineOf 10 text text.length = lineOf 10 text (text.length - 1) + 1 := by
    show (text.take text.length).count 10 = (text.take (text.length - 1)).count 10 + 1
    rw [List.take_length, htake, List.count_append]
    simp
  have hmono : kateLineof text p ≤ lineOf 10 text (text.length - 1) := by
    have hpre : text.take p <+: text.take (text.length - 1) := List.take_prefix_take_left (by omega)
    exact hpre.sublist.count_le 10
  omega

/-- Where there is no line below, the cursor stays. -/
theorem moveDown_last (k : Kate) (hln : ¬ kateLineof k.buf.chars k.pos + 1 < (lines 10 k.buf.chars).length) :
    k.moveDown = k := by
  have hstart := kateLnstart_eq k.buf.chars (kateLineof k.buf.chars k.pos + 1)
  rw [if_neg hln] at hstart
  unfold moveDown
  split
  · rfl
  · next hguard =>
    have hlast : k.buf.chars.getLast? = some 10 := by
      by_contra hne
      exact hguard ⟨hstart.ge, hne⟩
    have hpos := pos_of_last_line k.pos_le hlast hln
    have hend := kateLnend_eq k.buf.chars (kateLineof k.buf.chars k.pos + 1)
    have hnone : lineLength k.buf.chars (kateLineof k.buf.chars k.pos + 1) = 0 := by
      rw [lineLength, List.getD_eq_default _ _ (Nat.le_of_not_lt hln)]
      rfl
    have hsame : (k.atColumn (kateLineof k.buf.chars k.pos + 1) (kateColof k.buf.chars k.pos)).pos =
        k.pos := by
      show kateLnstart k.buf.chars (kateLineof k.buf.chars k.pos + 1) + (if _ then _ else _) = k.pos
      rw [hend, hstart, hnone, Nat.add_zero, Nat.sub_self, if_neg (Nat.not_lt_zero _), Nat.add_zero, hpos]
    exact atColumn_of_pos hsame

theorem moveUp_movedTo (k : Kate) :
    if 0 < kateLineof k.buf.chars k.pos then
      k.MovedTo (kateLineof k.buf.chars k.pos - 1)
        (min (kateColof k.buf.chars k.pos)
          (lineLength k.buf.chars (kateLineof k.buf.chars k.pos - 1))) k.moveUp
    else k.moveUp = k := by
  obtain ⟨hin, _, _⟩ := lineOf_bounds (10 : UInt8) k.pos_le
  have hin : kateLineof k.buf.chars k.pos < (lines 10 k.buf.chars).length := hin
  unfold moveUp
  split
  · next hl =>
    rw [if_neg (Nat.ne_of_gt hl)]
    exact k.atColumn_movedTo (by omega) _
  · next hl => exact if_pos (Nat.eq_zero_of_not_pos hl)

theorem moveDown_movedTo (k : Kate) :
    if kateLineof k.buf.chars k.pos + 1 < (lines 10 k.buf.chars).length then
      k.MovedTo (kateLineof k.buf.chars k.pos + 1)
        (min (kateColof k.buf.chars k.pos)
          (lineLength k.buf.chars (kateLineof k.buf.chars k.pos + 1))) k.moveDown
    else k.moveDown = k := by
  split
  · next hl =>
    have hnext := kateLnstart_eq k.buf.chars (kateLineof k.buf.chars k.pos + 1)
    rw [if_pos hl] at hnext
    unfold moveDown
    rw [if_neg]
    · exact k.atColumn_movedTo hl _
    intro ⟨hge, hlast⟩
    have hle := kateLnstart_le k.buf.chars (kateLineof k.buf.chars k.pos + 1)
    rw [hnext] at hle
    exact hlast (getLast?_of_last_empty hl (Nat.le_antisymm hle (hnext ▸ hge)))
  · next hl => exact k.moveDown_last hl

theorem home_movedTo (k : Kate) : k.MovedTo (kateLineof k.buf.chars k.pos) 0 k.home := by
  obtain ⟨hin, _, _⟩ := lineOf_bounds (10 : UInt8) k.pos_le
  refine movedTo_of_pos rfl hin (Nat.zero_le _) ?_
  show kateLnstart k.buf.chars (lineOf 10 k.buf.chars k.pos) = _
  rw [kateLnstart_eq, if_pos hin, Nat.add_zero]
  rfl

theorem toEnd_movedTo (k : Kate) :
    k.MovedTo (kateLineof k.buf.chars k.pos)
      (lineLength k.buf.chars (kateLineof k.buf.chars k.pos)) k.toEnd := by
  obtain ⟨hin, _, _⟩ := lineOf_bounds (10 : UInt8) k.pos_le
  refine movedTo_of_pos rfl hin (Nat.le_refl _) ?_
  show kateLnend k.buf.chars (lineOf 10 k.buf.chars k.pos) = _
  rw [kateLnend_eq, kateLnstart_eq, if_pos hin]
  rfl

end Kate

/-- **Lines and columns, and the moves between them.** A position is a line and a column; up and down
keep the column as far as the line reaches, where there is such a line, and home and end are the ends
of a line. -/
theorem line_geometry : (∀ (text : List UInt8) (p : Nat), p ≤ text.length →
      kateLnstart text (kateLineof text p) + kateColof text p = p) ∧
    ∀ k : Kate,
      let l := kateLineof k.buf.chars k.pos
      let c := kateColof k.buf.chars k.pos
      (if 0 < l then k.MovedTo (l - 1) (min c (lineLength k.buf.chars (l - 1))) k.moveUp else k.moveUp = k) ∧
      (if l + 1 < (lines 10 k.buf.chars).length then
        k.MovedTo (l + 1) (min c (lineLength k.buf.chars (l + 1))) k.moveDown else k.moveDown = k) ∧
      k.MovedTo l 0 k.home ∧ k.MovedTo l (lineLength k.buf.chars l) k.toEnd := by
  constructor
  · intro text p hp
    obtain ⟨hin, _, _⟩ := lineOf_bounds (10 : UInt8) hp
    rw [kateLnstart_eq, kateLineof_eq, if_pos hin]
    exact kateColof_eq hp
  intro k l c
  exact ⟨k.moveUp_movedTo, k.moveDown_movedTo, k.home_movedTo, k.toEnd_movedTo⟩

/-- `a` and, below it, `bc` with the cursor behind. -/
def twoLines : Kate := ((((Kate.opened 0).insert 97).insert 10).insert 98).insert 99

/-- Up to the end of a shorter line, and not down from the last one. -/
theorem line_geometry_twoLines :
    kateLnstart twoLines.buf.chars (kateLineof twoLines.buf.chars 4) + kateColof twoLines.buf.chars 4 = 4 ∧
      twoLines.MovedTo 0 1 twoLines.moveUp ∧ twoLines.moveDown = twoLines ∧ twoLines.MovedTo 1 0 twoLines.home ∧
      twoLines.MovedTo 1 2 twoLines.toEnd := by
  obtain ⟨hposition, hmoves⟩ := line_geometry
  obtain ⟨hup, hdown, hhome, hend⟩ := hmoves twoLines
  have hline : kateLineof twoLines.buf.chars twoLines.pos = 1 := by decide
  have hcol : kateColof twoLines.buf.chars twoLines.pos = 2 := by decide
  have hlines : (lines 10 twoLines.buf.chars).length = 2 := by decide
  have hfirst : lineLength twoLines.buf.chars 0 = 1 := by decide
  have hsecond : lineLength twoLines.buf.chars 1 = 2 := by decide
  rw [hline, hcol] at hup
  rw [hline, hlines] at hdown
  rw [hline] at hhome hend
  rw [hsecond] at hend
  refine ⟨hposition twoLines.buf.chars 4 (by decide), ?_, hdown, hhome, hend⟩
  simpa [hfirst] using hup

end FurOS.Desktop
