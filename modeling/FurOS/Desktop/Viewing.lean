import FurOS.Desktop.Fileman
import FurOS.Foundation.Lines
import FurOS.Shell.Prompt

/-! What the file manager shows of a file.

`fm_view_file` prints the path of the node into 80 bytes and reads the file there, without a look at what
either call returns. Where the path does not fit, the array holds the start of it and whatever it held
before: the file is shown exactly if its path has at most 78 characters. What is shown are its lines
(`fmView_shows`). -/
namespace FurOS.Desktop
open Foundation (lines lines_nil lines_cons lines_cons_sep spell)
open Vga

/-- The file as it is to be shown. -/
def FmView.ofNode (t : Nodes) (n : NodeId) : FmView :=
  ⟨⟨cstr (t n).name, cstr_noNul _⟩, some (t n).data, (t n).size, 0⟩

/-- The data and the size of the node are shown, whatever the array held. -/
def ShowsFile (t : Nodes) (n : NodeId) : Prop := ∀ bxBuf, fmViewFile t (n.val : Int) bxBuf = .ok (.ofNode t n)

/-! ### The printed path -/

theorem put_chars {cap : Nat} {out out' : Written cap} {s : List UInt8} (h : out.put s = .ok out') :
    out'.chars = out.chars ++ s := by
  unfold Written.put at h
  split at h
  · cases h
    rfl
  · cases h

/-- A path that is given up on has not been terminated. -/
theorem putNames_noNul {t : Nodes} {cap : Nat} (stack : List Int) {out : Written cap} (h0 : 0 ∉ out.chars)
    {x : Int × Written cap} (h : putNames t out stack = .ok x) (hr : x.1 ≠ 0) : 0 ∉ x.2.chars := by
  induction stack generalizing out with
  | nil =>
    obtain ⟨out', hput, hret⟩ := Foundation.bind_eq_ok.mp h
    cases hret
    exact absurd rfl hr
  | cons node rest ih =>
    obtain ⟨n, -, h⟩ := Foundation.bind_eq_ok.mp h
    obtain ⟨name, hname, h⟩ := Foundation.bind_eq_ok.mp h
    have hname0 : 0 ∉ name := by
      unfold readStr at hname
      split at hname
      · cases hname
        exact cstr_noNul _
      · cases hname
    split at h
    · cases h
      exact h0
    · obtain ⟨out₁, hput, h⟩ := Foundation.bind_eq_ok.mp h
      have h1 : 0 ∉ out₁.chars := by
        rw [put_chars hput]
        exact fun hmem => (List.mem_append.mp hmem).elim h0 hname0
      split at h
      · obtain ⟨out₂, hput', h⟩ := Foundation.bind_eq_ok.mp h
        have h2 : 0 ∉ out₂.chars := by
          rw [put_chars hput']
          exact fun hmem => (List.mem_append.mp hmem).elim h1 (by decide)
        exact ih h2 h
      · exact ih h1 h

theorem fsMakePath_noNul {t : Nodes} {node : Int} {cap : Nat} {x : Int × Written cap}
    (h : fsMakePath t node cap = .ok x) (hr : x.1 ≠ 0) : 0 ∉ x.2.chars := by
  unfold fsMakePath at h
  dsimp only at h
  split at h
  · cases h
    exact List.not_mem_nil
  split at h
  · cases h
    exact List.not_mem_nil
  split at h
  · split at h
    · cases h
      exact List.not_mem_nil
    · obtain ⟨out, -, hret⟩ := Foundation.bind_eq_ok.mp h
      cases hret
      exact absurd rfl hr
  · obtain ⟨stack, -, h⟩ := Foundation.bind_eq_ok.mp h
    split at h
    · cases h
      exact List.not_mem_nil
    · obtain ⟨out, hput, h⟩ := Foundation.bind_eq_ok.mp h
      refine putNames_noNul stack ?_ h hr
      rw [put_chars hput]
      exact fun hmem => (List.mem_append.mp hmem).elim List.not_mem_nil (by decide)

/-- A path that fits is the string of the array. -/
theorem storedInto_path {n : Nat} (a : Fin n → UInt8) {out : Written n} {path : List UInt8}
    (hout : out.chars = path ++ [0])
    (h0 : 0 ∉ path) : cstr (storedInto a out) = path ∧ path.length < n := by
  have hlen := congrArg List.length hout
  have hfits := out.fits
  rw [List.length_append, List.length_singleton] at hlen
  have hcopy : storedInto a out = kstrcpy a path := by
    funext i
    show (if h : i.val < out.chars.length then out.chars[i.val] else a i) =
      if h : i.val < path.length then path[i.val] else if i.val = path.length then 0 else a i
    simp only [hout]
    by_cases hin : i.val < path.length
    · rw [dif_pos (by simp; omega), dif_pos hin, List.getElem_append_left hin]
    · rw [dif_neg hin]
      by_cases hend : i.val = path.length
      · rw [dif_pos (by simp; omega), if_pos hend, List.getElem_append_right (by omega)]
        simp [hend]
      · rw [dif_neg (by simp; omega), if_neg hend]
  exact ⟨hcopy ▸ cstr_kstrcpy a path h0 (by omega), by omega⟩

/-- An array without a terminator, in which none is stored. -/
theorem storedInto_unterminated {n : Nat} {a : Fin n → UInt8} (ha : ∀ i, a i ≠ 0) {out : Written n}
    (h0 : 0 ∉ out.chars) :
    readStr (storedInto a out) = .error .unterminated := by
  have hcell (i : Fin n) : storedInto a out i ≠ 0 := by
    unfold storedInto
    split
    · next h => exact fun hz => h0 (hz ▸ List.getElem_mem h)
    · exact ha i
  have hall : ∀ c ∈ List.ofFn (storedInto a out), decide (c ≠ 0) = true := by
    intro c hc
    obtain ⟨i, rfl⟩ := (List.mem_ofFn' _ c).mp hc
    exact decide_eq_true (hcell i)
  have hlen : (cstr (storedInto a out)).length = n := by
    show ((List.ofFn (storedInto a out)).takeWhile _).length = n
    rw [List.takeWhile_eq_self_iff.mpr hall, List.length_ofFn]
  unfold readStr
  rw [if_neg (by omega)]

/-! ### The file -/

section Files
variable {t : Nodes} (wf : WellFormed t) {n : NodeId} (hn : (t n).used = true)
include wf hn

/-- A path that fits is read back. -/
theorem showsFile_of_le
    (hdots : ∀ i, (t i).used = true → cstr (t i).name ≠ lit "." ∧ cstr (t i).name ≠ lit "..")
    (hfile : (t n).isDir = false) {path : List UInt8} (hpath : AbsolutePath t n path)
    (hle : path.length ≤ 78) : ShowsFile t n := by
  intro bxBuf
  obtain ⟨⟨r, out⟩, hout, hstored⟩ := fsMakePath_stored wf hn hpath 80
  have hroom : roomFor n path ≤ 80 := by
    unfold roomFor
    split <;> omega
  rcases hstored with ⟨-, hchars, -⟩ | ⟨-, hshort⟩
  · obtain ⟨hstr, hlt⟩ := storedInto_path bxBuf hchars hpath.noNul
    have hread : readStr (storedInto bxBuf out) = .ok path := by
      unfold readStr
      rw [hstr, if_pos hlt]
    have harg : CStr.ofChars path = ⟨path, hpath.noNul⟩ :=
      CStr.ext (List.takeWhile_eq_self_iff.mpr fun c hc =>
        decide_eq_true (ne_of_mem_of_not_mem hc hpath.noNul))
    obtain ⟨hhead, hres⟩ := hpath.resolve wf hdots hn 0
    have hresolve : fsResolve t fsGetRoot ⟨path, hpath.noNul⟩ = .ok (n.val : Int) := by
      rw [fsResolve_absolute hhead]
      exact (fsResolve_eq_some wf.navigable wf.root_used).mpr hres
    have hfileRead : fsReadFile t fsGetRoot ⟨path, hpath.noNul⟩ = .ok (some ((t n).data, (t n).size)) := by
      unfold fsReadFile
      rw [hresolve, Foundation.ok_bind, if_neg (by omega), nodeIndex_ofNat, Foundation.ok_bind, hfile]
      rfl
    unfold fmViewFile
    rw [fmName_eq wf hn, Foundation.ok_bind, hout]
    simp only [orFmFault, Foundation.ok_bind, hread, harg, hfileRead]
    rfl
  · omega

/-- For a path that does not fit, an array without a terminator is read past its end. -/
theorem fmViewFile_long (hne : n ≠ 0) {path : List UInt8} (hpath : AbsolutePath t n path)
    (hlt : 78 < path.length) :
    fmViewFile t (n.val : Int) (fun _ => 1) = .error (.fs .unterminated) := by
  obtain ⟨⟨r, out⟩, hout, hstored⟩ := fsMakePath_stored wf hn hpath 80
  rw [roomFor_below hne] at hstored
  rcases hstored with ⟨-, -, hfits⟩ | ⟨hr, -⟩
  · omega
  · have hr : r = -1 := hr
    have h0 : 0 ∉ out.chars := fsMakePath_noNul hout (by show r ≠ 0; omega)
    have hread := storedInto_unterminated (a := fun _ => 1) (fun _ => by decide) h0
    unfold fmViewFile
    rw [fmName_eq wf hn, Foundation.ok_bind, hout]
    simp only [orFmFault, Foundation.ok_bind, hread]
    rfl

end Files

/-- **The file that was opened is shown exactly if its path has at most 78 characters.** -/
theorem showsFile_iff (t : Nodes) (wf : WellFormed t)
    (hdots : ∀ i, (t i).used = true → cstr (t i).name ≠ lit "." ∧ cstr (t i).name ≠ lit "..")
    (n : NodeId) (hn : (t n).used = true) (hfile : (t n).isDir = false) (path : List UInt8)
    (hpath : AbsolutePath t n path) :
    ShowsFile t n ↔ path.length ≤ 78 := by
  constructor
  · intro h
    by_contra hlong
    have hne : n ≠ 0 := by
      intro h0
      rw [h0, wf.root_dir] at hfile
      cases hfile
    have hbad := fmViewFile_long wf hn hne hpath (by omega)
    rw [h] at hbad
    cases hbad
  · exact showsFile_of_le wf hn hdots hfile hpath

theorem nested_path : AbsolutePath nested 2 (lit "/a/f") := by
  obtain ⟨-, ⟨-, -, hdir, ha⟩, ⟨-, -, hfile, hf, -⟩, -⟩ := nested_nodes
  refine ⟨[1, 2], .step (l := [1]) (by decide) hfile (.step (l := []) (by decide) hdir .root), ?_⟩
  rw [if_neg (List.cons_ne_nil _ _), namesOf_cons, namesOf_cons, namesOf_nil, ha, hf]
  decide

theorem showsFile_iff_nested : ShowsFile nested 2 ↔ (lit "/a/f").length ≤ 78 :=
  showsFile_iff nested nested_wellFormed nested_nodes.2.2.2 2 nested_file.1 nested_file.2.1 (lit "/a/f") nested_path

/-! ### On the screen -/

/-- What a text puts at row `r` and column `j`, when its first byte goes to `row` and `col`. -/
def glyph (text : List UInt8) (row col r j : Nat) : Option UInt8 :=
  if r < row ∨ r = row ∧ j < col then none
  else ((lines 10 text).getD (r - row) [])[if r = row then j - col else j]?

theorem glyph_before (text : List UInt8) {row col r j : Nat} (h : r < row ∨ r = row ∧ j < col) :
    glyph text row col r j = none :=
  if_pos h

theorem glyph_row (text : List UInt8) (row : Nat) {col j : Nat} (h : col ≤ j) :
    glyph text row col row j = ((lines 10 text).getD 0 [])[j - col]? := by
  unfold glyph
  rw [if_neg (by omega), if_pos rfl, Nat.sub_self]

theorem glyph_below (text : List UInt8) (row col k j : Nat) :
    glyph text row col (row + k + 1) j = ((lines 10 text).getD (k + 1) [])[j]? := by
  have hsub : row + k + 1 - row = k + 1 := by omega
  unfold glyph
  rw [if_neg (by omega), if_neg (by omega), hsub]

/-- A row is above the one that is written, that one or below it. -/
theorem row_cases (row r : Nat) : r < row ∨ r = row ∨ ∃ k, r = row + k + 1 := by
  rcases Nat.lt_trichotomy r row with hlt | heq | hgt
  · exact .inl hlt
  · exact .inr (.inl heq)
  · exact .inr (.inr ⟨r - row - 1, by omega⟩)

theorem glyph_nil (row col r j : Nat) : glyph [] row col r j = none := by
  unfold glyph
  split
  · rfl
  · rw [lines_nil]
    cases r - row <;> simp

theorem glyph_from (text : List UInt8) (r j : Nat) : glyph text 0 0 r j = ((lines 10 text).getD r [])[j]? := by
  cases r with
  | zero => exact glyph_row text 0 (Nat.zero_le j)
  | succ r => rw [← glyph_below text 0 0, Nat.zero_add]

theorem glyph_newline (text : List UInt8) (row col r j : Nat) :
    glyph (10 :: text) row col r j = glyph text (row + 1) 0 r j := by
  rcases row_cases row r with hlt | rfl | ⟨k, rfl⟩
  · rw [glyph_before _ (.inl hlt), glyph_before _ (.inl (by omega))]
  · have hnext : glyph text (r + 1) 0 r j = none := glyph_before _ (.inl (by omega))
    rw [hnext]
    by_cases hj : j < col
    · exact glyph_before _ (.inr ⟨rfl, hj⟩)
    · rw [glyph_row _ _ (Nat.le_of_not_lt hj), lines_cons_sep, List.getD_cons_zero, List.getElem?_nil]
  · rw [glyph_below, lines_cons_sep, List.getD_cons_succ]
    cases k with
    | zero => rw [Nat.add_zero, glyph_row _ _ (Nat.zero_le j), Nat.sub_zero]
    | succ k =>
      have hrow : row + (k + 1) + 1 = row + 1 + k + 1 := by omega
      rw [hrow, glyph_below]

theorem glyph_cons {c : UInt8} (hc : c ≠ 10) (text : List UInt8) (row col r j : Nat) :
    glyph (c :: text) row col r j =
      if r = row ∧ j = col then some c else glyph text row (col + 1) r j := by
  obtain ⟨l, ls, hlines, hcons⟩ := lines_cons hc text
  rcases row_cases row r with hlt | rfl | ⟨k, rfl⟩
  · rw [glyph_before _ (.inl hlt), if_neg (by omega), glyph_before _ (.inl hlt)]
  · rcases Nat.lt_trichotomy j col with hlt | rfl | hgt
    · rw [glyph_before _ (.inr ⟨rfl, hlt⟩), if_neg (by omega), glyph_before _ (.inr ⟨rfl, by omega⟩)]
    · rw [glyph_row _ _ (Nat.le_refl j), if_pos ⟨rfl, rfl⟩, hcons, Nat.sub_self, List.getD_cons_zero,
        List.getElem?_cons_zero]
    · have hsub : j - col = j - (col + 1) + 1 := by omega
      rw [glyph_row _ _ (by omega), if_neg (by omega), glyph_row _ _ hgt, hcons, hlines, List.getD_cons_zero,
        List.getD_cons_zero, hsub, List.getElem?_cons_succ]
  · rw [glyph_below, if_neg (by omega), glyph_below, hcons, hlines, List.getD_cons_succ, List.getD_cons_succ]

/-- Past the last column nothing is shown. -/
theorem glyph_full (text : List UInt8) (row : Nat) {col r j : Nat} (hj : j < col) :
    glyph text row (col + 1) r j = glyph text row col r j := by
  rcases row_cases row r with hlt | rfl | ⟨k, rfl⟩
  · rw [glyph_before _ (.inl hlt), glyph_before _ (.inl hlt)]
  · rw [glyph_before _ (.inr ⟨rfl, by omega⟩), glyph_before _ (.inr ⟨rfl, hj⟩)]
  · rw [glyph_below, glyph_below]

/-- The bytes that are left are shown from where they are to go. -/
theorem fmText_shown {data : Fin 4096 → UInt8} (rest : List UInt8) (ci : Int) (row col : Nat) (v : Vga)
    (hcells : ∀ i (h : i < rest.length), readCell data (ci + i) = .ok rest[i]) (hrow : row ≤ 20) (hcol : col ≤ 70) :
    ∃ v', fmText data rest.length ci row col v = .ok v' ∧ ∀ r j : Nat, r < 20 → j < 70 →
      v'.cell (4 + 1 + j) (ctop + 1 + r) =
        ((glyph rest row col r j).map (entry · (entryColor lightGrey black))).getD
          (v.cell (4 + 1 + j) (ctop + 1 + r)) := by
  induction rest generalizing ci row col v with
  | nil =>
    refine ⟨v, rfl, fun r j _ _ => ?_⟩
    rw [glyph_nil]
    rfl
  | cons c rest ih =>
    have hfirst : readCell data ci = .ok c := by
      have := hcells 0 (Nat.succ_pos _)
      rwa [Int.natCast_zero, Int.add_zero] at this
    have hcells' : ∀ i (h : i < rest.length), readCell data (ci + 1 + i) = .ok rest[i] := by
      intro i hi
      have := hcells (i + 1) (Nat.succ_lt_succ hi)
      rwa [Int.natCast_add, Int.natCast_one, Int.add_comm (i : Int), ← Int.add_assoc] at this
    rw [List.length_cons, fmText]
    by_cases hroom : (row : Int) < 20
    · rw [if_pos hroom, hfirst, Foundation.ok_bind]
      by_cases hc : c = 10
      · obtain ⟨v', hok, hshown⟩ := ih (ci + 1) (row + 1) 0 v hcells' (by omega) (by omega)
        subst hc
        refine ⟨v', by rw [if_pos rfl]; exact_mod_cast hok, fun r j hr hj => ?_⟩
        rw [hshown r j hr hj, glyph_newline]
      · rw [if_neg hc]
        by_cases hfull : (col : Int) < 70
        · obtain ⟨v', hok, hshown⟩ := ih (ci + 1) row (col + 1)
            (v.putAt (4 + 1 + col) (ctop + 1 + row) c lightGrey black) hcells' hrow (by omega)
          refine ⟨v', by rw [if_pos hfull]; exact_mod_cast hok, fun r j hr hj => ?_⟩
          have hscreen : OnScreen (4 + 1 + (j : Int)) (ctop + 1 + r) := by
            unfold OnScreen ctop Vga.width Vga.height
            omega
          rw [hshown r j hr hj, glyph_cons hc, putAt_cell v hscreen]
          by_cases hself : r = row ∧ j = col
          · obtain ⟨rfl, rfl⟩ := hself
            rw [if_pos ⟨rfl, rfl⟩, if_pos ⟨rfl, rfl⟩]
            have hnone : glyph rest r (j + 1) r j = none := if_pos (by omega)
            rw [hnone]
            rfl
          · rw [if_neg hself, if_neg (by omega)]
        · obtain rfl : col = 70 := by omega
          obtain ⟨v', hok, hshown⟩ := ih (ci + 1) row 70 v hcells' hrow (by omega)
          refine ⟨v', by rw [if_neg hfull]; exact hok, fun r j hr hj => ?_⟩
          rw [hshown r j hr hj, glyph_cons hc, if_neg (by omega), glyph_full rest row hj]
    · refine ⟨v, by rw [if_neg hroom], fun r j hr _ => ?_⟩
      have hnone : glyph (c :: rest) row col r j = none := if_pos (by omega)
      rw [hnone]
      rfl

/-- The lines that are scrolled past are skipped. -/
theorem fmSkip_lines {data : Fin 4096 → UInt8} (scrolly : Int) (rest : List UInt8) (ci ln : Int)
    (hcells : ∀ i (h : i < rest.length), readCell data (ci + i) = .ok rest[i]) :
    ∃ k ≤ rest.length, fmSkip data scrolly rest.length ci ln = .ok (ci + k) ∧
      rest.drop k = [10].intercalate ((lines 10 rest).drop (scrolly - ln).toNat) := by
  induction rest generalizing ci ln with
  | nil =>
    refine ⟨0, Nat.le_refl _, by rw [Int.natCast_zero, Int.add_zero]; rfl, ?_⟩
    rw [lines_nil]
    cases (scrolly - ln).toNat <;> simp
  | cons c rest ih =>
    have hfirst : readCell data ci = .ok c := by
      have := hcells 0 (Nat.succ_pos _)
      rwa [Int.natCast_zero, Int.add_zero] at this
    have hcells' : ∀ i (h : i < rest.length), readCell data (ci + 1 + i) = .ok rest[i] := by
      intro i hi
      have := hcells (i + 1) (Nat.succ_lt_succ hi)
      rwa [Int.natCast_add, Int.natCast_one, Int.add_comm (i : Int), ← Int.add_assoc] at this
    rw [List.length_cons, fmSkip]
    by_cases hmore : ln < scrolly
    · rw [if_pos hmore, hfirst, Foundation.ok_bind]
      by_cases hc : c = 10
      · subst hc
        obtain ⟨k, hk, hok, hdrop⟩ := ih (ci + 1) (ln + 1) hcells'
        have hnext : (scrolly - ln).toNat = (scrolly - (ln + 1)).toNat + 1 := by omega
        refine ⟨k + 1, Nat.succ_le_succ hk, ?_, ?_⟩
        · rw [if_pos rfl, hok]
          congr 1
          omega
        · rw [List.drop_succ_cons, hdrop, hnext, lines_cons_sep, List.drop_succ_cons]
      · obtain ⟨k, hk, hok, hdrop⟩ := ih (ci + 1) ln hcells'
        obtain ⟨l, ls, hlines, hcons⟩ := lines_cons hc rest
        obtain ⟨m, hm⟩ : ∃ m, (scrolly - ln).toNat = m + 1 := ⟨(scrolly - ln).toNat - 1, by omega⟩
        refine ⟨k + 1, Nat.succ_le_succ hk, ?_, ?_⟩
        · rw [if_neg hc, hok]
          congr 1
          omega
        · rw [List.drop_succ_cons, hdrop, hm, hlines, hcons, List.drop_succ_cons, List.drop_succ_cons]
    · have h0 : (scrolly - ln).toNat = 0 := by omega
      refine ⟨0, Nat.zero_le _, by rw [if_neg hmore, Int.natCast_zero, Int.add_zero], ?_⟩
      rw [h0, List.drop_zero, List.drop_zero, Foundation.intercalate_lines]

theorem FmView.count_eq {w : FmView} (h : w.size.toNat ≤ 4096) : w.count = w.size.toNat := by
  have hsize : w.size.toInt64.toInt = w.size.toNat := by
    show w.size.toBitVec.toInt = w.size.toBitVec.toNat
    exact BitVec.toInt_eq_toNat_of_lt (by show 2 * w.size.toNat < 2 ^ 64; omega)
  unfold FmView.count
  rw [hsize, Int.bmod_eq_of_le (by omega) (by omega)]

theorem readCell_contents {m : FsNode} {i : Nat} (hi : i < (contents m).length) :
    readCell m.data i = .ok (contents m)[i] := by
  have hlt : i < 4096 := by
    unfold contents at hi
    rw [List.length_take, List.length_ofFn] at hi
    omega
  have hget : (contents m)[i] = m.data ⟨i, hlt⟩ := by
    simp only [contents, List.getElem_take, List.getElem_ofFn]
  have hread : Foundation.Cells.read m.data i = some (m.data ⟨i, hlt⟩) :=
    dif_pos ⟨Int.natCast_nonneg i, Int.ofNat_lt.mpr hlt⟩
  rw [hget, readCell, hread]

/-- **The lines of the file are on the screen**, from the first one that is not scrolled past on, as far as there is
room. -/
theorem fmView_shows {t : Nodes} (wf : WellFormed t) {n : NodeId} (hn : (t n).used = true) (scrolly : Int)
    (v : Vga) :
    ∃ v', {FmView.ofNode t n with scrolly := scrolly}.draw v = .ok v' ∧ ∀ r j : Nat, r < 20 → j < 70 →
      v'.cell (4 + 1 + j) (ctop + 1 + r) =
        entry (((lines 10 (contents (t n))).getD (scrolly.toNat + r) []).getD j 32) (entryColor lightGrey black) := by
  have hsize := (wf.contained n hn).size
  have hlen : (contents (t n)).length = (t n).size.toNat := by
    unfold contents
    rw [List.length_take, List.length_ofFn]
    omega
  have hcells : ∀ i (h : i < (contents (t n)).length), readCell (t n).data (0 + i) = .ok (contents (t n))[i] := by
    intro i hi
    rw [Int.zero_add]
    exact readCell_contents hi
  obtain ⟨k, hk, hskip, hdrop⟩ := fmSkip_lines scrolly (contents (t n)) 0 0 hcells
  have hrest : ((contents (t n)).drop k).length = (contents (t n)).length - k := List.length_drop
  have hcells' : ∀ i (h : i < ((contents (t n)).drop k).length),
      readCell (t n).data ((k : Int) + i) = .ok ((contents (t n)).drop k)[i] := by
    intro i hi
    rw [List.getElem_drop, ← hcells (k + i) (by omega), Int.natCast_add, Int.zero_add]
  obtain ⟨v', hok, hshown⟩ := fmText_shown ((contents (t n)).drop k) k 0 0
    ((titbox 4 ctop (Vga.width - 8) (cbot - ctop + 1) (FmView.ofNode t n).name lightGrey black v).fillRect (4 + 1)
      (ctop + 1) (Vga.width - 8 - 2) (cbot - ctop + 1 - 2) 32 lightGrey black)
    hcells' (by omega) (by omega)
  have hcount : FmView.count {FmView.ofNode t n with scrolly := scrolly} = (contents (t n)).length := by
    rw [hlen]
    exact FmView.count_eq (w := {FmView.ofNode t n with scrolly := scrolly}) (Nat.le_of_lt hsize)
  refine ⟨v', ?_, fun r j hr hj => ?_⟩
  · have hleft : ((contents (t n)).length - (0 + k : Int)).toNat = ((contents (t n)).drop k).length := by omega
    unfold FmView.draw
    dsimp only [FmView.ofNode] at hcount ⊢
    rw [hcount, Int.toNat_natCast, hskip, Foundation.ok_bind, hleft, Int.zero_add]
    exact hok
  · have hscreen : OnScreen (4 + 1 + (j : Int)) (ctop + 1 + r) := by
      unfold OnScreen ctop Vga.width Vga.height
      omega
    have hinside : ((4 + 1 : Int) ≤ 4 + 1 + j ∧ (4 + 1 : Int) + j < 4 + 1 + (Vga.width - 8 - 2)) ∧
        ctop + 1 ≤ ctop + 1 + r ∧ ctop + 1 + (r : Int) < ctop + 1 + (cbot - ctop + 1 - 2) := by
      unfold ctop cbot Vga.width
      omega
    rw [hshown r j hr hj, fillRect_cell _ hscreen _ _ (by decide) (by decide), if_pos hinside, glyph_from, hdrop,
      Foundation.getD_lines_drop, Int.sub_zero]
    generalize (lines 10 (contents (t n))).getD (scrolly.toNat + r) [] = row
    rw [List.getD_eq_getElem?_getD]
    cases row[j]? <;> rfl

/-! ### A file too deep -/

/-- `deepDirs` with a file in the innermost directory. -/
def deepDirsFile : Nodes :=
  Function.update deepDirs 5
    (fileNode 0 fsDefaultFileMode 4 ⟨lit "f", by decide, by decide⟩ {FsNode.zero with used := true})

/-- The same with something in it. -/
def deepFile : Nodes := Function.update deepDirsFile 5 (fillNode (deepDirsFile 5) (lit "hello"))

theorem deepDirs_room : (deepDirs 5).used = false ∧ findChild deepDirs 4 (lit "f") = none := by decide +kernel

theorem deepFile_node : WellFormed deepFile ∧
    (∀ i, (deepFile i).used = true → cstr (deepFile i).name ≠ lit "." ∧ cstr (deepFile i).name ≠ lit "..") ∧
    (deepFile 5).used = true ∧ (deepFile 5).isDir = false := by
  obtain ⟨hfree, hnone⟩ := deepDirs_room
  obtain ⟨⟨hused, hdir⟩, hnames, -⟩ := deepDirs_nodes
  have hcr : Created deepDirs deepDirsFile 5 4 ⟨lit "f", by decide, by decide⟩ false 0 fsDefaultFileMode :=
    made_created (fileNode_makes 0 fsDefaultFileMode) (by decide) hfree 4 _
  have wf : WellFormed deepDirsFile := hcr.wellFormed deepDirs_wellFormed hused hdir hnone
  have hu : ∀ i, (deepFile i).used = (deepDirsFile i).used :=
    update_field (m := fillNode (deepDirsFile 5) (lit "hello")) FsNode.used rfl
  have hd : ∀ i, (deepFile i).isDir = (deepDirsFile i).isDir :=
    update_field (m := fillNode (deepDirsFile 5) (lit "hello")) FsNode.isDir rfl
  have hn : ∀ i, (deepFile i).name = (deepDirsFile i).name :=
    update_field (m := fillNode (deepDirsFile 5) (lit "hello")) FsNode.name rfl
  have hmode : (deepDirsFile 5).mode ≤ 0o777 := (wf.contained 5 hcr.used).mode
  refine ⟨wf.update 5 hcr.used _ hcr.used rfl rfl rfl (fillNode_contained _ _ hmode), fun i hi => ?_, ?_, ?_⟩
  · rw [hu] at hi
    rw [hn]
    exact hcr.no_dots (by decide) hnames i hi
  · rw [hu]
    exact hcr.used
  · rw [hd]
    exact hcr.dir

/-- In an array of zeros the path ends behind the directory of the file. -/
theorem deepFile_view : ∃ w, fmViewFile deepFile 5 (fun _ => 0) = .ok w ∧ w.data.isNone = true :=
  Foundation.exists_of_check (by decide +kernel)

theorem deepFile_not_shown : ¬ ∀ (t : Nodes) (n : NodeId), WellFormed t →
    (∀ i, (t i).used = true → cstr (t i).name ≠ lit "." ∧ cstr (t i).name ≠ lit "..") →
    (t n).used = true → (t n).isDir = false → ShowsFile t n := by
  intro h
  obtain ⟨wf, hdots, hused, hfile⟩ := deepFile_node
  obtain ⟨w, hview, hnone⟩ := deepFile_view
  have hshown : fmViewFile deepFile 5 (fun _ => 0) = .ok (.ofNode deepFile 5) :=
    h deepFile 5 wf hdots hused hfile _
  obtain rfl := Except.ok.inj (hview.symm.trans hshown)
  cases hnone

end FurOS.Desktop
