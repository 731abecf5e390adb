import FurOS.Desktop.Fileman
import FurOS.Foundation.Run
import FurOS.Fs.Printing

/-! What the file manager highlights, and what Enter opens.

The list of a directory is read when it is entered, and the selection and the first visible row are moved
together: at every key the selected entry is visible, is the one that is highlighted, and is the one
that Enter opens. -/
namespace FurOS.Desktop
open Foundation (trace Admitted trace_invariant Cells.Holds Cells.read)
open Installer (Key keyUp keyDown)
open Vga (OnScreen entry entryColor color black blue lightGrey darkGrey lightCyan white)

/-- The colors of the selected entry. -/
def highlight : UInt8 := entryColor white blue

/-- The variables show a directory: its nodes are listed, each once. -/
structure FmVars.Lists (t : Nodes) (m : FmVars) : Prop where
  directory : UsedDir t m.cwd
  count : 0 ≤ m.nent ∧ m.nent ≤ 128
  entries : ∀ node : Int, (∃ i, (0 ≤ i ∧ i < m.nent) ∧ Cells.read m.entries i = some node) ↔
    ∃ n : NodeId, node = n.val ∧ (t n).used = true ∧ (t n).parent.toInt = m.cwd ∧ node ≠ m.cwd
  once : ∀ i j node, 0 ≤ i → i < m.nent → 0 ≤ j → j < m.nent → Cells.read m.entries i = some node →
    Cells.read m.entries j = some node → i = j

/-- A node is opened: the list is that of the directory, or the file is shown over the list as it is. -/
structure FmVars.Opens (t : Nodes) (m : FmVars) (n : NodeId) (bxBuf : Fin 80 → UInt8) (s : Except FmFault Fileman) :
    Prop where
  directory : fsIsDir t n.val = true → ∃ m', s = .ok (.browsing m') ∧ m'.cwd = n.val ∧ m'.Lists t
  file : fsIsDir t n.val = false → s = (fmViewFile t n.val bxBuf).map (.viewing m)

/-- Of the visible rows one is highlighted, and it shows the name of the node. -/
structure FmVars.Highlights (t : Nodes) (m : FmVars) (n : NodeId) (v : Vga) : Prop where
  visible : 0 ≤ m.sel - m.scroll ∧ m.sel - m.scroll < fmRows
  only : ∀ x y, OnScreen x y → ctop + 2 ≤ y → y < ctop + 2 + fmRows →
    (color (v.cell x y) = highlight ↔ y = ctop + 2 + (m.sel - m.scroll))
  name : ∀ j (h : j < (cstr (t n).name).length),
    v.cell (6 + j) (ctop + 2 + (m.sel - m.scroll)) = entry (cstr (t n).name)[j] highlight

/-! ### One directory -/

/-- The nodes of a directory. -/
def childrenOf (t : Nodes) (dir : Int) : List NodeId :=
  (List.finRange 128).filter fun i =>
    (t i).used && decide ((t i).parent.toInt = dir) && decide ((i.val : Int) ≠ dir)

theorem mem_childrenOf {t : Nodes} {dir : Int} {n : NodeId} :
    n ∈ childrenOf t dir ↔ (t n).used = true ∧ (t n).parent.toInt = dir ∧ (n.val : Int) ≠ dir := by
  simp [childrenOf, and_assoc]

theorem childrenOf_length (t : Nodes) (dir : Int) : (childrenOf t dir).length ≤ 128 := by
  have hle := List.length_filter_le (fun i : NodeId =>
    (t i).used && decide ((t i).parent.toInt = dir) && decide ((i.val : Int) ≠ dir)) (List.finRange 128)
  rwa [List.length_finRange] at hle

theorem childrenOf_nodup (t : Nodes) (dir : Int) : (childrenOf t dir).Nodup :=
    (List.nodup_finRange 128).filter _

theorem fsList_dir {t : Nodes} {dir : Int} (h : UsedDir t dir) :
    fsList t dir fmMax = some ((childrenOf t dir).length, childrenOf t dir) := by
  obtain ⟨c, rfl, hused, hdir⟩ := h
  have hall : (childrenOf t (c.val : Int)).take fmMax = childrenOf t c.val :=
    List.take_of_length_le (childrenOf_length t _)
  unfold fsList
  rw [usedNode_ofNat t c hused]
  dsimp only
  rw [hdir, if_neg (by decide)]
  exact congrArg some (Prod.ext rfl hall)

/-- A list stored from the start of the array on. -/
theorem holds_listed {l : List NodeId} (hl : l.length ≤ 128) (a : Fin 128 → Int) :
    Cells.Holds (fun i => if h : i.val < l.length then (l[i.val].val : Int) else a i)
      (l.map fun i => (i.val : Int)) := by
  refine ⟨by rwa [List.length_map], fun i hi => ?_⟩
  rw [List.length_map] at hi
  rw [Cells.read, dif_pos (by omega), List.getElem?_map, List.getElem?_eq_getElem hi]
  dsimp only
  rw [dif_pos (by omega)]
  rfl

/-- What every key leaves. -/
structure FmInv (t : Nodes) (m : FmVars) : Prop where
  directory : UsedDir t m.cwd
  nent : m.nent = (childrenOf t m.cwd).length
  holds : Cells.Holds m.entries ((childrenOf t m.cwd).map fun i => (i.val : Int))
  scroll : 0 ≤ m.scroll ∧ m.scroll ≤ m.sel ∧ m.sel < m.scroll + fmRows
  sel : m.sel < m.nent ∨ m.nent = 0 ∧ m.sel = 0

namespace FmInv
variable {t : Nodes} {m : FmVars}

theorem load {dir : Int} (h : UsedDir t dir) (m : FmVars) : FmInv t (fmLoadDir t {m with cwd := dir}) := by
  have hlen := childrenOf_length t dir
  have hrows : (0 : Int) < 0 + fmRows := by decide
  have hsel : (0 : Int) < ((childrenOf t dir).length : Int) ∨ ((childrenOf t dir).length : Int) = 0 ∧
      (0 : Int) = 0 := by omega
  unfold fmLoadDir
  dsimp only
  rw [fsList_dir h]
  exact ⟨h, rfl, holds_listed hlen m.entries, ⟨le_refl 0, le_refl 0, hrows⟩, hsel⟩

theorem entry_of_lt (h : FmInv t m) {i : Int} (h0 : 0 ≤ i) (hi : i < m.nent) :
    ∃ n ∈ childrenOf t m.cwd, Cells.read m.entries i = some (n.val : Int) := by
  have hnent := h.nent
  have hlt : i.toNat < (childrenOf t m.cwd).length := by omega
  have hcell := h.holds.read i.toNat (by rwa [List.length_map])
  rw [List.getElem?_map, List.getElem?_eq_getElem hlt, Int.toNat_of_nonneg h0] at hcell
  exact ⟨_, List.getElem_mem hlt, hcell⟩

theorem lists (h : FmInv t m) : m.Lists t := by
  have hnent := h.nent
  have hlen := childrenOf_length t m.cwd
  refine ⟨h.directory, by omega, fun node => ⟨fun hex => ?_, fun hex => ?_⟩,
    fun i j node hi0 hi hj0 hj hri hrj => ?_⟩
  · obtain ⟨i, ⟨h0, hi⟩, hread⟩ := hex
    obtain ⟨n, hmem, hn⟩ := h.entry_of_lt h0 hi
    obtain rfl := Option.some.inj (hread.symm.trans hn)
    obtain ⟨hused, hparent, hne⟩ := mem_childrenOf.mp hmem
    exact ⟨n, rfl, hused, hparent, hne⟩
  · obtain ⟨n, rfl, hused, hparent, hne⟩ := hex
    obtain ⟨i, hi, hget⟩ := List.getElem_of_mem (mem_childrenOf.mpr ⟨hused, hparent, hne⟩)
    have hcell := h.holds.read i (by rwa [List.length_map])
    rw [List.getElem?_map, List.getElem?_eq_getElem hi, hget] at hcell
    exact ⟨i, by omega, hcell⟩
  · have hlt : i.toNat < (childrenOf t m.cwd).length := by omega
    have hlt' : j.toNat < (childrenOf t m.cwd).length := by omega
    have hcell := h.holds.read i.toNat (by rwa [List.length_map])
    have hcell' := h.holds.read j.toNat (by rwa [List.length_map])
    rw [List.getElem?_map, List.getElem?_eq_getElem hlt, Int.toNat_of_nonneg hi0, hri] at hcell
    rw [List.getElem?_map, List.getElem?_eq_getElem hlt', Int.toNat_of_nonneg hj0, hrj] at hcell'
    have hval := Option.some.inj (hcell.symm.trans hcell')
    have hnode : (childrenOf t m.cwd)[i.toNat] = (childrenOf t m.cwd)[j.toNat] := Fin.ext (Int.ofNat.inj hval)
    have hidx := (childrenOf_nodup t m.cwd).getElem_inj_iff.mp hnode
    omega

/-! ### Keys -/

theorem up (h : FmInv t m) :
    FmInv t (if m.sel > 0 then
      {m with sel := m.sel - 1, scroll := if m.sel - 1 < m.scroll then m.sel - 1 else m.scroll} else m) := by
  obtain ⟨hdir, hnent, hholds, hscroll, hsel⟩ := h
  split
  · refine ⟨hdir, hnent, hholds, ?_, ?_⟩
    · dsimp only
      split <;> omega
    · dsimp only
      omega
  · exact ⟨hdir, hnent, hholds, hscroll, hsel⟩

theorem down (h : FmInv t m) : FmInv t (if m.sel < m.nent - 1 then
      {m with
        sel := m.sel + 1
        scroll := if m.sel + 1 ≥ m.scroll + fmRows then m.sel + 1 - fmRows + 1 else m.scroll} else m) := by
  obtain ⟨hdir, hnent, hholds, hscroll, hsel⟩ := h
  unfold fmRows at *
  split
  · refine ⟨hdir, hnent, hholds, ?_, ?_⟩
    · unfold fmRows
      dsimp only
      split <;> omega
    · dsimp only
      omega
  · exact ⟨hdir, hnent, hholds, hscroll, hsel⟩

theorem back (wf : WellFormed t) (h : FmInv t m) :
    FmInv t (if fsGetParent t m.cwd ≥ 0 then fmLoadDir t {m with cwd := fsGetParent t m.cwd} else m) := by
  split
  · apply load
    obtain ⟨c, hc, hused, -⟩ := h.directory
    obtain ⟨p, hp, hpused, hpdir⟩ := wf.parent c hused
    refine ⟨p, ?_, hpused, hpdir⟩
    rw [hc, fsGetParent, usedNode_ofNat t c hused]
    exact hp
  · exact h

end FmInv

/-! ### The screen -/

/-- A line is as wide as the screen, and the name stands in its seventh column and on. -/
theorem fmLine_chars (isdir : Bool) {name : List UInt8} (h0 : 0 ∉ name) (hlen : name.length ≤ 31) :
    (CStr.ofChars (fmLine isdir name)).chars.length = 80 ∧
    ∀ j (h : j < name.length), (CStr.ofChars (fmLine isdir name)).chars.getD (6 + j) 0 = name[j] := by
  have htag : ∀ isdir : Bool, (if isdir then lit "  [D] " else lit "  [F] ").length = 6 ∧
      0 ∉ (if isdir then lit "  [D] " else lit "  [F] ") := by decide
  obtain ⟨hsix, htag0⟩ := htag isdir
  obtain ⟨shown, hshown, hpre, hle, hz⟩ : ∃ shown : List UInt8, fmLine isdir name =
      (if isdir then lit "  [D] " else lit "  [F] ") ++ shown ++ List.replicate (74 - shown.length) 32 ∧
      name <+: shown ∧ shown.length ≤ 32 ∧ 0 ∉ shown := by
    refine ⟨_, rfl, ?_⟩
    rw [List.take_of_length_le (by omega : name.length ≤ 70)]
    split
    · refine ⟨List.prefix_append .., ?_, ?_⟩
      · rw [List.length_append, List.length_singleton]
        omega
      · intro hmem
        rcases List.mem_append.mp hmem with hmem | hmem
        · exact h0 hmem
        · exact absurd (List.mem_singleton.mp hmem) (by decide)
    · exact ⟨List.prefix_rfl, by omega, h0⟩
  have hchars : (CStr.ofChars (fmLine isdir name)).chars = fmLine isdir name := by
    refine List.takeWhile_eq_self_iff.mpr fun c hc => decide_eq_true fun hzero => ?_
    rw [hshown, hzero] at hc
    rcases List.mem_append.mp hc with hc | hc
    · rcases List.mem_append.mp hc with hc | hc
      · exact htag0 hc
      · exact hz hc
    · exact absurd (List.eq_of_mem_replicate hc) (by decide)
  have hnlen := hpre.length_le
  rw [hchars, hshown]
  refine ⟨?_, fun j hj => ?_⟩
  · rw [List.length_append, List.length_append, List.length_replicate, hsix]
    omega
  · rw [List.append_assoc, List.getD_append_right _ _ _ _ (by omega), hsix, Nat.add_sub_cancel_left,
      List.getD_append _ _ _ _ (by omega), List.getD_eq_getElem _ _ (by omega), hpre.getElem hj]

/-- The colors of a row. -/
def fmColor (t : Nodes) (m : FmVars) (e : Int) (n : NodeId) : UInt8 :=
  if e = m.sel then highlight else entryColor (if (t n).isDir then lightCyan else lightGrey) black

theorem fmColor_eq_highlight {t : Nodes} {m : FmVars} {e : Int} {n : NodeId} :
    fmColor t m e n = highlight ↔ e = m.sel := by
  have hother : ∀ isdir : Bool, entryColor (if isdir then lightCyan else lightGrey) black ≠ highlight := by
    decide
  unfold fmColor
  split
  · next h => exact ⟨fun _ => h, fun _ => rfl⟩
  · next h => exact ⟨fun he => absurd he (hother _), fun he => absurd he h⟩

/-- Row `r` of the list has the colors and the name of the node. -/
structure FmRowShows (t : Nodes) (m : FmVars) (r : Int) (n : NodeId) (v : Vga) : Prop where
  color : ∀ x, OnScreen x (ctop + 2 + r) → Vga.color (v.cell x (ctop + 2 + r)) = fmColor t m (m.scroll + r) n
  name : ∀ j (h : j < (cstr (t n).name).length), OnScreen (6 + j) (ctop + 2 + r) →
    v.cell (6 + j) (ctop + 2 + r) = entry (cstr (t n).name)[j] (fmColor t m (m.scroll + r) n)

section Drawing
variable {t : Nodes} {m : FmVars}

/-- The screen after a row. -/
def fmRowDrawn (t : Nodes) (m : FmVars) (i : Int) (n : NodeId) (v : Vga) : Vga :=
  Vga.writeCharsAt (ctop + 2 + i) (fmColor t m (m.scroll + i) n) 0
    (CStr.ofChars (fmLine (t n).isDir (cstr (t n).name))).chars v

theorem fmRow_eq (wf : WellFormed t) {n : NodeId} (hused : (t n).used = true) {i : Int}
    (hread : Cells.read m.entries (m.scroll + i) = some (n.val : Int)) (v : Vga) :
    fmRow t m i v = .ok (fmRowDrawn t m i n v) := by
  have hlen := wf.name_le n hused
  have hcell : readCell m.entries (m.scroll + i) = .ok (n.val : Int) := by
    unfold readCell
    rw [hread]
  have hisdir : fsIsDir t (n.val : Int) = (t n).isDir := by
    unfold fsIsDir
    rw [usedNode_ofNat t n hused]
  have hcolor : entryColor
      (if m.scroll + i = m.sel then white else if (t n).isDir then lightCyan else lightGrey)
      (if m.scroll + i = m.sel then blue else black) = fmColor t m (m.scroll + i) n := by
    unfold fmColor
    split <;> rfl
  unfold fmRow fmRowDrawn
  rw [hcell, Foundation.ok_bind, fmName_eq wf hused, hisdir, Foundation.ok_bind, ← hcolor]
  rfl

theorem fmRowDrawn_other {i : Int} (n : NodeId) (v : Vga) {x y : Int} (hxy : OnScreen x y)
    (hy : y ≠ ctop + 2 + i) :
    (fmRowDrawn t m i n v).cell x y = v.cell x y := by
  unfold fmRowDrawn
  rw [Vga.writeCharsAt_cell v hxy, if_neg (by omega)]

theorem fmRowDrawn_shows (wf : WellFormed t) {n : NodeId} (hused : (t n).used = true) (i : Int) (v : Vga) :
    FmRowShows t m i n (fmRowDrawn t m i n v) := by
  have hlen := wf.name_le n hused
  obtain ⟨hwidth, hname⟩ := fmLine_chars (t n).isDir (cstr_noNul (t n).name) hlen
  refine ⟨fun x hx => ?_, fun j hj hx => ?_⟩
  · obtain ⟨hlo, hhi⟩ := hx.1
    unfold fmRowDrawn
    unfold Vga.width at hhi
    rw [Vga.writeCharsAt_cell v hx, if_pos (by omega), Vga.color_entry]
  · have hcol : ((6 : Int) + j - 0).toNat = 6 + j := by omega
    unfold fmRowDrawn
    rw [Vga.writeCharsAt_cell v hx, if_pos (by omega), hcol, hname j hj]

theorem FmRowShows.congr {r : Int} {n : NodeId} {v v' : Vga} (h : FmRowShows t m r n v)
    (hsame : ∀ x, OnScreen x (ctop + 2 + r) → v'.cell x (ctop + 2 + r) = v.cell x (ctop + 2 + r)) :
    FmRowShows t m r n v' := by
  refine ⟨fun x hx => ?_, fun j hj hx => ?_⟩
  · rw [hsame x hx]
    exact h.color x hx
  · rw [hsame _ hx]
    exact h.name j hj hx

/-- The rows of the list, as far as there are entries for them. -/
theorem fmRowsFrom_drawn (wf : WellFormed t) (h : FmInv t m) (rounds : Nat) {i : Int} (h0 : 0 ≤ i) (v : Vga) :
    ∃ v', fmRowsFrom t m rounds i v = .ok v' ∧
      (∀ x y, OnScreen x y → y < ctop + 2 + i ∨ ctop + 2 + i + rounds ≤ y ∨
        m.nent ≤ m.scroll + (y - (ctop + 2)) →
        v'.cell x y = v.cell x y) ∧
      ∀ (r : Int) (n : NodeId), i ≤ r → r < i + rounds →
        Cells.read m.entries (m.scroll + r) = some (n.val : Int) → m.scroll + r < m.nent →
        FmRowShows t m r n v' := by
  induction rounds generalizing i v with
  | zero => exact ⟨v, rfl, fun _ _ _ _ => rfl, fun r n hlo hhi => absurd hhi (by omega)⟩
  | succ rounds ih =>
    rw [fmRowsFrom]
    by_cases hend : m.scroll + i ≥ m.nent
    · rw [if_pos hend]
      exact ⟨v, rfl, fun _ _ _ _ => rfl, fun r n hlo _ _ hr => absurd hr (by omega)⟩
    · have hscroll := h.scroll
      obtain ⟨n, hmem, hread⟩ := h.entry_of_lt (i := m.scroll + i) (by omega) (by omega)
      obtain ⟨hused, -⟩ := mem_childrenOf.mp hmem
      obtain ⟨v', hrest, hsame, hshows⟩ := ih (i := i + 1) (by omega) (fmRowDrawn t m i n v)
      rw [if_neg hend, fmRow_eq wf hused hread, Foundation.ok_bind, hrest]
      refine ⟨v', rfl, fun x y hxy hy => ?_, fun r n' hlo hhi hread' hr => ?_⟩
      · rw [hsame x y hxy (by omega), fmRowDrawn_other n v hxy (by omega)]
      · by_cases hself : r = i
        · subst hself
          obtain rfl : n = n' := Fin.ext (Int.ofNat.inj (Option.some.inj (hread.symm.trans hread')))
          exact (fmRowDrawn_shows wf hused r v).congr fun x hx => hsame x _ hx (by omega)
        · exact hshows r n' (by omega) (by omega) hread' hr

/-- Below the list. -/
theorem fmStatus_cell {x y : Int} (h : OnScreen x y) (hy : y < ctop + 2 + fmRows) (nent : Int)
    (stbuf : Fin 16 → UInt8) (v : Vga) :
    (fmStatus nent stbuf v).cell x y = v.cell x y := by
  unfold fmStatus
  dsimp only
  rw [Vga.writeStrAt_cell _ h, if_neg (by omega), Vga.writeStrAt_cell _ h, if_neg (by omega),
    Vga.fillRect_cell _ h _ _ (by decide) (by decide), if_neg (by omega), hline_cell h _ _ (by decide),
      if_neg (by omega)]

theorem setStatusbar_cell {x y : Int} (h : OnScreen x y) (hy : y < statrow) (msg : CStr) (v : Vga) :
    (setStatusbar msg v).cell x y = v.cell x y := by
  unfold setStatusbar
  dsimp only
  rw [Vga.writeStrAt_cell _ h, if_neg (by omega), Vga.fillRect_cell _ h _ _ (by decide) (by decide),
    if_neg (by omega)]

/-- **The list as it is drawn**: the rows of the entries, and blank ones below. -/
theorem fmDraw_drawn (wf : WellFormed t) (h : FmInv t m) (pathbuf : Fin 80 → UInt8)
    (stbuf : Fin 16 → UInt8) (v : Vga) :
    ∃ v', (Fileman.browsing m).draw t pathbuf stbuf v = .ok v' ∧
      (∀ x y, OnScreen x y → ctop + 2 ≤ y → y < ctop + 2 + fmRows → m.nent ≤ m.scroll + (y - (ctop + 2)) →
        v'.cell x y = entry 32 (entryColor lightGrey black)) ∧
      ∀ (r : Int) (n : NodeId), 0 ≤ r → r < fmRows →
        Cells.read m.entries (m.scroll + r) = some (n.val : Int) → m.scroll + r < m.nent →
        FmRowShows t m r n v' := by
  obtain ⟨c, hc, hused, -⟩ := h.directory
  obtain ⟨path, hpath⟩ := wf.absolutePath hused
  obtain ⟨⟨r, out⟩, hout, -⟩ := fsMakePath_stored wf hused hpath 80
  obtain ⟨v', hrows, hsame, hshows⟩ := fmRowsFrom_drawn wf h fmRows (le_refl 0)
    ((fmHeader (.ofChars (List.ofFn (storedInto pathbuf out))) v).fillRect
      0 (ctop + 2) Vga.width fmRows 32 lightGrey black)
  have hstat : ctop + 2 + (fmRows : Int) ≤ statrow := by decide
  have hbelow {x y : Int} (hxy : OnScreen x y) (hy : y < ctop + 2 + fmRows) :
      (setStatusbar (.ofLit " Dolphin — File Manager") (fmStatus m.nent stbuf v')).cell x y =
        v'.cell x y := by
    rw [setStatusbar_cell hxy (by omega), fmStatus_cell hxy hy]
  refine ⟨setStatusbar (.ofLit " Dolphin — File Manager") (fmStatus m.nent stbuf v'), ?_,
    fun x y hxy hlo hhi hend => ?_, fun r n hlo hhi hread hr => ?_⟩
  · have hfm : fmDraw t m pathbuf stbuf v = .ok (fmStatus m.nent stbuf v') := by
      unfold fmDraw
      rw [hc, hout]
      simp only [orFmFault, Foundation.ok_bind, hrows]
      rfl
    show (fmDraw t m pathbuf stbuf v >>= fun v =>
      pure (setStatusbar (.ofLit " Dolphin — File Manager") v)) = _
    rw [hfm]
    rfl
  · obtain ⟨hx0, hx⟩ := hxy.1
    rw [hbelow hxy hhi, hsame x y hxy (.inr (.inr hend)), Vga.fillRect_cell _ hxy _ _ (by decide) (by decide),
      if_pos (by omega)]
  · exact (hshows r n hlo (by omega) hread hr).congr fun x hx => hbelow hx (by omega)

/-- The selected entry is the one that is highlighted. -/
theorem fmDraw_highlights (wf : WellFormed t) (h : FmInv t m) {n : NodeId} (hpos : 0 < m.nent)
    (hread : Cells.read m.entries m.sel = some (n.val : Int)) (pathbuf : Fin 80 → UInt8)
    (stbuf : Fin 16 → UInt8) (v : Vga) :
    ∃ v', (Fileman.browsing m).draw t pathbuf stbuf v = .ok v' ∧ m.Highlights t n v' := by
  obtain ⟨v', hdraw, hblank, hshows⟩ := fmDraw_drawn wf h pathbuf stbuf v
  have hscroll := h.scroll
  have hsel := h.sel
  have hself : m.scroll + (m.sel - m.scroll) = m.sel := by omega
  have hrow := hshows (m.sel - m.scroll) n (by omega) (by omega) (by rwa [hself]) (by omega)
  have hcolor : fmColor t m (m.scroll + (m.sel - m.scroll)) n = highlight := fmColor_eq_highlight.mpr hself
  refine ⟨v', hdraw, by omega, fun x y hxy hlo hhi => ?_, fun j hj => ?_⟩
  · obtain ⟨r, rfl⟩ : ∃ r, y = ctop + 2 + r := ⟨y - (ctop + 2), by omega⟩
    by_cases hend : m.scroll + r < m.nent
    · obtain ⟨k, -, hk⟩ := h.entry_of_lt (i := m.scroll + r) (by omega) hend
      rw [(hshows r k (by omega) (by omega) hk hend).color x hxy, fmColor_eq_highlight]
      omega
    · have hgrey : entryColor lightGrey black ≠ highlight := by decide
      rw [hblank x _ hxy hlo hhi (by omega), Vga.color_entry]
      exact ⟨fun heq => absurd heq hgrey, fun heq => absurd heq (by omega)⟩
  · obtain ⟨k, hmem, hk⟩ := h.entry_of_lt (i := m.sel) (by omega) (by omega)
    obtain rfl : k = n := Fin.ext (Int.ofNat.inj (Option.some.inj (hk.symm.trans hread)))
    obtain ⟨hused, -⟩ := mem_childrenOf.mp hmem
    have hlen := wf.name_le k hused
    have hscreen : OnScreen (6 + j) (ctop + 2 + (m.sel - m.scroll)) := by
      unfold OnScreen ctop fmRows Vga.width Vga.height at *
      omega
    rw [hrow.name j hj hscreen, hcolor]

end Drawing

/-! ### Navigation -/

/-- The keys that go through the directories: up, down, Enter on a directory, and back. -/
def Navigates (t : Nodes) : Fileman → Key × (Fin 80 → UInt8) → Prop
  | .browsing m, (key, _) => key = keyUp ∨ key = keyDown ∨ key = 8 ∨ key = 127 ∨
      (key = 10 ∨ key = 13) ∧ ∀ node, 0 < m.nent → Cells.read m.entries m.sel = some node →
        fsIsDir t node = true
  | _, _ => False

theorem fmKey_enter (t : Nodes) (m : FmVars) {key : Key} (hkey : key = 10 ∨ key = 13)
    (bxBuf : Fin 80 → UInt8) :
    fmKey t m key bxBuf =
      if m.nent > 0 then readCell m.entries m.sel >>= fun node => fmOpen t m node bxBuf
        else .ok (.browsing m) := by
  have hother : key ≠ 0x1B ∧ key ≠ keyUp ∧ key ≠ keyDown := by
    rcases hkey with rfl | rfl <;> decide
  unfold fmKey
  rw [if_neg hother.1, if_neg hother.2.1, if_neg hother.2.2, if_pos hkey]

/-- What Enter does where there is something to open. -/
theorem fmKey_opens {t : Nodes} {m : FmVars} (hpos : 0 < m.nent) {node : Int}
    (hread : Cells.read m.entries m.sel = some node)
    {key : Key} (hkey : key = 10 ∨ key = 13) (bxBuf : Fin 80 → UInt8) :
    fmKey t m key bxBuf = fmOpen t m node bxBuf := by
  have hcell : readCell m.entries m.sel = .ok node := by
    unfold readCell
    rw [hread]
  rw [fmKey_enter t m hkey, if_pos hpos, hcell]
  rfl

theorem fmLoadDir_cwd (t : Nodes) (m : FmVars) : (fmLoadDir t m).cwd = m.cwd := by
  unfold fmLoadDir
  split <;> rfl

/-- A child that is a directory can be listed. -/
theorem usedDir_child {t : Nodes} {dir : Int} {n : NodeId} (hmem : n ∈ childrenOf t dir)
    (hdir : fsIsDir t n.val = true) : UsedDir t n.val := by
  obtain ⟨hused, -⟩ := mem_childrenOf.mp hmem
  refine ⟨n, rfl, hused, ?_⟩
  unfold fsIsDir at hdir
  rwa [usedNode_ofNat t n hused] at hdir

theorem fmOpen_opens {t : Nodes} {m : FmVars} {n : NodeId} (hmem : n ∈ childrenOf t m.cwd) (bxBuf : Fin 80 → UInt8) :
    m.Opens t n bxBuf (fmOpen t m n.val bxBuf) := by
  refine ⟨fun hdir => ?_, fun hfile => ?_⟩
  · rw [fmOpen, if_pos hdir]
    exact ⟨_, rfl, fmLoadDir_cwd _ _, (FmInv.load (usedDir_child hmem hdir) m).lists⟩
  · rw [fmOpen, if_neg (by simp [hfile])]
    cases fmViewFile t n.val bxBuf <;> rfl

/-- One key. -/
theorem fmKey_inv {t : Nodes} (wf : WellFormed t) {m : FmVars} (h : FmInv t m) {op : Key × (Fin 80 → UInt8)}
    (hop : Navigates t (.browsing m) op) : ∃ m', Fileman.step t op (.browsing m) = .ok (.browsing m') ∧
      FmInv t m' := by
  obtain ⟨key, bxBuf⟩ := op
  show ∃ m', fmKey t m key bxBuf = .ok (.browsing m') ∧ FmInv t m'
  rcases hop with rfl | rfl | rfl | rfl | ⟨hkey, hdir⟩
  · exact ⟨_, rfl, h.up⟩
  · exact ⟨_, rfl, h.down⟩
  · exact ⟨_, rfl, h.back wf⟩
  · exact ⟨_, rfl, h.back wf⟩
  · by_cases hpos : 0 < m.nent
    · have hscroll := h.scroll
      have hsel := h.sel
      obtain ⟨n, hmem, hread⟩ := h.entry_of_lt (i := m.sel) (by omega) (by omega)
      have hisdir := hdir n.val hpos hread
      rw [fmKey_opens hpos hread hkey, fmOpen, if_pos hisdir]
      exact ⟨_, rfl, .load (usedDir_child hmem hisdir) m⟩
    · rw [fmKey_enter t m hkey, if_neg hpos]
      exact ⟨m, rfl, h⟩

/-- **The file manager acts on the highlighted entry.** While directories are gone through, the list is that of the
directory, the selected entry is visible and the only one highlighted, and it is the one that Enter opens. -/
theorem fileman_selection (t : Nodes) (wf : WellFormed t) (m₀ : FmVars) (ops : List (Key × (Fin 80 → UInt8)))
    (hops : Admitted (Fileman.step t) (Navigates t) (.opened t m₀) ops) :
    ∃ ss, trace (Fileman.step t) (.opened t m₀) ops = .ok ss ∧ ss.length = ops.length ∧
      ∀ s ∈ Fileman.opened t m₀ :: ss, ∃ m, s = .browsing m ∧ m.Lists t ∧
        (0 < m.nent → (0 ≤ m.sel ∧ m.sel < m.nent) ∧ (m.scroll ≤ m.sel ∧ m.sel < m.scroll + fmRows) ∧
          ∃ n : NodeId, Cells.read m.entries m.sel = some (n.val : Int) ∧
            (∀ pathbuf stbuf v, ∃ v', s.draw t pathbuf stbuf v = .ok v' ∧ m.Highlights t n v') ∧
            ∀ key bxBuf, key = 10 ∨ key = 13 → m.Opens t n bxBuf (Fileman.step t (key, bxBuf) s)) := by
  have hstart : ∃ m, Fileman.opened t m₀ = .browsing m ∧ FmInv t m := ⟨_, rfl, .load wf.usedDir_root m₀⟩
  obtain ⟨ss, htrace, hlen, hall⟩ := trace_invariant (P := fun s => ∃ m, s = .browsing m ∧ FmInv t m)
    (fun s op hs hop => by
      obtain ⟨m, rfl, hm⟩ := hs
      obtain ⟨m', hstep, hm'⟩ := fmKey_inv wf hm hop
      exact ⟨_, hstep, m', rfl, hm'⟩) hstart hops
  refine ⟨ss, htrace, hlen, fun s hs => ?_⟩
  have hinv : ∃ m, s = .browsing m ∧ FmInv t m := by
    rcases List.mem_cons.mp hs with rfl | hs
    · exact hstart
    · exact hall s hs
  obtain ⟨m, rfl, hm⟩ := hinv
  refine ⟨m, rfl, hm.lists, fun hpos => ?_⟩
  have hscroll := hm.scroll
  have hsel := hm.sel
  obtain ⟨n, hmem, hread⟩ := hm.entry_of_lt (i := m.sel) (by omega) (by omega)
  refine ⟨by omega, hscroll.2, n, hread, fun pathbuf stbuf v =>
    fmDraw_highlights wf hm hpos hread pathbuf stbuf v, fun key bxBuf hkey => ?_⟩
  show m.Opens t n bxBuf (fmKey t m key bxBuf)
  rw [fmKey_opens hpos hread hkey]
  exact fmOpen_opens hmem bxBuf

/-- The variables as they are at first. -/
def freshFm : FmVars := ⟨fun _ => 0, 0, 0, 0, 0⟩

theorem oneDir_listed : Cells.read (fmLoadDir oneDir freshFm).entries 0 = some 1 ∧ 0 < (fmLoadDir oneDir freshFm).nent ∧
    fsIsDir oneDir 1 = true := by
  decide +kernel

/-- Into a directory and back. -/
theorem oneDir_navigates : Admitted (Fileman.step oneDir) (Navigates oneDir) (.opened oneDir freshFm)
    [(10, fun _ => 0), (8, fun _ => 0)] := by
  have henter : Navigates oneDir (.opened oneDir freshFm) (10, fun _ => 0) := by
    refine .inr (.inr (.inr (.inr ⟨.inl rfl, fun node _ hnode => ?_⟩)))
    obtain rfl := Option.some.inj (oneDir_listed.1.symm.trans hnode)
    exact oneDir_listed.2.2
  refine ⟨henter, fun s hs => ?_⟩
  obtain ⟨m, hstep, -⟩ := fmKey_inv oneDir_wellFormed (.load oneDir_wellFormed.usedDir_root _) henter
  obtain rfl := Except.ok.inj (hstep.symm.trans hs)
  exact ⟨.inr (.inr (.inl rfl)), fun _ _ => trivial⟩

/-- Enter goes into the directory that is listed first. -/
theorem fileman_selection_oneDir : (∃ ss,
    trace (Fileman.step oneDir) (.opened oneDir freshFm) [(10, fun _ => 0), (8, fun _ => 0)] = .ok ss ∧
      ss.length = 2 ∧ ∀ s ∈ ss, ∃ m, s = .browsing m ∧ m.Lists oneDir) ∧
    ∃ m, Fileman.step oneDir (10, fun _ => 0) (.opened oneDir freshFm) = .ok (.browsing m) ∧ m.cwd = 1 ∧
      m.Lists oneDir := by
  obtain ⟨ss, htrace, hlen, hall⟩ := fileman_selection oneDir oneDir_wellFormed freshFm _ oneDir_navigates
  refine ⟨⟨ss, htrace, hlen, fun s hs => ?_⟩, ?_⟩
  · obtain ⟨m, hm, hlists, -⟩ := hall s (List.mem_cons_of_mem _ hs)
    exact ⟨m, hm, hlists⟩
  · obtain ⟨m, hm, -, hsel⟩ := hall _ List.mem_cons_self
    obtain rfl : fmLoadDir oneDir freshFm = m := Fileman.browsing.inj hm
    obtain ⟨-, -, n, hread, -, hopens⟩ := hsel oneDir_listed.2.1
    obtain rfl : n = 1 := Fin.ext (by
      have hnode := Option.some.inj (hread.symm.trans oneDir_listed.1)
      omega)
    exact (hopens 10 (fun _ => 0) (.inl rfl)).directory oneDir_listed.2.2

end FurOS.Desktop
