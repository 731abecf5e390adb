import FurOS.Desktop.Drawing
import FurOS.Foundation.Cells
import FurOS.Fs.WellFormed
import FurOS.Installer.Stages

/-! The file manager, Dolphin (`kernel/desktop.c`).

It lists a directory, of which 19 entries are visible, and goes to another or shows a file in a popup.
It never changes the table, so the list is read once for each directory; everything that is drawn is
drawn anew for each key. -/
namespace FurOS.Desktop
open Foundation (Cells.read)
open Installer (Key keyUp keyDown)
open Vga (black blue lightGrey darkGrey lightCyan white)

def fmRows : Nat := 19
def fmMax : Nat := 128

/-- What the file manager must not run into. -/
inductive FmFault where
  | fs (f : Fault)
  /-- `fm_entries[index]`, or `data[index]`, outside of the array. -/
  | index (i : Int)
  /-- The string of a null pointer. -/
  | null

/-- An access of the filesystem that went wrong. -/
def orFmFault {α : Type} : Except Fault α → Except FmFault α
  | .error f => .error (.fs f)
  | .ok a => .ok a

def readCell {β : Type} {n : Nat} (a : Fin n → β) (i : Int) : Except FmFault β :=
  match Cells.read a i with
  | none => .error (.index i)
  | some c => .ok c

/-- `fs_get_name`, as a string. -/
def fmName (t : Nodes) (node : Int) : Except FmFault CStr :=
  match fsGetName t node with
  | none => .error .null
  | some a => if (cstr a).length < 32 then .ok ⟨cstr a, cstr_noNul a⟩ else .error (.fs .unterminated)

theorem fmName_eq {t : Nodes} (wf : WellFormed t) {n : NodeId} (hn : (t n).used = true) :
    fmName t (n.val : Int) = .ok ⟨cstr (t n).name, cstr_noNul _⟩ := by
  have hlen := wf.name_le n hn
  unfold fmName fsGetName
  rw [usedNode_ofNat t n hn]
  exact if_pos (by omega)

/-- An array into which something has been stored from its start on. -/
def storedInto {n : Nat} (a : Fin n → UInt8) (out : Written n) : Fin n → UInt8 :=
  fun i => if h : i.val < out.chars.length then out.chars[i.val] else a i

/-! ### A directory -/

/-- The variables of the file manager. -/
structure FmVars where
  entries : Fin 128 → Int
  nent : Int
  cwd : Int
  sel : Int
  scroll : Int

def fmLoadDir (t : Nodes) (m : FmVars) : FmVars :=
  match fsList t m.cwd fmMax with
  | none => {m with nent := -1, sel := 0, scroll := 0}
  | some (count, out) =>
    {m with
      entries := fun i => if h : i.val < out.length then (out[i.val].val : Int) else m.entries i
      nent := count
      sel := 0
      scroll := 0}

/-- `lbuf`: the line of an entry. -/
def fmLine (isdir : Bool) (name : List UInt8) : List UInt8 :=
  let shown := name.take 70
  let shown := if isdir ∧ shown.length < 70 then shown ++ [slash] else shown
  (if isdir then lit "  [D] " else lit "  [F] ") ++ shown ++ List.replicate (74 - shown.length) 32

/-- A row of the list. -/
def fmRow (t : Nodes) (m : FmVars) (i : Int) (v : Vga) : Except FmFault Vga := do
  let node ← readCell m.entries (m.scroll + i)
  let isdir := fsIsDir t node
  let fg := if m.scroll + i = m.sel then white else if isdir then lightCyan else lightGrey
  let bg := if m.scroll + i = m.sel then blue else black
  let name ← fmName t node
  return v.writeStrAt 0 (ctop + 2 + i) (some (.ofChars (fmLine isdir name.chars))) fg bg

/-- The rows from `i` on, while there are entries for them. -/
def fmRowsFrom (t : Nodes) (m : FmVars) : (rounds : Nat) → (i : Int) → Vga → Except FmFault Vga
  | 0, _, v => .ok v
  | rounds + 1, i, v =>
    if m.scroll + i ≥ m.nent then .ok v
    else do
      let v ← fmRow t m i v
      fmRowsFrom t m rounds (i + 1) v

def fmHeader (path : CStr) (v : Vga) : Vga :=
  let v := v.fillRect 0 ctop Vga.width 1 32 white darkGrey
  let v := v.writeStrAt 1 ctop (some (.ofLit " Location: ")) white darkGrey
  let v := v.writeStrAt 12 ctop (some path) lightCyan darkGrey
  hline 0 (ctop + 1) Vga.width darkGrey black v

/-- Below the list. What `u2s` returns is dropped, and the array printed from its start. -/
def fmStatus (nent : Int) (stbuf : Fin 16 → UInt8) (v : Vga) : Vga :=
  let y := ctop + 2 + fmRows + 1
  let number := CStr.ofChars (List.ofFn (u2s (UInt32.ofInt nent) stbuf).2)
  let v := hline 0 (ctop + 2 + fmRows) Vga.width darkGrey black v
  let v := v.fillRect 0 y Vga.width 1 32 lightGrey darkGrey
  let v := v.writeStrAt 1 y (some number) lightCyan darkGrey
  v.writeStrAt (1 + number.chars.length) y
    (some (.ofChars (lit " items   " ++ 0x18 :: 0x19 :: lit ": Nav   Enter: Open   Bksp: Up   ESC: Close")))
    lightGrey darkGrey

/-- `fm_draw`, with what its arrays hold at first. -/
def fmDraw (t : Nodes) (m : FmVars) (pathbuf : Fin 80 → UInt8) (stbuf : Fin 16 → UInt8) (v : Vga) :
    Except FmFault Vga := do
  let (_, out) ← orFmFault (fsMakePath t m.cwd 80)
  -- Whatever there is after the 68 columns of the row is not printed.
  let v := fmHeader (.ofChars (List.ofFn (storedInto pathbuf out))) v
  let v := v.fillRect 0 (ctop + 2) Vga.width fmRows 32 lightGrey black
  let v ← fmRowsFrom t m fmRows 0 v
  return fmStatus m.nent stbuf v

/-! ### A file -/

/-- The variables of `fm_view_file`. -/
structure FmView where
  name : CStr
  data : Option (Fin 4096 → UInt8)
  size : UInt64
  scrolly : Int

/-- `fm_view_file` up to its loop, with what `bx_buf` holds at first. -/
def fmViewFile (t : Nodes) (node : Int) (bxBuf : Fin 80 → UInt8) : Except FmFault FmView := do
  let name ← fmName t node
  let (_, out) ← orFmFault (fsMakePath t node 80)
  let path ← orFmFault (readStr (storedInto bxBuf out))
  match ← orFmFault (fsReadFile t fsGetRoot (.ofChars path)) with
  | none => return ⟨name, none, 0, 0⟩
  | some (data, size) => return ⟨name, some data, size, 0⟩

/-- `(int)sz`. -/
def FmView.count (w : FmView) : Int := w.size.toInt64.toInt.bmod (2 ^ 32)

/-- Lines are skipped until `scrolly` of them are: the index of the first byte to show. -/
def fmSkip (data : Fin 4096 → UInt8) (scrolly : Int) : (rounds : Nat) → (ci ln : Int) → Except FmFault Int
  | 0, ci, _ => .ok ci
  | rounds + 1, ci, ln =>
    if ln < scrolly then do
      let ch ← readCell data ci
      fmSkip data scrolly rounds (ci + 1) (if ch = 10 then ln + 1 else ln)
    else .ok ci

/-- Bytes are shown until the popup, of 20 rows and 70 columns, is full. -/
def fmText (data : Fin 4096 → UInt8) : (rounds : Nat) → (ci row col : Int) → Vga → Except FmFault Vga
  | 0, _, _, _, v => .ok v
  | rounds + 1, ci, row, col, v =>
    if row < 20 then do
      let ch ← readCell data ci
      if ch = 10 then fmText data rounds (ci + 1) (row + 1) 0 v
      else if col < 70 then
        fmText data rounds (ci + 1) row (col + 1) (v.putAt (4 + 1 + col) (ctop + 1 + row) ch lightGrey black)
      else fmText data rounds (ci + 1) row col v
    else .ok v

/-- What the loop of `fm_view_file` draws. -/
def FmView.draw (w : FmView) (v : Vga) : Except FmFault Vga :=
  let v := titbox 4 ctop (Vga.width - 8) (cbot - ctop + 1) w.name lightGrey black v
  let v := v.fillRect (4 + 1) (ctop + 1) (Vga.width - 8 - 2) (cbot - ctop + 1 - 2) 32 lightGrey black
  match w.data with
  | none => .ok (v.writeStrAt (4 + 2) (ctop + 2) (some (.ofLit "(empty file)")) darkGrey black)
  | some data => do
    let ci ← fmSkip data w.scrolly w.count.toNat 0 0
    fmText data (w.count - ci).toNat ci 0 0 v

/-! ### The loop -/

/-- The file manager between two keys: showing a directory, showing a file over it, or closed. -/
inductive Fileman where
  | browsing (m : FmVars)
  | viewing (m : FmVars) (w : FmView)
  | closed

/-- A key that opens a node. -/
def fmOpen (t : Nodes) (m : FmVars) (node : Int) (bxBuf : Fin 80 → UInt8) : Except FmFault Fileman :=
  if fsIsDir t node then .ok (.browsing (fmLoadDir t {m with cwd := node}))
  else do
    let w ← fmViewFile t node bxBuf
    return .viewing m w

/-- One round of the loop of `run_fileman`. -/
def fmKey (t : Nodes) (m : FmVars) (key : Key) (bxBuf : Fin 80 → UInt8) : Except FmFault Fileman :=
  if key = 0x1B then .ok .closed
  else if key = keyUp then
    .ok (.browsing (
      if m.sel > 0 then
        {m with sel := m.sel - 1, scroll := if m.sel - 1 < m.scroll then m.sel - 1 else m.scroll}
      else m))
  else if key = keyDown then
    .ok (.browsing (
      if m.sel < m.nent - 1 then
        {m with
          sel := m.sel + 1
          scroll := if m.sel + 1 ≥ m.scroll + fmRows then m.sel + 1 - fmRows + 1 else m.scroll}
      else m))
  else if key = 10 ∨ key = 13 then
    if m.nent > 0 then do
      let node ← readCell m.entries m.sel
      fmOpen t m node bxBuf
    else .ok (.browsing m)
  else if key = 8 ∨ key = 127 then
    let parent := fsGetParent t m.cwd
    .ok (.browsing (if parent ≥ 0 then fmLoadDir t {m with cwd := parent} else m))
  else if (key = 0x76 ∨ key = 0x56) ∧ m.nent > 0 then do
    let node ← readCell m.entries m.sel
    if fsIsDir t node then return .browsing m
    else do
      let w ← fmViewFile t node bxBuf
      return .viewing m w
  else .ok (.browsing m)

/-- One round of the loop of `fm_view_file`. -/
def fmViewKey (m : FmVars) (w : FmView) (key : Key) : Fileman :=
  if key = 0x1B ∨ key = 0x71 ∨ key = 0x51 then .browsing m
  else if key = keyUp ∧ w.scrolly > 0 then .viewing m {w with scrolly := w.scrolly - 1}
  else if key = keyDown then .viewing m {w with scrolly := w.scrolly + 1}
  else .viewing m w

/-- A key, with what `bx_buf` holds if a file is opened. -/
def Fileman.step (t : Nodes) (op : Key × (Fin 80 → UInt8)) : Fileman → Except FmFault Fileman
  | .browsing m => fmKey t m op.1 op.2
  | .viewing m w => .ok (fmViewKey m w op.1)
  | .closed => .ok .closed

/-- `run_fileman` up to its loop. -/
def Fileman.opened (t : Nodes) (m : FmVars) : Fileman := .browsing (fmLoadDir t {m with cwd := fsGetRoot})

/-- What is on the screen when the next key is waited for. -/
def Fileman.draw (t : Nodes) (pathbuf : Fin 80 → UInt8) (stbuf : Fin 16 → UInt8) (v : Vga) :
    Fileman → Except FmFault Vga
  | .browsing m => do
    let v ← fmDraw t m pathbuf stbuf v
    return setStatusbar (.ofLit " Dolphin — File Manager") v
  | .viewing _ w => w.draw v
  | .closed => .ok v

end FurOS.Desktop
