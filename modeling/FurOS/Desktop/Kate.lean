import FurOS.Installer.Stages
import FurOS.Shell.System

/-! The editor of the desktop, Kate (`kernel/desktop.c`).

`launch` is the only caller of `run_kate` and gives it no file to open: the text starts empty and is
called `untitled.txt`. A key either edits the text, moves the cursor in it, saves it or closes the
editor. What is drawn, the first visible line with it, changes nothing else; it is in
`Desktop/Rendering.lean`. -/
namespace FurOS.Desktop
open Installer (Key keyUp keyDown)

def keyEsc : Key := 0x1B
def keyLeft : Key := 0x102
def keyRight : Key := 0x103
def keyF1 : Key := 0x201
def keyF2 : Key := 0x202
def keyF3 : Key := 0x203
def keyF4 : Key := 0x204

/-- `if (disk_available()) { (void)disk_save_fs(); }`. -/
def diskSync (s : System) : System :=
  if diskAvailable s.disk then {s with disk := (diskSaveFs s.nodes s.disk).2} else s

theorem nodes_diskSync (s : System) : (diskSync s).nodes = s.nodes := by
  unfold diskSync
  split <;> rfl

/-! ### Lines of a text -/

def kateLineof (text : List UInt8) (pos : Nat) : Nat := (text.take pos).count 10

def kateColof (text : List UInt8) (pos : Nat) : Nat :=
  (text.take pos).foldl (fun c ch => if ch = 10 then 0 else c + 1) 0

/-- The loop of `kate_lnstart` at index `i`, after `cur` line ends. -/
def lnstartFrom (ln i cur : Nat) : List UInt8 → Nat
  | [] => i
  | ch :: rest =>
    if ch = 10 then if cur + 1 = ln then i + 1 else lnstartFrom ln (i + 1) (cur + 1) rest
    else lnstartFrom ln (i + 1) cur rest

def kateLnstart (text : List UInt8) (ln : Nat) : Nat := if ln = 0 then 0 else lnstartFrom ln 0 0 text

/-- The loop of `kate_lnend` at index `i`. -/
def lnendFrom (i : Nat) : List UInt8 → Nat
  | [] => i
  | ch :: rest => if ch = 10 then i else lnendFrom (i + 1) rest

def kateLnend (text : List UInt8) (ln : Nat) : Nat :=
  lnendFrom (kateLnstart text ln) (text.drop (kateLnstart text ln))

theorem lnstartFrom_le (ln i cur : Nat) (text : List UInt8) : lnstartFrom ln i cur text ≤ i + text.length := by
  induction text generalizing i cur with
  | nil => simp [lnstartFrom]
  | cons ch rest ih =>
    have hnext := ih (i + 1) (cur + 1)
    have hsame := ih (i + 1) cur
    rw [lnstartFrom, List.length_cons]
    split
    · split <;> omega
    · omega

/-- A line begins inside the text. -/
theorem kateLnstart_le (text : List UInt8) (ln : Nat) : kateLnstart text ln ≤ text.length := by
  have hle := lnstartFrom_le ln 0 0 text
  unfold kateLnstart
  split <;> omega

theorem lnendFrom_bounds (i : Nat) (text : List UInt8) :
    i ≤ lnendFrom i text ∧ lnendFrom i text ≤ i + text.length := by
  induction text generalizing i with
  | nil => simp [lnendFrom]
  | cons ch rest ih =>
    have hnext := ih (i + 1)
    rw [lnendFrom, List.length_cons]
    split <;> omega

/-- A line ends after it begins, and inside the text. -/
theorem kateLnend_bounds (text : List UInt8) (ln : Nat) :
    kateLnstart text ln ≤ kateLnend text ln ∧ kateLnend text ln ≤ text.length := by
  have hbounds := lnendFrom_bounds (kateLnstart text ln) (text.drop (kateLnstart text ln))
  have hstart := kateLnstart_le text ln
  rw [List.length_drop] at hbounds
  unfold kateLnend
  omega

/-! ### The text and the cursor -/

/-- The variables of the editor. `kate_buf` is the text; the cursor stands in it or at its end. -/
structure Kate where
  buf : CharBuffer 4096
  pos : Nat
  pos_le : pos ≤ buf.chars.length
  modified : Bool
  fname : CStr
  node : Int
  cwdNd : Int

namespace Kate

theorem emptyText_fits : ([] : List UInt8).length < 4096 := by decide

/-- `run_kate(-1, cwd_nd)` up to its loop. -/
def opened (cwdNd : Int) : Kate :=
  { buf := ⟨[], emptyText_fits⟩
    pos := 0
    pos_le := le_refl 0
    modified := false
    fname := .ofLit "untitled.txt"
    node := -1
    cwdNd := cwdNd }

def insert (k : Kate) (c : UInt8) : Kate :=
  if h : k.buf.chars.length ≥ 4095 then k
  else
    { k with
      buf := ⟨k.buf.chars.take k.pos ++ c :: k.buf.chars.drop k.pos, by
        have := k.pos_le
        simp only [List.length_append, List.length_take, List.length_cons, List.length_drop]
        omega⟩
      pos := k.pos + 1
      pos_le := by
        have := k.pos_le
        simp only [List.length_append, List.length_take, List.length_cons, List.length_drop]
        omega
      modified := true }

def backspace (k : Kate) : Kate :=
  if h : k.pos = 0 then k
  else
    { k with
      buf := ⟨k.buf.chars.eraseIdx (k.pos - 1), by
        have := k.buf.fits
        have := List.length_eraseIdx_le k.buf.chars (k.pos - 1)
        omega⟩
      pos := k.pos - 1
      pos_le := by
        have := k.pos_le
        rw [List.length_eraseIdx_of_lt (by omega)]
        omega
      modified := true }

def delkey (k : Kate) : Kate :=
  if h : k.pos ≥ k.buf.chars.length then k
  else
    { k with
      buf := ⟨k.buf.chars.eraseIdx k.pos, by
        have := k.buf.fits
        have := List.length_eraseIdx_le k.buf.chars k.pos
        omega⟩
      pos_le := by
        rw [List.length_eraseIdx_of_lt (by omega)]
        omega
      modified := true }

/-- The column `col` of a line, or its end where it is shorter. -/
def atColumn (k : Kate) (ln col : Nat) : Kate :=
  { k with
    pos := kateLnstart k.buf.chars ln +
      if col < kateLnend k.buf.chars ln - kateLnstart k.buf.chars ln then col
      else kateLnend k.buf.chars ln - kateLnstart k.buf.chars ln
    pos_le := by
      have := kateLnend_bounds k.buf.chars ln
      split <;> omega }

def moveUp (k : Kate) : Kate :=
  if kateLineof k.buf.chars k.pos = 0 then k
  else k.atColumn (kateLineof k.buf.chars k.pos - 1) (kateColof k.buf.chars k.pos)

def moveDown (k : Kate) : Kate :=
  if kateLnstart k.buf.chars (kateLineof k.buf.chars k.pos + 1) ≥ k.buf.chars.length ∧
      k.buf.chars.getLast? ≠ some 10 then k
  else k.atColumn (kateLineof k.buf.chars k.pos + 1) (kateColof k.buf.chars k.pos)

def moveLeft (k : Kate) : Kate :=
  {k with pos := k.pos - 1, pos_le := Nat.le_trans (Nat.sub_le k.pos 1) k.pos_le}

def moveRight (k : Kate) : Kate :=
  if h : k.pos < k.buf.chars.length then {k with pos := k.pos + 1, pos_le := h} else k

def home (k : Kate) : Kate :=
  { k with
    pos := kateLnstart k.buf.chars (kateLineof k.buf.chars k.pos)
    pos_le := kateLnstart_le _ _ }

def toEnd (k : Kate) : Kate :=
  { k with
    pos := kateLnend k.buf.chars (kateLineof k.buf.chars k.pos)
    pos_le := (kateLnend_bounds _ _).2 }

/-- A key that neither saves nor closes. -/
def edit (k : Kate) (key : Key) : Kate :=
  if key = keyUp then k.moveUp
  else if key = keyDown then k.moveDown
  else if key = keyLeft then k.moveLeft
  else if key = keyRight then k.moveRight
  else if key = keyF1 then k.home
  else if key = keyF3 then k.toEnd
  else if key = 8 ∨ key = 127 then k.backspace
  else if key = keyF4 then k.delkey
  else if key = 10 ∨ key = 13 then k.insert 10
  else if key ≥ 32 ∧ key < 127 then k.insert key.toUInt8
  else k

end Kate

/-! ### Saving -/

/-- `kate_save` from `fs_write_file` on. -/
def kateWrite (k : Kate) (s : System) : Except Fault (Int × Kate × System) := do
  let (r, t) ← fsWriteFile s.nodes k.cwdNd k.fname (some k.buf.chars) k.buf.chars.length
  if r = 0 then return (0, {k with modified := false}, diskSync {s with nodes := t})
  else return (-1, k, {s with nodes := t})

/-- What it returns, and what it leaves. -/
def kateSave (k : Kate) (s : System) : Except Fault (Int × Kate × System) :=
  if k.node < 0 then do
    let (r, t) ← fsTouch s.nodes k.cwdNd k.fname
    if r < 0 then return (-1, k, {s with nodes := t})
    else kateWrite k {s with nodes := t}
  else kateWrite k s

/-! ### The loop -/

/-- The editor after a key: still open, asking whether to close with unsaved changes, or closed. -/
inductive Editor where
  | typing (k : Kate)
  | asking (k : Kate)
  | closed

/-- One round of the loop of `run_kate`. -/
def kateKey (k : Kate) (key : Key) (s : System) : Except Fault (Editor × System) :=
  if key = keyEsc then return (if k.modified then .asking k else .closed, s)
  else if key = keyF2 then do
    let (_, k, s) ← kateSave k s
    return (.typing k, s)
  else return (.typing (k.edit key), s)

/-- One round of `kate_unsaved_prompt`. -/
def kateUnsavedPrompt (k : Kate) (key : Key) (s : System) : Except Fault (Editor × System) :=
  if key = keyF2 then do
    let (_, _, s) ← kateSave k s
    return (.closed, s)
  else if key = 0x64 ∨ key = 0x44 then return (.closed, s)
  else if key = keyEsc then return (.typing k, s)
  else return (.asking k, s)

end FurOS.Desktop
