import FurOS.Desktop.Lines
import FurOS.Foundation.Cells
import FurOS.Foundation.Zipper

/-! The array behind the editor's text.

`kate_buf` has 4096 cells, of which the first `kate_len` are the text. An edit moves what is behind the
cursor by a cell, in place; the scans for lines read the array cell by cell. With every access checked,
all of them do to the text what the operations of a text with a cursor say. -/
namespace FurOS.Desktop
open Foundation
open Foundation.Cells (copyUp copyDown foldUp)

/-- `kmemcpy` inside an array. -/
def kmemcpy {n : Nat} (dst src : Int) (count : Nat) (buf : Fin n → UInt8) : Option (Fin n → UInt8) :=
  copyUp dst src count buf

/-- `(size_t)x`. -/
def sizeT (x : Int) : Nat := (x % 2 ^ 64).toNat

/-- The variables that edits and moves read and write. -/
structure KateVars where
  buf : Fin 4096 → UInt8
  len : Int
  pos : Int
  modified : Bool

/-- What an edit or a move is. -/
inductive KateOp where
  | insert (c : UInt8)
  | backspace
  | delkey
  | left
  | right
  | up
  | down
  | home
  | toEnd

namespace KateVars

/-! ### Lines -/

def lineof (v : KateVars) (pos : Int) : Option Int :=
  foldUp (fun n ch => if ch = 10 then n + 1 else n) v.buf 0 pos.toNat 0

def colof (v : KateVars) (pos : Int) : Option Int :=
  foldUp (fun c ch => if ch = 10 then 0 else c + 1) v.buf 0 pos.toNat 0

/-- The loop of `kate_lnstart` at index `i`, with `rounds` to go. -/
def lnstartFrom (v : KateVars) (ln : Int) : (rounds : Nat) → (i cur : Int) → Option Int
  | 0, _, _ => some v.len
  | rounds + 1, i, cur => do
    let ch ← Cells.read v.buf i
    if ch = 10 then if cur + 1 = ln then some (i + 1) else lnstartFrom v ln rounds (i + 1) (cur + 1)
    else lnstartFrom v ln rounds (i + 1) cur

def lnstart (v : KateVars) (ln : Int) : Option Int :=
  if ln ≤ 0 then some 0 else v.lnstartFrom ln v.len.toNat 0 0

/-- The loop of `kate_lnend`. -/
def lnendFrom (v : KateVars) : (rounds : Nat) → (i : Int) → Option Int
  | 0, _ => some v.len
  | rounds + 1, i => do
    let ch ← Cells.read v.buf i
    if ch = 10 then some i else lnendFrom v rounds (i + 1)

def lnend (v : KateVars) (ln : Int) : Option Int := do
  let s ← v.lnstart ln
  v.lnendFrom (v.len - s).toNat s

/-! ### Edits -/

/-- `kate_buf[pos..]` moved a cell further. -/
def shiftright (v : KateVars) (pos : Int) : Option (Fin 4096 → UInt8) :=
  copyDown pos (v.len - pos).toNat v.buf

def insert (v : KateVars) (c : UInt8) : Option KateVars :=
  if v.len ≥ 4095 then some v
  else do
    let buf ← v.shiftright v.pos
    let buf ← Cells.write buf v.pos c
    return ⟨buf, v.len + 1, v.pos + 1, true⟩

def backspace (v : KateVars) : Option KateVars :=
  if v.pos = 0 then some v
  else do
    let pos := v.pos - 1
    let buf ← kmemcpy pos (pos + 1) (sizeT (v.len - pos)) v.buf
    return ⟨buf, v.len - 1, pos, true⟩

def delkey (v : KateVars) : Option KateVars :=
  if v.pos ≥ v.len then some v
  else do
    let buf ← kmemcpy v.pos (v.pos + 1) (sizeT (v.len - v.pos - 1)) v.buf
    return ⟨buf, v.len - 1, v.pos, true⟩

/-! ### Moves -/

def moveUp (v : KateVars) : Option KateVars := do
  let ln ← v.lineof v.pos
  let col ← v.colof v.pos
  if ln = 0 then return v
  let ps ← v.lnstart (ln - 1)
  let ep ← v.lnend (ln - 1)
  return {v with pos := ps + if col < ep - ps then col else ep - ps}

/-- `kate_len == 0 || kate_buf[kate_len - 1] != '\n'`. -/
def noLastLineEnd (v : KateVars) : Option Bool :=
  if v.len = 0 then some true
  else do
    let ch ← Cells.read v.buf (v.len - 1)
    return decide (ch ≠ 10)

/-- The condition under which `kate_move_down` returns. -/
def staysAt (v : KateVars) (ns : Int) : Option Bool := if ns ≥ v.len then v.noLastLineEnd else some false

def moveDown (v : KateVars) : Option KateVars := do
  let ln ← v.lineof v.pos
  let col ← v.colof v.pos
  let ns ← v.lnstart (ln + 1)
  let stays ← v.staysAt ns
  if stays then return v
  let ne ← v.lnend (ln + 1)
  let nlen := if ne - ns < 0 then 0 else ne - ns
  return {v with pos := ns + if col < nlen then col else nlen}

def home (v : KateVars) : Option KateVars := do
  let ln ← v.lineof v.pos
  let pos ← v.lnstart ln
  return {v with pos := pos}

def toEnd (v : KateVars) : Option KateVars := do
  let ln ← v.lineof v.pos
  let pos ← v.lnend ln
  return {v with pos := pos}

def step (v : KateVars) : KateOp → Option KateVars
  | .insert c => v.insert c
  | .backspace => v.backspace
  | .delkey => v.delkey
  | .left => some (if v.pos > 0 then {v with pos := v.pos - 1} else v)
  | .right => some (if v.pos < v.len then {v with pos := v.pos + 1} else v)
  | .up => v.moveUp
  | .down => v.moveDown
  | .home => v.home
  | .toEnd => v.toEnd

def run (v : KateVars) : List KateOp → Option KateVars
  | [] => some v
  | o :: rest => do
    let v ← v.step o
    v.run rest

end KateVars

/-! ### The same on the text -/

namespace Kate

def step (k : Kate) : KateOp → Kate
  | .insert c => k.insert c
  | .backspace => k.backspace
  | .delkey => k.delkey
  | .left => k.moveLeft
  | .right => k.moveRight
  | .up => k.moveUp
  | .down => k.moveDown
  | .home => k.home
  | .toEnd => k.toEnd

/-- The array is as the text has it. -/
structure InArray (k : Kate) (v : KateVars) : Prop where
  holds : Cells.Holds v.buf k.buf.chars
  len : v.len = k.buf.chars.length
  pos : v.pos = k.pos
  modified : v.modified = k.modified

end Kate

section Scans
variable {k : Kate} {v : KateVars} (h : k.InArray v)
include h

theorem lineof_eq {p : Nat} (hp : p ≤ k.buf.chars.length) :
    v.lineof p = some (kateLineof k.buf.chars p : Int) := by
  have hcount (l : List UInt8) (n : Nat) :
      l.foldl (fun (n : Int) ch => if ch = 10 then n + 1 else n) n = (n + l.count 10 : Nat) := by
    induction l generalizing n with
    | nil => rfl
    | cons ch l ih =>
      rw [List.foldl_cons, List.count_cons]
      by_cases hch : ch = 10
      · have hnext := ih (n + 1)
        rw [if_pos hch, ← Int.natCast_succ, hnext, hch]
        simp
        omega
      · rw [if_neg hch, ih]
        simp [hch]
  have hrange : 0 + p ≤ k.buf.chars.length := by omega
  have hscan := h.holds.foldUp_eq (fun (n : Int) ch => if ch = 10 then n + 1 else n) 0 hrange
  have hzero := hcount (k.buf.chars.take p) 0
  rw [Nat.zero_add] at hzero
  rw [KateVars.lineof, Int.toNat_natCast]
  exact hscan.trans (congrArg some hzero)

theorem colof_eq {p : Nat} (hp : p ≤ k.buf.chars.length) :
    v.colof p = some (kateColof k.buf.chars p : Int) := by
  have hcast (l : List UInt8) (c : Nat) : l.foldl (fun (c : Int) ch => if ch = 10 then 0 else c + 1) c =
      (l.foldl (fun c ch => if ch = 10 then 0 else c + 1) c : Nat) := by
    induction l generalizing c with
    | nil => rfl
    | cons ch l ih =>
      rw [List.foldl_cons, List.foldl_cons, ← ih]
      by_cases hch : ch = 10
      · rw [if_pos hch, if_pos hch]
        rfl
      · rw [if_neg hch, if_neg hch]
        rfl
  have hrange : 0 + p ≤ k.buf.chars.length := by omega
  have hscan := h.holds.foldUp_eq (fun (c : Int) ch => if ch = 10 then 0 else c + 1) 0 hrange
  rw [KateVars.colof, Int.toNat_natCast]
  exact hscan.trans (congrArg some (hcast (k.buf.chars.take p) 0))

theorem lnstart_eq (ln : Nat) : v.lnstart ln = some (kateLnstart k.buf.chars ln : Int) := by
  have hfrom (rounds i cur : Nat) (hi : i + rounds = k.buf.chars.length) :
      v.lnstartFrom ln rounds i cur = some (lnstartFrom ln i cur (k.buf.chars.drop i) : Int) := by
    induction rounds generalizing i cur with
    | zero =>
      have hend : i = k.buf.chars.length := hi
      rw [KateVars.lnstartFrom, h.len, hend, List.drop_length]
      rfl
    | succ rounds ih =>
      have hlt : i < k.buf.chars.length := by omega
      have hnext := ih (i + 1) cur (by omega)
      have hnext' := ih (i + 1) (cur + 1) (by omega)
      rw [KateVars.lnstartFrom, h.holds.read_getElem hlt, List.drop_eq_getElem_cons hlt, lnstartFrom,
        Option.bind_eq_bind, Option.bind_some]
      split
      · by_cases hcur : cur + 1 = ln
        · rw [if_pos hcur, if_pos (by omega)]
          rfl
        · rw [if_neg hcur, if_neg (by omega)]
          exact hnext'
      · exact hnext
  have hall := hfrom k.buf.chars.length 0 0 (Nat.zero_add _)
  rw [KateVars.lnstart, kateLnstart, h.len]
  by_cases hln : ln = 0
  · rw [if_pos hln, if_pos (by omega)]
    rfl
  · rw [if_neg hln, if_neg (by omega)]
    exact hall

theorem lnend_eq (ln : Nat) : v.lnend ln = some (kateLnend k.buf.chars ln : Int) := by
  have hfrom (rounds i : Nat) (hi : i + rounds = k.buf.chars.length) :
      v.lnendFrom rounds i = some (lnendFrom i (k.buf.chars.drop i) : Int) := by
    induction rounds generalizing i with
    | zero =>
      have hend : i = k.buf.chars.length := hi
      rw [KateVars.lnendFrom, h.len, hend, List.drop_length]
      rfl
    | succ rounds ih =>
      have hlt : i < k.buf.chars.length := by omega
      have hnext := ih (i + 1) (by omega)
      rw [KateVars.lnendFrom, h.holds.read_getElem hlt, List.drop_eq_getElem_cons hlt, lnendFrom,
        Option.bind_eq_bind, Option.bind_some]
      split
      · rfl
      · exact hnext
  have hle := kateLnstart_le k.buf.chars ln
  have hrounds : ((k.buf.chars.length : Int) - (kateLnstart k.buf.chars ln : Nat)).toNat =
      k.buf.chars.length - kateLnstart k.buf.chars ln := by omega
  rw [KateVars.lnend, lnstart_eq h, Option.bind_eq_bind, Option.bind_some, h.len, hrounds]
  exact hfrom _ _ (by omega)

end Scans

section Steps
variable {k : Kate} {v : KateVars} (h : k.InArray v)
include h

theorem insert_inArray (c : UInt8) : ∃ v', v.insert c = some v' ∧ (k.insert c).InArray v' := by
  have hlen := h.len
  have hpos := h.pos
  have hle := k.pos_le
  unfold KateVars.insert Kate.insert
  by_cases hfull : k.buf.chars.length ≥ 4095
  · rw [if_pos (by omega), dif_pos hfull]
    exact ⟨v, rfl, h⟩
  · rw [if_neg (by omega), dif_neg hfull]
    obtain ⟨a₁, a₂, hshift, hwrite, hholds⟩ := h.holds.insert hle (by omega) c
    have hrounds : (v.len - v.pos).toNat = k.buf.chars.length - k.pos := by omega
    refine ⟨⟨a₂, v.len + 1, v.pos + 1, true⟩, ?_, hholds, ?_, ?_, rfl⟩
    · rw [KateVars.shiftright, hrounds, hpos, hshift, Option.bind_eq_bind, Option.bind_some, hwrite]
      rfl
    · simp only [List.length_append, List.length_take, List.length_cons, List.length_drop]
      omega
    · show v.pos + 1 = ((k.pos + 1 : Nat) : Int)
      omega

theorem backspace_inArray : ∃ v', v.backspace = some v' ∧ k.backspace.InArray v' := by
  have hlen := h.len
  have hpos := h.pos
  have hle := k.pos_le
  have hfits := k.buf.fits
  unfold KateVars.backspace Kate.backspace
  by_cases h0 : k.pos = 0
  · rw [if_pos (by omega), dif_pos h0]
    exact ⟨v, rfl, h⟩
  · rw [if_neg (by omega), dif_neg h0]
    have hlt : k.pos - 1 < k.buf.chars.length := by omega
    have hpred : v.pos - 1 = ((k.pos - 1 : Nat) : Int) := by omega
    have hcount : sizeT (v.len - ((k.pos - 1 : Nat) : Int)) = k.buf.chars.length - (k.pos - 1) := by
      unfold sizeT
      omega
    obtain ⟨a', hcopy, hholds⟩ := h.holds.erase hlt (k.buf.chars.length - (k.pos - 1)) (by omega) (by omega)
    refine ⟨⟨a', v.len - 1, v.pos - 1, true⟩, ?_, hholds, ?_, hpred, rfl⟩
    · dsimp only
      rw [hpred, hcount, kmemcpy, hcopy]
      rfl
    · show v.len - 1 = _
      rw [List.length_eraseIdx_of_lt hlt]
      omega

theorem delkey_inArray : ∃ v', v.delkey = some v' ∧ k.delkey.InArray v' := by
  have hlen := h.len
  have hpos := h.pos
  have hfits := k.buf.fits
  unfold KateVars.delkey Kate.delkey
  by_cases hend : k.pos ≥ k.buf.chars.length
  · rw [if_pos (by omega), dif_pos hend]
    exact ⟨v, rfl, h⟩
  · rw [if_neg (by omega), dif_neg hend]
    have hlt : k.pos < k.buf.chars.length := by omega
    have hcount : sizeT (v.len - (k.pos : Int) - 1) = k.buf.chars.length - k.pos - 1 := by
      unfold sizeT
      omega
    obtain ⟨a', hcopy, hholds⟩ := h.holds.erase hlt _ (Nat.le_refl _) (by omega)
    refine ⟨⟨a', v.len - 1, v.pos, true⟩, ?_, hholds, ?_, hpos, rfl⟩
    · rw [hpos, hcount, kmemcpy, hcopy]
      rfl
    · show v.len - 1 = _
      rw [List.length_eraseIdx_of_lt hlt]
      omega

/-- Only the cursor moves. -/
theorem inArray_pos {pos : Int} {p : Nat} (hp : p ≤ k.buf.chars.length) (hpos : pos = p) :
    Kate.InArray {k with pos := p, pos_le := hp} {v with pos := pos} :=
  ⟨h.holds, h.len, hpos, h.modified⟩

theorem lineof_pos : v.lineof v.pos = some (kateLineof k.buf.chars k.pos : Int) := by
  rw [h.pos]
  exact lineof_eq h k.pos_le

theorem colof_pos : v.colof v.pos = some (kateColof k.buf.chars k.pos : Int) := by
  rw [h.pos]
  exact colof_eq h k.pos_le

theorem moveLeft_inArray : ∃ v', v.step .left = some v' ∧ k.moveLeft.InArray v' := by
  have hpos := h.pos
  refine ⟨_, rfl, ?_⟩
  split
  · refine inArray_pos h _ ?_
    show v.pos - 1 = ((k.pos - 1 : Nat) : Int)
    omega
  · have hpos' : v.pos = ((k.pos - 1 : Nat) : Int) := by omega
    exact inArray_pos h _ hpos'

theorem moveRight_inArray : ∃ v', v.step .right = some v' ∧ k.moveRight.InArray v' := by
  have hpos := h.pos
  have hlen := h.len
  refine ⟨_, rfl, ?_⟩
  unfold Kate.moveRight
  by_cases hlt : k.pos < k.buf.chars.length
  · rw [if_pos (by omega), dif_pos hlt]
    refine inArray_pos h _ ?_
    show v.pos + 1 = ((k.pos + 1 : Nat) : Int)
    omega
  · rw [if_neg (by omega), dif_neg hlt]
    exact h

theorem home_inArray : ∃ v', v.home = some v' ∧ k.home.InArray v' := by
  refine ⟨_, ?_, inArray_pos h _ rfl⟩
  rw [KateVars.home, lineof_pos h, Option.bind_eq_bind, Option.bind_some, lnstart_eq h]
  rfl

theorem toEnd_inArray : ∃ v', v.toEnd = some v' ∧ k.toEnd.InArray v' := by
  refine ⟨_, ?_, inArray_pos h _ rfl⟩
  rw [KateVars.toEnd, lineof_pos h, Option.bind_eq_bind, Option.bind_some, lnend_eq h]
  rfl

theorem moveUp_inArray : ∃ v', v.moveUp = some v' ∧ k.moveUp.InArray v' := by
  unfold KateVars.moveUp Kate.moveUp
  rw [lineof_pos h, colof_pos h]
  simp only [Option.bind_eq_bind, Option.bind_some]
  by_cases h0 : kateLineof k.buf.chars k.pos = 0
  · rw [if_pos (by omega), if_pos h0]
    exact ⟨v, rfl, h⟩
  · have hpred : (kateLineof k.buf.chars k.pos : Int) - 1 =
        ((kateLineof k.buf.chars k.pos - 1 : Nat) : Int) := by omega
    have hbounds := kateLnend_bounds k.buf.chars (kateLineof k.buf.chars k.pos - 1)
    rw [if_neg (by omega), if_neg h0, hpred, lnstart_eq h, lnend_eq h]
    refine ⟨_, rfl, inArray_pos h _ ?_⟩
    split <;> split <;> omega

theorem noLastLineEnd_eq : v.noLastLineEnd = some (decide (k.buf.chars.getLast? ≠ some 10)) := by
  have hlen := h.len
  unfold KateVars.noLastLineEnd
  by_cases h0 : k.buf.chars.length = 0
  · rw [if_pos (by omega), List.length_eq_zero_iff.mp h0]
    rfl
  · have hlt : k.buf.chars.length - 1 < k.buf.chars.length := by omega
    have hpred : v.len - 1 = ((k.buf.chars.length - 1 : Nat) : Int) := by omega
    rw [if_neg (by omega), hpred, h.holds.read_getElem hlt, List.getLast?_eq_getElem?,
      List.getElem?_eq_getElem hlt]
    simp

theorem staysAt_eq (ns : Nat) :
    v.staysAt ns = some (decide (ns ≥ k.buf.chars.length ∧ k.buf.chars.getLast? ≠ some 10)) := by
  have hlen := h.len
  unfold KateVars.staysAt
  by_cases hge : ns ≥ k.buf.chars.length
  · rw [if_pos (by omega), noLastLineEnd_eq h]
    simp [hge]
  · rw [if_neg (by omega)]
    simp [hge]

theorem moveDown_inArray : ∃ v', v.moveDown = some v' ∧ k.moveDown.InArray v' := by
  have hlen := h.len
  have hsucc : (kateLineof k.buf.chars k.pos : Int) + 1 =
      ((kateLineof k.buf.chars k.pos + 1 : Nat) : Int) := by omega
  have hbounds := kateLnend_bounds k.buf.chars (kateLineof k.buf.chars k.pos + 1)
  unfold KateVars.moveDown Kate.moveDown
  rw [lineof_pos h, colof_pos h]
  simp only [Option.bind_eq_bind, Option.bind_some]
  rw [hsucc, lnstart_eq h, lnend_eq h]
  simp only [Option.bind_some]
  rw [staysAt_eq h, Option.bind_some]
  split
  · next hstay =>
    rw [if_pos (of_decide_eq_true hstay)]
    exact ⟨v, rfl, h⟩
  · next hmoves =>
    rw [if_neg fun hstay => hmoves (decide_eq_true hstay)]
    refine ⟨_, rfl, inArray_pos h _ ?_⟩
    repeat' split
    all_goals omega

/-- One edit or move: the array keeps up with the text. -/
theorem step_inArray (o : KateOp) : ∃ v', v.step o = some v' ∧ (k.step o).InArray v' := by
  cases o with
  | insert c => exact insert_inArray h c
  | backspace => exact backspace_inArray h
  | delkey => exact delkey_inArray h
  | left => exact moveLeft_inArray h
  | right => exact moveRight_inArray h
  | up => exact moveUp_inArray h
  | down => exact moveDown_inArray h
  | home => exact home_inArray h
  | toEnd => exact toEnd_inArray h

end Steps

/-! ### A text with a cursor -/

/-- What an edit or a move is on the text and cursor. -/
def KateOp.onText : KateOp → Zipper UInt8 → Zipper UInt8
  | insert c, z => z.insert 4095 c
  | backspace, z => z.deleteBefore
  | delkey, z => z.deleteAfter
  | left, z => z.left
  | right, z => z.right
  | up, z => z.up 10
  | down, z => z.down 10
  | home, z => z.home 10
  | toEnd, z => z.toEnd 10

namespace Kate
variable {k : Kate}

def zipper (k : Kate) : Zipper UInt8 := .ofText k.buf.chars k.pos

@[simp] theorem zipper_text (k : Kate) : k.zipper.text = k.buf.chars := Zipper.ofText_text _ _

@[simp] theorem zipper_cursor (k : Kate) : k.zipper.cursor = k.pos := Zipper.ofText_cursor k.pos_le

theorem zipper_eq {z : Zipper UInt8} (htext : k.buf.chars = z.text) (hcursor : k.pos = z.cursor) :
    k.zipper = z := by
  rw [zipper, htext, hcursor, Zipper.ofText_self]

@[simp] theorem zipper_line (k : Kate) : k.zipper.line 10 = kateLineof k.buf.chars k.pos := by
  rw [Zipper.line, zipper_text, zipper_cursor, kateLineof_eq]

@[simp] theorem zipper_column (k : Kate) : k.zipper.column 10 = kateColof k.buf.chars k.pos := by
  have hcol := kateColof_eq k.pos_le
  rw [Zipper.column, zipper_line, zipper_text, zipper_cursor, kateLineof_eq]
  omega

/-- A line and column, in both. -/
theorem zipper_goTo {k' : Kate} {ln col : Nat} (hln : ln < (lines 10 k.buf.chars).length) (col' : Nat)
    (hcol : min col' (lineLength k.buf.chars ln) = col) (h : k.MovedTo ln col k') :
    k'.zipper = k.zipper.goTo 10 ln col' := by
  have hin : ln < (lines 10 k.zipper.text).length := by rwa [zipper_text]
  have hpos := kateColof_eq k'.pos_le
  have hline : lineOf 10 k'.buf.chars k'.pos = ln := h.lineof
  refine zipper_eq ?_ ?_
  · rw [Zipper.goTo_text, zipper_text, h.buf]
  · rw [hline, h.colof, h.buf] at hpos
    rw [Zipper.goTo_cursor hin, zipper_text, ← hpos, ← hcol]
    rfl

theorem insert_zipper (k : Kate) (c : UInt8) : (k.insert c).zipper = k.zipper.insert 4095 c := by
  have hle := k.pos_le
  apply zipper_eq
  · rw [Zipper.insert_text, zipper_text, zipper_cursor, Kate.insert]
    split <;> split <;> first | rfl | omega
  · rw [Zipper.insert_cursor, zipper_text, zipper_cursor, Kate.insert]
    split <;> split <;> first | rfl | omega

theorem backspace_zipper (k : Kate) : k.backspace.zipper = k.zipper.deleteBefore := by
  apply zipper_eq
  · rw [Zipper.deleteBefore_text, zipper_text, zipper_cursor, Kate.backspace]
    split <;> rfl
  · rw [Zipper.deleteBefore_cursor, zipper_cursor, Kate.backspace]
    split
    · omega
    · rfl

theorem delkey_zipper (k : Kate) : k.delkey.zipper = k.zipper.deleteAfter := by
  apply zipper_eq
  · rw [Zipper.deleteAfter_text, zipper_text, zipper_cursor, Kate.delkey]
    split
    · next hend => rw [List.eraseIdx_of_length_le hend]
    · rfl
  · rw [Zipper.deleteAfter_cursor, zipper_cursor, Kate.delkey]
    split <;> rfl

theorem moveLeft_zipper (k : Kate) : k.moveLeft.zipper = k.zipper.left := by
  apply zipper_eq
  · exact ((Zipper.left_text _).trans k.zipper_text).symm
  · show k.pos - 1 = k.zipper.left.cursor
    rw [Zipper.left_cursor, zipper_cursor]

theorem moveRight_zipper (k : Kate) : k.moveRight.zipper = k.zipper.right := by
  apply zipper_eq
  · rw [Zipper.right_text, zipper_text, Kate.moveRight]
    split <;> rfl
  · rw [Zipper.right_cursor, zipper_text, zipper_cursor, Kate.moveRight]
    split <;> rfl

/-- The cursor's line is one of the text's. -/
theorem kateLineof_lt (k : Kate) : kateLineof k.buf.chars k.pos < (lines 10 k.buf.chars).length :=
  (lineOf_bounds 10 k.pos_le).1

theorem moveUp_zipper (k : Kate) : k.moveUp.zipper = k.zipper.up 10 := by
  have hin := k.kateLineof_lt
  have hup := k.moveUp_movedTo
  rw [Zipper.up, zipper_line, zipper_column]
  split
  · next h0 =>
    rw [if_neg (by omega)] at hup
    rw [hup]
  · next h0 =>
    rw [if_pos (by omega)] at hup
    exact zipper_goTo (by omega) _ rfl hup

theorem moveDown_zipper (k : Kate) : k.moveDown.zipper = k.zipper.down 10 := by
  have hdown := k.moveDown_movedTo
  rw [Zipper.down, zipper_line, zipper_column, zipper_text]
  split
  · next hbelow =>
    rw [if_pos hbelow] at hdown
    exact zipper_goTo hbelow _ rfl hdown
  · next hbelow =>
    rw [if_neg hbelow] at hdown
    rw [hdown]

theorem home_zipper (k : Kate) : k.home.zipper = k.zipper.home 10 := by
  show k.home.zipper = k.zipper.goTo 10 (k.zipper.line 10) 0
  rw [zipper_line]
  exact zipper_goTo k.kateLineof_lt 0 (Nat.zero_min _) k.home_movedTo

theorem toEnd_zipper (k : Kate) : k.toEnd.zipper = k.zipper.toEnd 10 := by
  have hend := Foundation.lineEnd_le k.kateLineof_lt
  show k.toEnd.zipper = k.zipper.goTo 10 (k.zipper.line 10) k.zipper.text.length
  rw [zipper_line, zipper_text]
  exact zipper_goTo k.kateLineof_lt _ (Nat.min_eq_right (Nat.le_of_add_left_le hend)) k.toEnd_movedTo

/-- One edit or move, on the text with its cursor. -/
theorem step_zipper (k : Kate) (o : KateOp) : (k.step o).zipper = o.onText k.zipper := by
  cases o with
  | insert c => exact k.insert_zipper c
  | backspace => exact k.backspace_zipper
  | delkey => exact k.delkey_zipper
  | left => exact k.moveLeft_zipper
  | right => exact k.moveRight_zipper
  | up => exact k.moveUp_zipper
  | down => exact k.moveDown_zipper
  | home => exact k.home_zipper
  | toEnd => exact k.toEnd_zipper

end Kate

/-! ### Runs -/

namespace KateVars

/-- `kate_buf[0..kate_len)`. -/
def text (v : KateVars) : List UInt8 := (List.ofFn v.buf).take v.len.toNat

/-- The text with the cursor in it. -/
def zipper (v : KateVars) : Zipper UInt8 := .ofText v.text v.pos.toNat

end KateVars

namespace Kate

theorem InArray.zipper_eq {k : Kate} {v : KateVars} (h : k.InArray v) : v.zipper = k.zipper := by
  have htext : v.text = k.buf.chars := by
    rw [KateVars.text, h.len, Int.toNat_natCast, h.holds.take_ofFn]
  have hpos : v.pos.toNat = k.pos := by rw [h.pos, Int.toNat_natCast]
  rw [KateVars.zipper, htext, hpos]
  rfl

/-- An array whose length and cursor are in bounds holds some text. -/
theorem exists_inArray {v : KateVars} (h0 : 0 ≤ v.pos) (hpos : v.pos ≤ v.len) (hlen : v.len ≤ 4095) :
    ∃ k : Kate, k.InArray v := by
  have hholds : Cells.Holds v.buf v.text := .of_take v.buf (by omega)
  have hroom : v.len.toNat ≤ (List.ofFn v.buf).length := by
    rw [List.length_ofFn]
    omega
  have hall : v.text.length = v.len.toNat := List.length_take_of_le hroom
  refine ⟨⟨⟨v.text, by omega⟩, v.pos.toNat, ?_, v.modified, .ofLit "untitled.txt", -1, 0⟩, hholds, ?_,
    ?_, rfl⟩
  · show v.pos.toNat ≤ v.text.length
    omega
  · show v.len = (v.text.length : Int)
    omega
  · show v.pos = (v.pos.toNat : Int)
    omega

theorem run_inArray {k : Kate} {v : KateVars} (h : k.InArray v) (ops : List KateOp) :
    ∃ v', v.run ops = some v' ∧ (ops.foldl step k).InArray v' := by
  induction ops generalizing k v with
  | nil => exact ⟨v, rfl, h⟩
  | cons o rest ih =>
    obtain ⟨v₁, hstep, h₁⟩ := step_inArray h o
    obtain ⟨v', hrun, h'⟩ := ih h₁
    refine ⟨v', ?_, h'⟩
    rw [KateVars.run, hstep, Option.bind_eq_bind, Option.bind_some, hrun]

theorem run_zipper (k : Kate) (ops : List KateOp) :
    (ops.foldl step k).zipper = ops.foldl (fun z o => o.onText z) k.zipper := by
  induction ops generalizing k with
  | nil => rfl
  | cons o rest ih => rw [List.foldl_cons, List.foldl_cons, ih, step_zipper]

end Kate

/-- **The array is the text**: edits and moves never leave it, and what it holds after any of them, with the
cursor, is what they make of the text. -/
theorem kate_buffer_refines (v : KateVars) (h0 : 0 ≤ v.pos) (hpos : v.pos ≤ v.len) (hlen : v.len ≤ 4095)
    (ops : List KateOp) :
    ∃ v', v.run ops = some v' ∧ (0 ≤ v'.pos ∧ v'.pos ≤ v'.len ∧ v'.len ≤ 4095) ∧
      v'.zipper = ops.foldl (fun z o => o.onText z) v.zipper := by
  obtain ⟨k, hk⟩ := Kate.exists_inArray h0 hpos hlen
  obtain ⟨v', hrun, h'⟩ := Kate.run_inArray hk ops
  have hle := (ops.foldl Kate.step k).pos_le
  have hfits := (ops.foldl Kate.step k).buf.fits
  have hpos' := h'.pos
  have hlen' := h'.len
  exact ⟨v', hrun, by omega, h'.zipper_eq.trans ((Kate.run_zipper k ops).trans (hk.zipper_eq ▸ rfl))⟩

/-- A full text: nothing more goes in, and one is deleted at either side of the cursor. -/
theorem kate_buffer_refines_full : ∃ v',
    (⟨fun _ => 97, 4095, 1, false⟩ : KateVars).run
      [.insert 98, .delkey, .backspace, .insert 98, .toEnd] = some v' ∧
      (0 ≤ v'.pos ∧ v'.pos ≤ v'.len ∧ v'.len ≤ 4095) ∧
      v'.zipper = [.insert 98, .delkey, .backspace, .insert 98, .toEnd].foldl (fun z o => KateOp.onText o z)
        (⟨fun _ => 97, 4095, 1, false⟩ : KateVars).zipper :=
  kate_buffer_refines ⟨fun _ => 97, 4095, 1, false⟩ (by decide) (by decide) (by decide) _

end FurOS.Desktop
