import FurOS.Foundation.Lines

/-! A text with a cursor in it, as two lists.

`before` is what stands before the cursor, the nearest first, and `after` what stands behind it. An
edit takes place at the ends that meet; a move goes to a position of the text or, over lines cut at
`sep`, to a line and column. What an operation makes of `text` and `cursor` is its simp lemma. -/
namespace Foundation

structure Zipper (β : Type) where
  before : List β
  after : List β

namespace Zipper
variable {β : Type}

def text (z : Zipper β) : List β := z.before.reverse ++ z.after

def cursor (z : Zipper β) : Nat := z.before.length

/-- The text with the cursor at a position of it. -/
def ofText (text : List β) (p : Nat) : Zipper β := ⟨(text.take p).reverse, text.drop p⟩

/-- Before the cursor, if there is room in all for `cap`. -/
def insert (cap : Nat) (c : β) (z : Zipper β) : Zipper β :=
  if z.text.length < cap then {z with before := c :: z.before} else z

def deleteBefore : Zipper β → Zipper β
  | ⟨[], after⟩ => ⟨[], after⟩
  | ⟨_ :: before, after⟩ => ⟨before, after⟩

def deleteAfter : Zipper β → Zipper β
  | ⟨before, []⟩ => ⟨before, []⟩
  | ⟨before, _ :: after⟩ => ⟨before, after⟩

def left : Zipper β → Zipper β
  | ⟨[], after⟩ => ⟨[], after⟩
  | ⟨c :: before, after⟩ => ⟨before, c :: after⟩

def right : Zipper β → Zipper β
  | ⟨before, []⟩ => ⟨before, []⟩
  | ⟨before, c :: after⟩ => ⟨c :: before, after⟩

section Lines
variable [DecidableEq β] (sep : β) (z : Zipper β)

def line : Nat := lineOf sep z.text z.cursor

def column : Nat := z.cursor - lineStart (lines sep z.text) (z.line sep)

/-- To a line, at the column or as far as it reaches. -/
def goTo (ln col : Nat) : Zipper β :=
  .ofText z.text (lineStart (lines sep z.text) ln + min col ((lines sep z.text).getD ln []).length)

def up : Zipper β := if z.line sep = 0 then z else z.goTo sep (z.line sep - 1) (z.column sep)

def down : Zipper β :=
  if z.line sep + 1 < (lines sep z.text).length then z.goTo sep (z.line sep + 1) (z.column sep) else z

def home : Zipper β := z.goTo sep (z.line sep) 0

def toEnd : Zipper β := z.goTo sep (z.line sep) z.text.length

end Lines

variable {z : Zipper β}

@[simp] theorem ofText_text (l : List β) (p : Nat) : (Zipper.ofText l p).text = l := by
  simp [Zipper.ofText, text]

@[simp] theorem ofText_cursor {l : List β} {p : Nat} (h : p ≤ l.length) : (Zipper.ofText l p).cursor = p := by
  simp [Zipper.ofText, cursor, h]

theorem before_reverse (z : Zipper β) : z.text.take z.cursor = z.before.reverse := by
  rw [text, cursor, ← List.length_reverse, List.take_left]

theorem after_eq (z : Zipper β) : z.text.drop z.cursor = z.after := by
  rw [text, cursor, ← List.length_reverse, List.drop_left]

/-- A zipper is its text and cursor. -/
theorem ofText_self (z : Zipper β) : Zipper.ofText z.text z.cursor = z := by
  unfold Zipper.ofText
  rw [before_reverse, after_eq, List.reverse_reverse]

/-! ### Edits -/

theorem insert_text (cap : Nat) (c : β) (z : Zipper β) : (z.insert cap c).text =
    if z.text.length < cap then z.text.take z.cursor ++ c :: z.text.drop z.cursor else z.text := by
  rw [before_reverse, after_eq]
  unfold insert
  split
  · simp [text]
  · rfl

theorem insert_cursor (cap : Nat) (c : β) (z : Zipper β) :
    (z.insert cap c).cursor = if z.text.length < cap then z.cursor + 1 else z.cursor := by
  unfold insert
  split <;> rfl

theorem deleteBefore_text (z : Zipper β) :
    z.deleteBefore.text = if z.cursor = 0 then z.text else z.text.eraseIdx (z.cursor - 1) := by
  obtain ⟨before, after⟩ := z
  cases before with
  | nil => rfl
  | cons c before =>
    simp [deleteBefore, text, cursor, List.eraseIdx_append_of_length_le]

theorem deleteBefore_cursor (z : Zipper β) : z.deleteBefore.cursor = z.cursor - 1 := by
  obtain ⟨before, after⟩ := z
  cases before <;> rfl

theorem deleteAfter_text (z : Zipper β) : z.deleteAfter.text = z.text.eraseIdx z.cursor := by
  obtain ⟨before, after⟩ := z
  cases after with
  | nil => simp [deleteAfter, text, cursor, List.eraseIdx_of_length_le]
  | cons c after => simp [deleteAfter, text, cursor, List.eraseIdx_append_of_length_le]

theorem deleteAfter_cursor (z : Zipper β) : z.deleteAfter.cursor = z.cursor := by
  obtain ⟨before, after⟩ := z
  cases after <;> rfl

/-! ### Moves -/

@[simp] theorem left_text (z : Zipper β) : z.left.text = z.text := by
  obtain ⟨before, after⟩ := z
  cases before <;> simp [left, text]

@[simp] theorem left_cursor (z : Zipper β) : z.left.cursor = z.cursor - 1 := by
  obtain ⟨before, after⟩ := z
  cases before <;> rfl

@[simp] theorem right_text (z : Zipper β) : z.right.text = z.text := by
  obtain ⟨before, after⟩ := z
  cases after <;> simp [right, text]

@[simp] theorem right_cursor (z : Zipper β) :
    z.right.cursor = if z.cursor < z.text.length then z.cursor + 1 else z.cursor := by
  obtain ⟨before, after⟩ := z
  cases after <;> simp [right, text, cursor]

section Lines
variable [DecidableEq β] {sep : β}

@[simp] theorem goTo_text (z : Zipper β) (ln col : Nat) : (z.goTo sep ln col).text = z.text := ofText_text _ _

theorem goTo_cursor {ln : Nat} (hln : ln < (lines sep z.text).length) (col : Nat) :
    (z.goTo sep ln col).cursor =
    lineStart (lines sep z.text) ln + min col ((lines sep z.text).getD ln []).length := by
  have hend := lineEnd_le hln
  exact ofText_cursor (by omega)

end Lines

end Zipper

end Foundation
