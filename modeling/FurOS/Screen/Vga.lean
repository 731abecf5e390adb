import FurOS.Foundation.Loop
import FurOS.Kstring
import Mathlib.Logic.Function.Basic

/-! The text screen (`kernel/vga.c`).

The screen is 25 rows of 80 cells from address `VGA_MEMORY` on. Nothing stops the C
code from storing outside of them, so `memory` has a cell for every index, and
`stored` keeps the indices that have been stored to, the last first. -/
namespace FurOS

structure Vga where
  memory : Int → UInt16
  stored : List Int
  terminalRow : Int
  terminalColumn : Int
  terminalColor : UInt8
  vpTop : Int
  vpBot : Int

namespace Vga
open Foundation (forUp)

def width : Int := 80
def height : Int := 25

def entryColor (fg bg : UInt8) : UInt8 := fg ||| (bg <<< 4)

def entry (uc color : UInt8) : UInt16 := uc.toUInt16 ||| (color.toUInt16 <<< 8)

/-- `VGA_MEMORY[row * VGA_WIDTH + column] = cell`. -/
def store (row column : Int) (cell : UInt16) (v : Vga) : Vga :=
  {v with
    memory := Function.update v.memory (row * width + column) cell
    stored := (row * width + column) :: v.stored}

/-- A cell made blank, in the current color. -/
def blank (row column : Int) (v : Vga) : Vga := v.store row column (entry 32 v.terminalColor)

def setColor (fg bg : UInt8) (v : Vga) : Vga := {v with terminalColor := entryColor fg bg}

/-- A row moved one up. -/
def liftRow (y : Int) (v : Vga) : Vga :=
  forUp (fun x v => v.store (y - 1) x (v.memory (y * width + x))) 0 width v

def blankRow (y : Int) (v : Vga) : Vga := forUp (fun x v => v.blank y x) 0 width v

def scroll (v : Vga) : Vga :=
  let v := forUp liftRow (v.vpTop + 1) (v.vpBot + 1) v
  blankRow v.vpBot v

def clear (v : Vga) : Vga :=
  let v := forUp blankRow v.vpTop (v.vpBot + 1) v
  {v with terminalRow := v.vpTop, terminalColumn := 0}

def newline (v : Vga) : Vga :=
  let v := {v with terminalColumn := 0, terminalRow := v.terminalRow + 1}
  if v.terminalRow > v.vpBot then
    let v := scroll v
    {v with terminalRow := v.vpBot}
  else v

def putchar (c : UInt8) (v : Vga) : Vga :=
  if c = 10 then newline v
  else if c = 13 then {v with terminalColumn := 0}
  else
    let v := v.store v.terminalRow v.terminalColumn (entry c v.terminalColor)
    let v := {v with terminalColumn := v.terminalColumn + 1}
    if v.terminalColumn ≥ width then newline v else v

def backspace (v : Vga) : Vga :=
  if v.terminalRow = v.vpTop ∧ v.terminalColumn = 0 then v
  else
    let v :=
      if v.terminalColumn = 0 then {v with terminalRow := v.terminalRow - 1, terminalColumn := width - 1}
      else {v with terminalColumn := v.terminalColumn - 1}
    v.blank v.terminalRow v.terminalColumn

/-- The loop of `vga_write_string`. -/
def putchars (s : List UInt8) (v : Vga) : Vga := s.foldl (fun v c => v.putchar c) v

/-- `none` is the null pointer. -/
def writeString (str : Option CStr) (v : Vga) : Vga :=
  match str with
  | none => v
  | some s => v.putchars s.chars

def setViewport (top bottom : Int) (v : Vga) : Vga :=
  let top := if top < 0 then 0 else top
  let bottom := if bottom ≥ height then height - 1 else bottom
  let top := if top > bottom then bottom else top
  let row := if v.terminalRow < top then top else v.terminalRow
  let row := if row > bottom then bottom else row
  {v with vpTop := top, vpBot := bottom, terminalRow := row}

/-- The calls of normal text output. -/
inductive Call where
  | setColor (fg bg : UInt8)
  | putchar (c : UInt8)
  | writeString (str : Option CStr)
  | backspace
  | clear

def call : Call → Vga → Vga
  | .setColor fg bg => setColor fg bg
  | .putchar c => putchar c
  | .writeString str => writeString str
  | .backspace => backspace
  | .clear => clear

/-- The calls one after another. -/
def calls (cs : List Call) (v : Vga) : Vga := cs.foldl (fun v c => v.call c) v

end Vga

end FurOS
