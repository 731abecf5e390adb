import FurOS.Decimal
import FurOS.Screen.Placing

/-! Drawing in a window of the desktop (`kernel/desktop.c`): the rows of its layout, the colors, and the
helpers that more than one application draws with. -/
namespace FurOS

namespace Vga

def black : UInt8 := 0
def blue : UInt8 := 1
def red : UInt8 := 4
def lightGrey : UInt8 := 7
def darkGrey : UInt8 := 8
def lightCyan : UInt8 := 11
def lightRed : UInt8 := 12
def white : UInt8 := 15

end Vga

namespace Desktop
open Foundation (forUp forUp_count)
open Vga (OnScreen entry entryColor)

/-- `CTOP`: the first row of the window's content. -/
def ctop : Int := 1

/-- `CBOT`: the last one. -/
def cbot : Int := 22

/-- `STATROW`. -/
def statrow : Int := 23

def hline (x y w : Int) (fg bg : UInt8) (v : Vga) : Vga :=
  forUp (fun i v => v.putAt (x + i) y 0xC4 fg bg) 0 w v

theorem hline_cell {x y : Int} (h : OnScreen x y) (x' y' : Int) {w : Int} (hw : 0 ≤ w) (fg bg : UInt8)
    (v : Vga) :
    (hline x' y' w fg bg v).cell x y =
      if y = y' ∧ x' ≤ x ∧ x < x' + w then entry 0xC4 (entryColor fg bg) else v.cell x y := by
  refine forUp_count (P := fun i (s : Vga) => s.cell x y =
    if y = y' ∧ x' ≤ x ∧ x < x' + i then entry 0xC4 (entryColor fg bg) else v.cell x y) hw ?_ ?_
  · intro i s hlo hhi hs
    rw [Vga.putAt_cell s h, hs]
    split
    · rw [if_pos (by omega)]
    · simp only [show (y = y' ∧ x' ≤ x ∧ x < x' + (i + 1)) ↔ (y = y' ∧ x' ≤ x ∧ x < x' + i) by omega]
  · exact (if_neg (by omega)).symm

/-- A frame with a cleared interior. -/
def bbox (x y w h : Int) (fg bg : UInt8) (v : Vga) : Vga :=
  let v := v.putAt x y 0xDA fg bg
  let v := v.putAt (x + w - 1) y 0xBF fg bg
  let v := v.putAt x (y + h - 1) 0xC0 fg bg
  let v := v.putAt (x + w - 1) (y + h - 1) 0xD9 fg bg
  let v := forUp (fun i v => (v.putAt (x + i) y 0xC4 fg bg).putAt (x + i) (y + h - 1) 0xC4 fg bg) 1 (w - 1) v
  forUp (fun j v =>
    ((v.putAt x (y + j) 0xB3 fg bg).putAt (x + w - 1) (y + j) 0xB3 fg bg).fillRect
      (x + 1) (y + j) (w - 2) 1 32 fg bg) 1 (h - 1) v

/-- A frame with a title. -/
def titbox (x y w h : Int) (title : CStr) (fg bg : UInt8) (v : Vga) : Vga :=
  let tl : Int := title.chars.length
  let tx := x + 2
  let v := bbox x y w h fg bg v
  let v := v.putAt tx y 0xC3 fg bg
  let v := v.writeStrAt (tx + 1) y (some title) fg bg
  v.putAt (tx + 1 + tl) y 0xB4 fg bg

def setStatusbar (msg : CStr) (v : Vga) : Vga :=
  let v := v.fillRect 1 statrow (Vga.width - 14) 1 32 Vga.lightGrey Vga.darkGrey
  v.writeStrAt 1 statrow (some msg) Vga.lightGrey Vga.darkGrey

end Desktop

end FurOS
