import FurOS.Kstring

/-! What the shell prints, and how it reads numbers and names (`kernel/shell.c`).

`Text` is what a command asks of the screen driver, in order. Most of it is
literals of the source: `write` and `println` take them as they stand there. -/
namespace FurOS

/-- One request to the screen driver (`kernel/vga.c`). -/
inductive Out where
  | putchar (c : UInt8)
  | backspace
  | clear
  | setColor (fg bg : UInt8)
  deriving DecidableEq

abbrev Text := List Out

/-- The characters that are written. -/
def written (text : Text) : List UInt8 :=
  text.filterMap fun
    | .putchar c => some c
    | _ => none

def vgaColorBlack : UInt8 := 0
def vgaColorLightGrey : UInt8 := 7
def vgaColorLightGreen : UInt8 := 10
def vgaColorLightCyan : UInt8 := 11
def vgaColorLightRed : UInt8 := 12

def vgaWriteString (s : List UInt8) : Text := s.map .putchar

/-- `vga_write_string` of a literal. -/
def write (s : String) : Text := vgaWriteString (lit s)

def shellPrintln (text : List UInt8) : Text := vgaWriteString text ++ write "\n"

/-- `shell_println` of a literal. -/
def println (s : String) : Text := shellPrintln (lit s)

/-- `kstrcmp` with a literal answers `0`. -/
def CStr.is (s : CStr) (text : String) : Bool := decide (s.chars = lit text)

@[simp] theorem written_append (a b : Text) : written (a ++ b) = written a ++ written b :=
  List.filterMap_append ..

@[simp] theorem written_vgaWriteString (s : List UInt8) : written (vgaWriteString s) = s := by
  induction s with
  | nil => rfl
  | cons c rest ih =>
    show c :: written (vgaWriteString rest) = c :: rest
    rw [ih]

/-! ### Characters -/

def isSpace (c : UInt8) : Bool := c = 32 || c = 9
def isPrintable (c : UInt8) : Bool := c ≥ 32 && c ≤ 126
def isDigit (c : UInt8) : Bool := c ≥ 48 && c ≤ 57
def isOctalDigit (c : UInt8) : Bool := c ≥ 48 && c ≤ 55

/-- A character array of `cap` bytes with the string it holds: room for the terminator remains. -/
structure CharBuffer (cap : Nat) where
  chars : List UInt8
  fits : chars.length < cap

namespace CharBuffer
variable {cap : Nat}

/-- `buf[len++] = c`, after the check that there is room. -/
def push (buf : CharBuffer cap) (c : UInt8) (h : buf.chars.length + 1 < cap) : CharBuffer cap :=
  ⟨buf.chars ++ [c], by simpa using h⟩

/-- `len--`. -/
def back (buf : CharBuffer cap) : CharBuffer cap :=
  ⟨buf.chars.dropLast, by
    have := buf.fits
    rw [List.length_dropLast]
    omega⟩

end CharBuffer

/-! ### Users and numbers -/

def shellUidRoot : UInt16 := 0
def shellUidDebian : UInt16 := 1000

def uidToName (uid : UInt16) : List UInt8 :=
  if uid = shellUidRoot then lit "root"
  else if uid = shellUidDebian then lit "debian"
  else lit "user"

/-- The loop of `parse_u32`; the value wraps as `uint32_t` does. -/
def parseU32From (value : UInt32) : List UInt8 → Option UInt32
  | [] => some value
  | c :: rest => if !isDigit c then none else parseU32From (value * 10 + (c - 48).toUInt32) rest

/-- `none` is `return -1`. -/
def parseU32 (s : List UInt8) : Option UInt32 := if s = [] then none else parseU32From 0 s

def parseModeOctalFrom (value : UInt32) : List UInt8 → Option UInt32
  | [] => some value
  | c :: rest =>
    if !isOctalDigit c then none
    else
      let value := (value <<< 3) + (c - 48).toUInt32
      if value > 0o777 then none else parseModeOctalFrom value rest

def parseModeOctal (s : List UInt8) : Option UInt16 :=
  if s = [] then none else (parseModeOctalFrom 0 s).map (·.toUInt16)

def parseUid (name : CStr) : Option UInt16 :=
  if name.is "root" then some shellUidRoot
  else if name.is "debian" then some shellUidDebian
  else
    match parseU32 name.chars with
    | none => none
    | some numeric => if numeric > 65535 then none else some numeric.toUInt16

/-- The digits of a number, the last first, in a buffer with room for so many. -/
def digitsRev (value : UInt32) : Nat → List UInt8
  | 0 => []
  | room + 1 =>
    if value = 0 then [] else (48 + (value % 10).toUInt8) :: digitsRev (value / 10) room

def shellPrintUint (value : UInt32) : Text :=
  if value = 0 then [.putchar 48] else vgaWriteString (digitsRev value 11).reverse

/-- What `require_root` prints when it refuses. -/
def requireRoot (uid : UInt16) : Option Text :=
  if uid ≠ shellUidRoot then some (println "permission denied (requires root, use sudo)") else none

end FurOS
