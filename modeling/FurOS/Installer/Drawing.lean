import FurOS.Desktop.Drawing
import FurOS.Disk.Discovery
import FurOS.Installer.Install

/-! What the installation wizard draws (`kernel/installer.c`): the strings that it puts together, its boxes and bars, and
each of its pages. -/
namespace FurOS

namespace Vga

def magenta : UInt8 := 5
def lightGreen : UInt8 := 10
def lightMagenta : UInt8 := 13

end Vga

namespace Installer
open Foundation (forUp)

def scrW : Int := 80
def hdrRow : Int := 0
def contTop : Int := 2
def contBot : Int := 20
def sepRow : Int := 21
def hintRow : Int := 22
def statRow : Int := 24

/-! ### Strings -/

/-- What `u32_to_str` leaves in an array of `n` characters, whatever was in it (`u32ToStr_text`). -/
def u32Text (n : Nat) (hn : 2 ≤ n) (v : UInt32) : List UInt8 := cstr (u32ToStr hn v fun _ => 0)

/-- Digits for which there is no room are not copied. -/
theorem u32ToStrFrom_take {n : Nat} (buf : Fin n → UInt8) (p : Fin n) (tmp : List UInt8) :
    u32ToStrFrom buf p (tmp.take (n - 1 - p)) = u32ToStrFrom buf p tmp := by
  induction tmp generalizing buf p with
  | nil => rw [List.take_nil]
  | cons c tmp ih =>
    by_cases hp : p.val + 1 < n
    · have hroom : n - 1 - p.val = n - 1 - (p.val + 1) + 1 := by omega
      rw [hroom, List.take_succ_cons, u32ToStrFrom, u32ToStrFrom, dif_pos hp, dif_pos hp]
      exact ih _ ⟨p.val + 1, hp⟩
    · have hroom : n - 1 - p.val = 0 := by omega
      rw [hroom, List.take_zero, u32ToStrFrom, u32ToStrFrom, dif_neg hp]

/-- **As much of the number as there is room for**, whatever was in the array. -/
theorem u32ToStr_text {n : Nat} (hn : 2 ≤ n) (v : UInt32) (buf : Fin n → UInt8) :
    cstr (u32ToStr hn v buf) = (decimal v.toNat).take (n - 1) := by
  unfold u32ToStr
  dsimp only
  by_cases hv : v = 0
  · have hnone : (digitsRev 0 11).reverse = [] := rfl
    have hone : [(48 : UInt8)].take (n - 1) = [48] := List.take_of_length_le (by rw [List.length_singleton]; omega)
    rw [if_pos hv, hv, decimal_zero, hnone, hone]
    refine cstr_update _ _ (by decide) rfl fun i j hj hij => ?_
    obtain rfl : j = 0 := Nat.lt_one_iff.mp hj
    have hi : i = ⟨0, by omega⟩ := Fin.ext hij
    rw [hi, u32ToStrFrom]
    simp
  · have hdigits : decimal v.toNat = (digitsRev v 11).reverse := decimal_of_ne hv (by decide)
    have htake := u32ToStrFrom_take buf ⟨0, by omega⟩ (decimal v.toNat)
    have hroom : n - 1 - (⟨0, by omega⟩ : Fin n).val = n - 1 := Nat.sub_zero _
    rw [hroom] at htake
    obtain ⟨hend, hcopied, -⟩ := u32ToStrFrom_eq buf ⟨0, by omega⟩ ((decimal v.toNat).take (n - 1))
      (by rw [List.length_take]; show 0 + _ < n; omega)
    rw [if_neg hv, ← hdigits, ← htake]
    refine cstr_update _ _ (fun h => zero_not_mem_decimal _ (List.mem_of_mem_take h)) ?_ fun i j hj hij => ?_
    · rw [hend]
      exact Nat.zero_add _
    · refine hcopied i j hj ?_
      rw [hij]
      exact (Nat.zero_add j).symm

theorem u32Text_eq (n : Nat) (hn : 2 ≤ n) (v : UInt32) : u32Text n hn v = (decimal v.toNat).take (n - 1) :=
  u32ToStr_text hn v _

def hexDigit (d : Nat) : UInt8 := (lit "0123456789ABCDEF").getD d 0

def hex16ToStr (v : UInt16) : List UInt8 :=
  lit "0x" ++ ([12, 8, 4, 0] : List UInt16).map fun shift => hexDigit ((v >>> shift) &&& 0xF).toNat

def hex32ToStr (v : UInt32) : List UInt8 :=
  lit "0x" ++ ([28, 24, 20, 16, 12, 8, 4, 0] : List UInt32).map fun shift => hexDigit ((v >>> shift) &&& 0xF).toNat

/-- `while (src[j] && p < limit) { line[p++] = src[j++]; }`. -/
def appendBelow (limit : Nat) (line src : List UInt8) : List UInt8 := line ++ src.take (limit - line.length)

/-- `str_cat`: the last character of the array is for the terminator. -/
def strCat (dstsz : Nat) (dst src : List UInt8) : List UInt8 := appendBelow (dstsz - 1) dst src

/-! ### Boxes and bars -/

/-- `right` of `draw_header`. -/
def headerRight (step total : UInt32) (name : List UInt8) : List UInt8 :=
  let right := strCat 48 [] (lit "Step ")
  let right := strCat 48 right (u32Text 4 (by decide) step)
  let right := strCat 48 right (lit "/")
  let right := strCat 48 right (u32Text 4 (by decide) total)
  let right := strCat 48 right (lit ": ")
  strCat 48 right name

def drawHeader (step total : UInt32) (name : String) (v : Vga) : Vga :=
  let v := v.fillRect 0 hdrRow scrW 1 32 Vga.white Vga.magenta
  let v := v.fillRect 0 (hdrRow + 1) scrW 1 32 Vga.white Vga.darkGrey
  let v := v.writeStrAt 2 hdrRow (some (.ofLit " FurOS 1.0 Installer ")) Vga.white Vga.magenta
  let right := headerRight step total (lit name)
  let i := scrW - right.length - 2
  v.writeStrAt (if i < 25 then 25 else i) hdrRow (some (.ofChars right)) Vga.white Vga.magenta

def clearContent (v : Vga) : Vga :=
  v.fillRect 0 contTop scrW (contBot - contTop + 1) 32 Vga.lightGrey Vga.black

def bottomText : List UInt8 := lit "FurOS Installer 1.0  " ++ [0xb3] ++ lit "  Based on Debian GNU/Linux 12 Bookworm"

def drawBottom (hint : String) (v : Vga) : Vga :=
  let v := v.fillRect 0 sepRow scrW 1 0xC4 Vga.white Vga.darkGrey
  let v := v.fillRect 0 hintRow scrW 1 32 Vga.white Vga.darkGrey
  let v := v.fillRect 0 statRow scrW 1 32 Vga.white Vga.darkGrey
  let v := v.writeStrAt 2 hintRow (some (.ofLit hint)) Vga.white Vga.darkGrey
  v.writeStrAt 2 statRow (some (.ofChars bottomText)) Vga.white Vga.darkGrey

/-- `box_top` and `box_bot`, which differ in the corners. -/
def boxEnd (left right : UInt8) (x y w : Int) (v : Vga) : Vga :=
  let v := v.putAt x y left Vga.white Vga.darkGrey
  let v := forUp (fun i v => v.putAt (x + i) y 0xC4 Vga.white Vga.darkGrey) 1 (w - 1) v
  v.putAt (x + w - 1) y right Vga.white Vga.darkGrey

def boxTop (x y w : Int) (v : Vga) : Vga := boxEnd 0xDA 0xBF x y w v
def boxBot (x y w : Int) (v : Vga) : Vga := boxEnd 0xC0 0xD9 x y w v

/-- `box_row`, with a text. -/
def boxRow (x y w : Int) (txt : List UInt8) (fg bg : UInt8) (v : Vga) : Vga :=
  let v := v.putAt x y 0xB3 Vga.white Vga.darkGrey
  let v := v.fillRect (x + 1) y (w - 2) 1 32 fg bg
  let tlen := if (txt.length : Int) > w - 2 then w - 2 else txt.length
  let v := forUp (fun i v => v.putAt (x + 1 + i) y (txt.getD i.toNat 0) fg bg) 0 tlen v
  v.putAt (x + w - 1) y 0xB3 Vga.white Vga.darkGrey

/-- `draw_progress`, up to 100. -/
def drawProgress (y : Int) (pct : Nat) (v : Vga) : Vga :=
  let barW := scrW - 18
  let filled := pct * barW / 100
  let v := v.writeStrAt 2 y (some (.ofLit "Progress [")) Vga.lightGrey Vga.black
  let v := forUp (fun i v =>
    if i < filled then v.putAt (12 + i) y 0xDB Vga.lightGreen Vga.black
    else v.putAt (12 + i) y 0xB2 Vga.white Vga.black) 0 barW v
  let v := v.putAt (12 + barW) y 93 Vga.lightGrey Vga.black
  let pstr := strCat 8 (u32Text 8 (by decide) (UInt32.ofNat pct)) (lit "%")
  v.writeStrAt (13 + barW + 1) y (some (.ofChars pstr)) Vga.lightGreen Vga.black

/-- A line of `run_menu`: the mark, and as much of the item as fits. -/
def menuLine (w : Nat) (selected : Bool) (item : List UInt8) : List UInt8 :=
  appendBelow (w - 2) [32, if selected then 0x10 else 32, 32] item

/-- What a round of `run_menu` draws. -/
def drawMenu (x yTop : Int) (w : Nat) (items : List (List UInt8)) (sel : Nat) (v : Vga) : Vga :=
  let v := boxTop x yTop w v
  let v := forUp (fun i v =>
    if i = sel then
      boxRow x (yTop + 1 + i) w (menuLine w true (items.getD i.toNat [])) Vga.white Vga.lightMagenta v
    else boxRow x (yTop + 1 + i) w (menuLine w false (items.getD i.toNat [])) Vga.white Vga.darkGrey v) 0 items.length v
  let v := boxBot x (yTop + items.length + 1) w v
  v.setCursorPos (x + 3) (yTop + 1 + sel)

/-- What a round of `run_input` draws. -/
def drawInput (x y w : Int) (buf : List UInt8) (masked : Bool) (v : Vga) : Vga :=
  let v := boxTop x (y - 1) w v
  let v := v.putAt x y 0xB3 Vga.white Vga.darkGrey
  let v := v.fillRect (x + 1) y (w - 2) 1 32 Vga.white Vga.darkGrey
  let v := forUp (fun i v =>
    if i < buf.length then
      v.putAt (x + 1 + i) y (if masked then 42 else buf.getD i.toNat 0) Vga.white Vga.darkGrey
    else if i = buf.length then v.putAt (x + 1 + i) y 95 Vga.white Vga.darkGrey
    else v) 0 (w - 2) v
  let v := v.putAt (x + w - 1) y 0xB3 Vga.white Vga.darkGrey
  let v := boxBot x (y + 1) w v
  v.setCursorPos (x + 1 + buf.length) y

/-- **A masked text is drawn by its length.** -/
theorem drawInput_masked (x y w : Int) {buf buf' : List UInt8} (h : buf'.length = buf.length) (v : Vga) :
    drawInput x y w buf' true v = drawInput x y w buf true v := by
  unfold drawInput
  rw [h]
  rfl

/-! ### Pages -/

/-- A text in the content area. -/
def sayAt (x y : Int) (text : List UInt8) (fg : UInt8) (v : Vga) : Vga :=
  v.writeStrAt x y (some (.ofChars text)) fg Vga.black

/-- Texts of the source, one after another. -/
def sayAll (texts : List (Int × Int × String × UInt8)) (v : Vga) : Vga :=
  texts.foldl (fun v text => sayAt text.1 text.2.1 (lit text.2.2.1) text.2.2.2 v) v

/-- The header and the bottom of a page, with an empty content. -/
def page (step total : UInt32) (name hint : String) (texts : List (Int × Int × String × UInt8)) (v : Vga) : Vga :=
  drawBottom hint (sayAll texts (clearContent (drawHeader step total name v)))

def logo : List (Int × Int × String × UInt8) :=
  [(22, 4, "  ______           ____  ____", Vga.lightCyan),
    (22, 5, " |  ____|         / __ \\/ ___|", Vga.lightCyan),
    (22, 6, " | |__ _   _ _ __| |  | \\___ \\", Vga.lightCyan),
    (22, 7, " |  __| | | | '__| |  | |___) |", Vga.lightCyan),
    (22, 8, " | |  | |_| | |  | |__| |____/", Vga.lightCyan),
    (22, 9, " |_|   \\__,_|_|   \\____/", Vga.lightCyan)]

/-- What `stage_welcome` draws, for `n` disks. -/
def drawWelcome (n : Int) (v : Vga) : Vga :=
  let v := clearContent (drawHeader 1 7 "Welcome" v)
  let v := sayAll logo v
  let v := sayAll
    [(2, 11, "Welcome to the FurOS 1.0 Installation Wizard", Vga.lightGrey),
      (2, 12, "Based on Debian GNU/Linux 12 (Bookworm)", Vga.white),
      (2, 14, "This wizard will install FurOS to a disk and set up your system.", Vga.white),
      (2, 15, "All data on the chosen disk will be permanently erased.", Vga.lightRed),
      (2, 17, "Disk interface support: IDE (legacy) and AHCI SATA", Vga.white),
      (2, 18, "Disks detected: ", Vga.lightGrey)] v
  let v := sayAt 18 18 (u32Text 8 (by decide) (UInt32.ofInt n)) (if n > 0 then Vga.lightGreen else Vga.lightRed) v
  let v := if n = 0 then
      sayAll [(2, 19, "No disks found! Cannot install. Check disk connection.", Vga.lightRed)] v
    else v
  drawBottom (if n > 0 then "  ENTER: Start Wizard    Q/ESC: Quit Installer" else "  No disks detected. Q/ESC: Quit") v

/-- A line of the menu of disks, `?` for one without a device. -/
def diskLine (i : Nat) : Option Ata.AtaDeviceInfo → List UInt8
  | none => lit "?"
  | some di =>
    let ln := appendBelow 62 (lit "[") (u32Text 12 (by decide) (UInt32.ofNat i))
    let ln := ln ++ lit "]  "
    let ln :=
      if di.isAhci then appendBelow 62 ln (lit "AHCI  ")
      else
        let ln := appendBelow 62 ln (lit (if di.slave ≠ 0 then "IDE Slave  io=" else "IDE Master io="))
        let ln := appendBelow 62 ln (hex16ToStr di.ioBase)
        ln ++ lit "  "
    let ln := appendBelow 62 ln (u32Text 12 (by decide) di.sectors28)
    let ln := appendBelow 62 ln (lit " sectors  ")
    appendBelow 62 ln (cstr di.model)

def moveHint : String := "  \x18\x19: Move   ENTER: Select   ESC/Q: Back"
def inputHint : String := "  ENTER: Confirm   ESC/Q: Back"

/-- What `stage_disk` draws before its menu. -/
def drawDiskPage (v : Vga) : Vga :=
  let v := clearContent (drawHeader 2 7 "Select Disk" v)
  let v := sayAll [(2, contTop, "Select the disk to install FurOS on:", Vga.lightGrey)] v
  let v := sayAt 2 (contTop + 1) ([0xfe] ++ lit " WARNING: All data on the chosen disk will be erased!") Vga.lightRed v
  drawBottom moveHint v

def drawHostnamePage : Vga → Vga :=
  page 3 7 "Hostname" inputHint
    [(2, contTop, "Enter the hostname for this computer:", Vga.lightGrey),
      (2, contTop + 1, "Use lowercase letters, digits, and hyphens only.", Vga.white),
      (2, contTop + 2, "Examples: furos-pc  my-laptop  workstation", Vga.white),
      (2, contTop + 4, "Hostname:", Vga.lightGrey)]

def drawTimezonePage : Vga → Vga :=
  page 4 7 "Timezone" moveHint [(2, contTop, "Select your timezone:", Vga.lightGrey)]

def drawRootPwPage : Vga → Vga :=
  page 5 7 "Root Password" inputHint
    [(2, contTop, "Set the root (administrator) password.", Vga.lightGrey),
      (2, contTop + 1, "Root has full control over the system.", Vga.white),
      (2, contTop + 3, "Password:", Vga.lightGrey),
      (2, contTop + 7, "Confirm password:", Vga.lightGrey)]

def drawUserPage : Vga → Vga :=
  page 6 7 "User Account" inputHint
    [(2, contTop, "Create a regular user account.", Vga.lightGrey),
      (2, contTop + 1, "Use lowercase letters and digits only. Minimum 2 characters.", Vga.white),
      (2, contTop + 3, "Username:", Vga.lightGrey),
      (2, contTop + 7, "Password:", Vga.lightGrey),
      (2, contTop + 11, "Confirm password:", Vga.lightGrey)]

/-- "Passwords do not match!", in this row. -/
def drawMismatch (y : Int) (v : Vga) : Vga :=
  sayAll [(2, y, "Passwords do not match! Press any key to try again.", Vga.lightRed)]
    (v.fillRect 2 y 60 1 32 Vga.lightRed Vga.black)

/-- The line of `stage_summary` about the disk. -/
def summaryDisk (diskIndex : Int) (di : Ata.AtaDeviceInfo) : List UInt8 :=
  let dline := appendBelow 46 (lit "[") (u32Text 12 (by decide) (UInt32.ofInt diskIndex))
  let dline := dline ++ lit "] "
  let dline := appendBelow 46 dline (u32Text 12 (by decide) di.sectors28)
  let dline := appendBelow 46 dline (lit " sectors")
  if cstr di.model = [] then dline else appendBelow 46 (dline ++ lit " ") (cstr di.model)

/-- Whether a password is set, and nothing else of it. -/
def sayPassword (y : Int) (pw : InputBuffer 64) (v : Vga) : Vga :=
  if pw.chars ≠ [] then sayAt 20 y (lit "[set]") Vga.lightGreen v else sayAt 20 y (lit "[empty]") Vga.lightRed v

/-- What `stage_summary` draws before its prompt. -/
def drawSummaryPage (w : Wiz) (di : Option Ata.AtaDeviceInfo) (v : Vga) : Vga :=
  let v := clearContent (drawHeader 7 7 "Summary" v)
  let v := sayAll [(2, contTop, "Installation Summary", Vga.lightGrey)] v
  let v := v.fillRect 2 (contTop + 1) 40 1 0xC4 Vga.white Vga.black
  let v := sayAll [(4, contTop + 3, "Target disk :", Vga.white)] v
  let v := di.elim v fun di => sayAt 20 (contTop + 3) (summaryDisk w.diskIndex di) Vga.lightGreen v
  let v := sayAll [(4, contTop + 4, "Hostname    :", Vga.white)] v
  let v := sayAt 20 (contTop + 4) w.hostname.chars Vga.lightGreen v
  let v := sayAll [(4, contTop + 5, "Timezone    :", Vga.white)] v
  let v := sayAt 20 (contTop + 5) w.timezone.chars Vga.lightGreen v
  let v := sayAll [(4, contTop + 6, "Root pass   :", Vga.white)] v
  let v := sayPassword (contTop + 6) w.rootPw v
  let v := sayAll [(4, contTop + 7, "Username    :", Vga.white)] v
  let v := sayAt 20 (contTop + 7) w.username.chars Vga.lightGreen v
  let v := sayAll [(4, contTop + 8, "User pass   :", Vga.white)] v
  let v := sayPassword (contTop + 8) w.userPw v
  let v := v.fillRect 2 (contTop + 10) 40 1 0xC4 Vga.white Vga.black
  let v := sayAt 2 (contTop + 11) ([0xfe] ++ lit " Type YES and press ENTER to begin installation:") Vga.lightRed v
  drawBottom "  Type YES to confirm   ESC/Q: Go back" v

def markStep (y : Int) (label : String) (col : UInt8) (v : Vga) : Vga :=
  let mark := if col = Vga.lightGreen then 42 else if col = Vga.lightCyan then 126 else 32
  let line := appendBelow (scrW.toNat - 1) ([32, 91, mark] ++ lit "] ") (lit label)
  sayAt 2 y line col (v.fillRect 0 y scrW 1 32 Vga.lightGrey Vga.black)

def stepLabels : List String :=
  [ "Writing bootloader and kernel to disk...", "Formatting filesystem area...", "Creating directory structure...",
    "Writing configuration files...", "Saving filesystem to disk..." ]

def stepPcts : List Nat := [0, 20, 40, 65, 85]

def markStepOf (idx : Nat) (col : UInt8) (v : Vga) : Vga :=
  markStep (contTop + 2 + idx) (stepLabels.getD idx "") col v

/-- What `stage_install` draws before its first step. -/
def drawInstallPage (v : Vga) : Vga :=
  let v := page 7 7 "Installing" "  Please wait — do not power off."
    [(2, contTop, "Installing FurOS 1.0...", Vga.lightGrey)] v
  let v := (List.range 5).foldl (fun v i => markStepOf i Vga.white v) v
  drawProgress (contTop + 8) 0 v

def beginStep (idx : Nat) (v : Vga) : Vga :=
  drawProgress (contTop + 8) (stepPcts.getD idx 0) (markStepOf idx Vga.lightCyan v)

def endStep (idx : Nat) (v : Vga) : Vga := markStepOf idx Vga.lightGreen v

/-- "Installation failed!" at a step. -/
def drawFailed (idx : Nat) (error : CStr) (v : Vga) : Vga :=
  let v := markStepOf idx Vga.lightRed v
  let v := sayAll [(2, contTop + 10, "Installation failed!", Vga.lightRed)] v
  let v := sayAt 2 (contTop + 11) error.chars Vga.lightRed v
  drawBottom "  Press any key to halt." v

/-- What `stage_complete` draws. -/
def drawComplete (w : Wiz) (v : Vga) : Vga :=
  let v := clearContent (drawHeader 7 7 "Complete" v)
  let v := v.fillRect 2 contTop 76 1 0xDB Vga.lightGreen Vga.black
  let v := sayAll [(4, contTop, "  Installation Complete!  ", Vga.lightGreen)] v
  let v := v.fillRect 2 (contTop + 1) 76 1 0xDB Vga.lightGreen Vga.black
  let v := sayAll
    [(2, contTop + 3, "FurOS 1.0 has been installed successfully.", Vga.lightGreen),
      (2, contTop + 5, "To start using FurOS:", Vga.lightGrey),
      (4, contTop + 6, "1. Power off this computer", Vga.white),
      (4, contTop + 7, "2. Remove the installer ISO or USB drive", Vga.white),
      (4, contTop + 8, "3. Power on — FurOS will boot from disk", Vga.white),
      (2, contTop + 10, "Installed as:", Vga.lightGrey),
      (4, contTop + 11, "Hostname : ", Vga.white)] v
  let v := sayAt 15 (contTop + 11) w.hostname.chars Vga.lightGreen v
  let v := sayAll [(4, contTop + 12, "Username : ", Vga.white)] v
  let v := sayAt 15 (contTop + 12) w.username.chars Vga.lightGreen v
  let v := sayAll [(4, contTop + 13, "Timezone : ", Vga.white)] v
  let v := sayAt 15 (contTop + 13) w.timezone.chars Vga.lightGreen v
  drawBottom "  ENTER: Halt system" v

/-- What `show_no_disk` draws. -/
def drawNoDisk (dbg : Ata.AtaDebugState) (error : CStr) (v : Vga) : Vga :=
  let v := clearContent (drawHeader 0 0 "Error" v)
  let v := sayAll [(2, contTop, "No supported disk found!", Vga.lightRed)] v
  let v := sayAt 2 (contTop + 1) error.chars Vga.white v
  let v := sayAll [(2, contTop + 3, "PCI host bridge :", Vga.white)] v
  let v := sayAt 21 (contTop + 3) (hex32ToStr dbg.pciHostId) Vga.lightCyan v
  let v := sayAll [(2, contTop + 4, "PCI 00:13.0 id  :", Vga.white)] v
  let v := sayAt 21 (contTop + 4) (hex32ToStr dbg.pciAhciSlotId) Vga.lightCyan v
  let v := sayAll [(2, contTop + 5, "AHCI seen/ports :", Vga.white)] v
  let tmp := appendBelow 22 [] (u32Text 8 (by decide) (UInt32.ofNat dbg.ahciControllersSeen))
  let tmp := appendBelow 22 (tmp ++ lit "/") (u32Text 8 (by decide) (UInt32.ofNat dbg.ahciPortsConsidered))
  let v := sayAt 21 (contTop + 5) tmp Vga.lightCyan v
  let v := sayAll [(2, contTop + 7, "Attach an ATA/SATA disk and restart the installer.", Vga.white)] v
  drawBottom "  Press any key to halt." v

/-- A cancelled wizard: the screen is cleared. -/
def drawCancelled (v : Vga) : Vga :=
  let v := ({v with vpTop := 0, vpBot := Vga.height - 1}.setColor Vga.lightGrey Vga.black).clear
  (v.writeString (some (.ofLit "Installer cancelled.\n"))).writeString (some (.ofLit "Press any key to halt.\n"))

end Installer

end FurOS
