import FurOS.Desktop.Kate
import FurOS.Foundation.Run
import Mathlib.Data.Nat.Bitwise
import Mathlib.Logic.Function.Basic

/-! The keyboard (`kernel/keyboard.c`).

`keyboard_get_key` takes scancodes until one of them makes a key. What it remembers from one to the
next are the modifiers and whether a prefix has been seen. They are compared with the keys that are
down (`Held`), where a prefixed code belongs to a key of its own. -/
namespace FurOS
open Installer (Key keyUp keyDown)
open Desktop (keyLeft keyRight keyF1 keyF2 keyF3 keyF4)
open Foundation (foldl_along_iff)

def keyF5 : Key := 0x205

structure Keyboard where
  shiftPressed : Bool
  ctrlPressed : Bool
  capsLock : Bool
  /-- The prefix has been seen. -/
  ext : Bool
  deriving DecidableEq

namespace Keyboard

/-- `keyboard_init`. -/
def init : Keyboard := ⟨false, false, false, false⟩

/-! ### Characters -/

/-- `scancode_set1_map`: where it ends, there are only zeros. -/
def scancodeSet1Map : List UInt8 :=
  [0, 27] ++ lit "1234567890-=\x08\tqwertyuiop[]\n" ++ [0] ++ lit "asdfghjkl;'`" ++ [0] ++ lit "\\zxcvbnm,./" ++ [0] ++
    lit "*" ++ [0] ++ lit " " ++ .replicate 25 0 ++ lit "-" ++ .replicate 3 0 ++ lit "+" ++ .replicate 40 0

/-- `scancode_set1_shift_map`. -/
def scancodeSet1ShiftMap : List UInt8 :=
  [0, 27] ++ lit "!@#$%^&*()_+\x08\tQWERTYUIOP\x7b\x7d\n" ++ [0] ++ lit "ASDFGHJKL:\"~" ++ [0] ++ lit "|ZXCVBNM<>?" ++
    [0] ++ lit "*" ++ [0] ++ lit " " ++ .replicate 25 0 ++ lit "-" ++ .replicate 3 0 ++ lit "+" ++ .replicate 40 0

def isAlpha (c : UInt8) : Bool := 97 ≤ c ∧ c ≤ 122 ∨ 65 ≤ c ∧ c ≤ 90

def toUpper (c : UInt8) : UInt8 := if 97 ≤ c ∧ c ≤ 122 then c - (97 - 65) else c

def toLower (c : UInt8) : UInt8 := if 65 ≤ c ∧ c ≤ 90 then c + (97 - 65) else c

/-- What becomes of the character `c` of a scancode. -/
def character (scancode c : UInt8) (k : Keyboard) : UInt8 :=
  let c :=
    if isAlpha c then if k.shiftPressed ^^ k.capsLock then toUpper c else toLower c
    else if k.shiftPressed ∧ scancodeSet1ShiftMap.getD scancode.toNat 0 ≠ 0 then
      scancodeSet1ShiftMap.getD scancode.toNat 0
    else c
  if k.ctrlPressed ∧ isAlpha c then toLower c - 97 + 1 else c

/-! ### Scancodes -/

/-- The keys behind the prefix that are known. -/
def extKey (scancode : UInt8) : Option Key :=
  if scancode = 0x48 then some keyUp
  else if scancode = 0x50 then some keyDown
  else if scancode = 0x4B then some keyLeft
  else if scancode = 0x4D then some keyRight
  else none

def functionKey (scancode : UInt8) : Option Key :=
  if scancode = 0x3B then some keyF1
  else if scancode = 0x3C then some keyF2
  else if scancode = 0x3D then some keyF3
  else if scancode = 0x3E then some keyF4
  else if scancode = 0x3F then some keyF5
  else none

/-- What `keyboard_get_key` does with a scancode: the key that it returns, or `none` where it goes on. -/
def scan (scancode : UInt8) (k : Keyboard) : Option Key × Keyboard :=
  if scancode = 0xE0 then (none, {k with ext := true})
  else if scancode &&& 0x80 ≠ 0 then
    let released := scancode &&& 0x7F
    let k :=
      if released = 0x2A ∨ released = 0x36 then {k with shiftPressed := false}
      else if released = 0x1D then {k with ctrlPressed := false}
      else k
    (none, {k with ext := false})
  else if k.ext then (extKey scancode, {k with ext := false})
  else if scancode = 0x2A ∨ scancode = 0x36 then (none, {k with shiftPressed := true})
  else if scancode = 0x1D then (none, {k with ctrlPressed := true})
  else if scancode = 0x3A then (none, {k with capsLock := !k.capsLock})
  else match functionKey scancode with
    | some key => (some key, k)
    | none =>
      let c := scancodeSet1Map.getD scancode.toNat 0
      if c = 0 then (none, k) else (some (k.character scancode c).toUInt16, k)

/-- `keyboard_get_key` on the scancodes to come, or `none` while it waits for more of them. -/
def getKey (k : Keyboard) : List UInt8 → Option (Key × Keyboard × List UInt8)
  | [] => none
  | scancode :: rest =>
    match k.scan scancode with
    | (some key, k) => some (key, k, rest)
    | (none, k) => getKey k rest

/-- The variables after these scancodes. -/
def scanned (k : Keyboard) (codes : List UInt8) : Keyboard :=
  codes.foldl (fun k scancode => (k.scan scancode).2) k

/-- Whatever is returned in between, the variables depend on the scancodes only. -/
theorem getKey_scanned {k k' : Keyboard} {codes rest : List UInt8} {key : Key}
    (h : k.getKey codes = some (key, k', rest)) : ∃ used, codes = used ++ rest ∧ k' = k.scanned used := by
  induction codes generalizing k with
  | nil => cases h
  | cons scancode codes ih =>
    rw [getKey] at h
    cases hscan : k.scan scancode with
    | mk found after =>
      rw [hscan] at h
      have hafter : k.scanned [scancode] = after := congrArg Prod.snd hscan
      cases found with
      | some _ =>
        cases h
        exact ⟨[scancode], rfl, hafter.symm⟩
      | none =>
        obtain ⟨used, rfl, rfl⟩ := ih h
        refine ⟨scancode :: used, rfl, ?_⟩
        rw [← hafter]
        rfl

end Keyboard

/-! ### Keys that are down -/

/-- A key by its make code, and whether its codes are prefixed. -/
structure Switch where
  prefixed : Bool
  code : UInt8
  deriving DecidableEq

def leftShift : Switch := ⟨false, 0x2A⟩
def rightShift : Switch := ⟨false, 0x36⟩
def leftCtrl : Switch := ⟨false, 0x1D⟩

/-- What has been seen of the keys. -/
structure Held where
  prefixed : Bool
  /-- The key was last seen pressed. -/
  down : Switch → Bool

namespace Held

def init : Held := ⟨false, fun _ => false⟩

/-- A code is of the key with its lower bits, and the upper one says that it is released. -/
def see (scancode : UInt8) (h : Held) : Held :=
  if scancode = 0xE0 then {h with prefixed := true}
  else
    { prefixed := false
      down := Function.update h.down ⟨h.prefixed, scancode &&& 0x7F⟩ (decide (scancode &&& 0x80 = 0)) }

def seen (h : Held) (codes : List UInt8) : Held := codes.foldl (fun h scancode => h.see scancode) h

/-- The code clears a modifier although a key that sets it is still down: the other shift, or one
whose prefixed namesake is released. -/
def Misread (scancode : UInt8) (h : Held) : Prop :=
  scancode = 0xAA ∧ (h.down rightShift ∨ h.prefixed ∧ h.down leftShift) ∨
  scancode = 0xB6 ∧ (h.down leftShift ∨ h.prefixed ∧ h.down rightShift) ∨
  scancode = 0x9D ∧ h.prefixed ∧ h.down leftCtrl

end Held

/-- The modifiers are those of the keys that are down. -/
def Keyboard.Follows (k : Keyboard) (h : Held) : Prop :=
  (k.shiftPressed = true ↔ h.down leftShift ∨ h.down rightShift) ∧ (k.ctrlPressed = true ↔ h.down leftCtrl)

/-! ### One code -/

theorem and_high_eq_zero_iff (s : UInt8) : s &&& 0x80 = 0 ↔ s.toNat < 128 := by
  rw [← UInt8.toNat_inj, UInt8.toNat_and]
  show s.toNat &&& 2 ^ 7 = 0 ↔ _
  have hlt := s.toNat_lt
  rw [Nat.and_two_pow]
  cases h : s.toNat.testBit 7 with
  | true =>
    have := Nat.ge_two_pow_of_testBit h
    simp
    omega
  | false =>
    simp
    rw [Nat.testBit_eq_decide_div_mod_eq] at h
    have := of_decide_eq_false h
    omega

theorem and_low_toNat (s : UInt8) : (s &&& 0x7F).toNat = s.toNat % 128 := by
  rw [UInt8.toNat_and]
  exact Nat.and_two_pow_sub_one_eq_mod s.toNat 7

/-- The key that a code releases. -/
theorem released_iff {s c : UInt8} (hs : s &&& 0x80 ≠ 0) (hc : c.toNat < 128) :
    s &&& 0x7F = c ↔ s = c + 0x80 := by
  rw [Ne, and_high_eq_zero_iff] at hs
  rw [← UInt8.toNat_inj, and_low_toNat, ← UInt8.toNat_inj, UInt8.toNat_add]
  have hlt := s.toNat_lt
  show _ ↔ s.toNat = (c.toNat + 128) % 256
  omega

/-- The key that a code presses. -/
theorem pressed_eq {s : UInt8} (hs : s &&& 0x80 = 0) : s &&& 0x7F = s := by
  rw [and_high_eq_zero_iff] at hs
  rw [← UInt8.toNat_inj, and_low_toNat, Nat.mod_eq_of_lt hs]

namespace Keyboard
variable {scancode : UInt8} (k : Keyboard)

/-- A release counts for the key with and without prefix, and for one shift as for the other. -/
theorem scan_release (hs : scancode &&& 0x80 ≠ 0) (hne : scancode ≠ 0xE0) : (k.scan scancode).2 =
    {k with
      shiftPressed := k.shiftPressed && !decide (scancode = 0xAA ∨ scancode = 0xB6)
      ctrlPressed := k.ctrlPressed && !decide (scancode = 0x9D)
      ext := false} := by
  have hleft : scancode &&& 0x7F = 0x2A ↔ scancode = 0xAA := released_iff hs (by decide)
  have hright : scancode &&& 0x7F = 0x36 ↔ scancode = 0xB6 := released_iff hs (by decide)
  have hctrl : scancode &&& 0x7F = 0x1D ↔ scancode = 0x9D := released_iff hs (by decide)
  rw [scan, if_neg hne, if_pos hs]
  simp only [hleft, hright, hctrl]
  by_cases hshift : scancode = 0xAA ∨ scancode = 0xB6
  · have hno : scancode ≠ 0x9D := by
      rcases hshift with rfl | rfl <;> decide
    simp [hshift, hno]
  · by_cases h : scancode = 0x9D <;> simp [hshift, h]

/-- A key is pressed as a modifier if there was no prefix. -/
theorem scan_press (hs : scancode &&& 0x80 = 0) : (k.scan scancode).2 =
    {k with
      shiftPressed := k.shiftPressed || (!k.ext && decide (scancode = 0x2A ∨ scancode = 0x36))
      ctrlPressed := k.ctrlPressed || (!k.ext && decide (scancode = 0x1D))
      capsLock := k.capsLock ^^ (!k.ext && decide (scancode = 0x3A))
      ext := false} := by
  have hne : scancode ≠ 0xE0 := by
    intro heq
    rw [heq] at hs
    exact absurd hs (by decide)
  rw [scan, if_neg hne, if_neg (not_not.mpr hs)]
  cases hext : k.ext with
  | true => simp
  | false =>
    rw [if_neg Bool.false_ne_true]
    by_cases hshift : scancode = 0x2A ∨ scancode = 0x36
    · have hno : scancode ≠ 0x1D ∧ scancode ≠ 0x3A := by
        rcases hshift with rfl | rfl <;> decide
      simp [hshift, hno]
    by_cases hctrl : scancode = 0x1D
    · simp [hctrl]
    by_cases hcaps : scancode = 0x3A
    · simp [hcaps]
    · have hsame : ({k with ext := false} : Keyboard) = k := by rw [← hext]
      rw [if_neg hshift, if_neg hctrl, if_neg hcaps]
      simp only [hshift, hctrl, hcaps, decide_false, Bool.and_false, Bool.or_false, Bool.xor_false, hsame]
      split
      · rfl
      · split <;> rfl

end Keyboard

namespace Held
variable {scancode : UInt8} (h : Held)

theorem see_release (hs : scancode &&& 0x80 ≠ 0) (hne : scancode ≠ 0xE0) {c : UInt8} (hc : c.toNat < 128) :
    (h.see scancode).down ⟨false, c⟩ = (h.down ⟨false, c⟩ && !(!h.prefixed && decide (scancode = c + 0x80))) := by
  rw [see, if_neg hne]
  simp only [Function.update_apply, Switch.mk.injEq, eq_comm (a := c), released_iff hs hc, hs, decide_false]
  cases h.prefixed <;> by_cases hkey : scancode = c + 0x80 <;> simp [hkey]

theorem see_press (hs : scancode &&& 0x80 = 0) (c : UInt8) :
    (h.see scancode).down ⟨false, c⟩ = (h.down ⟨false, c⟩ || (!h.prefixed && decide (scancode = c))) := by
  have hne : scancode ≠ 0xE0 := by
    intro heq
    rw [heq] at hs
    exact absurd hs (by decide)
  rw [see, if_neg hne]
  simp only [Function.update_apply, Switch.mk.injEq, eq_comm (a := c), pressed_eq hs, hs, decide_true]
  cases h.prefixed <;> by_cases hkey : scancode = c <;> simp [hkey]

end Held

/-! ### Any codes -/

section Run
variable {k : Keyboard} {h : Held} {scancode : UInt8}

theorem ext_scan_eq (scancode : UInt8) :
    (k.scan scancode).2.ext = (h.see scancode).prefixed := by
  by_cases hcode : scancode = 0xE0
  · rw [hcode]
    rfl
  have hseen : (h.see scancode).prefixed = false := by rw [Held.see, if_neg hcode]
  rw [hseen]
  by_cases hs : scancode &&& 0x80 = 0
  · rw [k.scan_press hs]
  · rw [k.scan_release hs hcode]

theorem follows_iff : k.Follows h ↔
    k.shiftPressed = (h.down leftShift || h.down rightShift) ∧ k.ctrlPressed = h.down leftCtrl := by
  rw [Keyboard.Follows, ← Bool.or_eq_true, ← Bool.eq_iff_iff, ← Bool.eq_iff_iff]

/-- Where the modifiers are those of the keys, the next code keeps them so unless it is misread. -/
theorem follows_scan_iff (hext : k.ext = h.prefixed) (hk : k.Follows h) (scancode : UInt8) :
    (k.scan scancode).2.Follows (h.see scancode) ↔ ¬ h.Misread scancode := by
  rw [follows_iff] at hk ⊢
  obtain ⟨hshift, hctrl⟩ := hk
  by_cases hcode : scancode = 0xE0
  · have hread : ¬ h.Misread 0xE0 := by simp [Held.Misread]
    rw [hcode]
    exact ⟨fun _ => hread, fun _ => ⟨hshift, hctrl⟩⟩
  by_cases hs : scancode &&& 0x80 = 0
  · have hread : ¬ h.Misread scancode := by
      intro hmis
      rcases hmis with ⟨heq, -⟩ | ⟨heq, -⟩ | ⟨heq, -⟩
      all_goals
        rw [heq] at hs
        exact absurd hs (by decide)
    have hleft : (h.see scancode).down leftShift = _ := h.see_press hs _
    have hright : (h.see scancode).down rightShift = _ := h.see_press hs _
    have hleftCtrl : (h.see scancode).down leftCtrl = _ := h.see_press hs _
    rw [k.scan_press hs, hleft, hright, hleftCtrl, hext, hshift, hctrl]
    refine ⟨fun _ => hread, fun _ => ⟨?_, rfl⟩⟩
    dsimp only [leftShift, rightShift]
    grind
  · have hleft : (h.see scancode).down leftShift = _ := h.see_release hs hcode (by decide)
    have hright : (h.see scancode).down rightShift = _ := h.see_release hs hcode (by decide)
    have hleftCtrl : (h.see scancode).down leftCtrl = _ := h.see_release hs hcode (by decide)
    rw [k.scan_release hs hcode, hleft, hright, hleftCtrl, hshift, hctrl, Held.Misread]
    dsimp only [leftShift, rightShift, leftCtrl]
    generalize h.down ⟨false, 0x2A⟩ = left
    generalize h.down ⟨false, 0x36⟩ = right
    generalize h.down ⟨false, 0x1D⟩ = ctrl
    by_cases hreleaseL : scancode = 0xAA
    · subst hreleaseL
      cases h.prefixed <;> cases left <;> cases right <;> simp
    by_cases hreleaseR : scancode = 0xB6
    · subst hreleaseR
      cases h.prefixed <;> cases left <;> cases right <;> simp
    by_cases hreleaseC : scancode = 0x9D
    · subst hreleaseC
      cases h.prefixed <;> cases ctrl <;> simp
    · simp [hreleaseL, hreleaseR, hreleaseC]

end Run

/-- A code, as the keyboard takes it and as it is meant. -/
def heard (s : Keyboard × Held) (scancode : UInt8) : Keyboard × Held := ((s.1.scan scancode).2, s.2.see scancode)

theorem foldl_heard (codes : List UInt8) (k : Keyboard) (h : Held) :
    codes.foldl heard (k, h) = (k.scanned codes, h.seen codes) := by
  induction codes generalizing k h with
  | nil => rfl
  | cons scancode rest ih => exact ih (k.scan scancode).2 (h.see scancode)

/-- **The modifiers follow the keys exactly as long as no code is misread**: in every run of codes, they
are those of the keys that are down all along if and only if no code clears one that is still held. -/
theorem modifiers_follow_iff (codes : List UInt8) :
    (∀ pre, pre <+: codes → (Keyboard.init.scanned pre).Follows (Held.init.seen pre)) ↔
      ∀ pre scancode, pre ++ [scancode] <+: codes → ¬ (Held.init.seen pre).Misread scancode := by
  have hrun := foldl_along_iff (f := heard) (P := fun s => s.1.Follows s.2)
    (I := fun s => s.1.ext = s.2.prefixed ∧ s.1.Follows s.2)
    (fun s (scancode : UInt8) hs (hread : ¬ s.2.Misread scancode) =>
      ⟨ext_scan_eq scancode, (follows_scan_iff hs.1 hs.2 scancode).mpr hread⟩)
    (fun s hs => hs.2)
    (fun s scancode hs hmis hf => hmis ((follows_scan_iff hs.1 hs.2 scancode).mp hf))
    (s := (Keyboard.init, Held.init)) ⟨rfl, by simp [Keyboard.Follows, Keyboard.init, Held.init]⟩ codes
  simpa only [foldl_heard] using hrun

/-- Both shifts are pressed, and the right one is released. -/
theorem shift_lost : ¬ (Keyboard.init.scanned [0x2A, 0x36, 0xB6]).Follows (Held.init.seen [0x2A, 0x36, 0xB6]) := by
  intro h
  have hshift := h.1.mpr (.inl rfl)
  exact absurd hshift (by decide)

end FurOS
