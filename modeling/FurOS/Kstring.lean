import FurOS.Foundation.Buffer
import Mathlib.Logic.Function.Basic

/-! NUL-terminated strings (`kernel/kstring.c`).

A string argument is a `CStr`: its characters up to the terminator, which is not
among them. `lit` gives the bytes of a string literal of the source. -/
namespace FurOS

/-- The bytes of a string literal. -/
def lit (s : String) : List UInt8 := s.toUTF8.data.toList

/-- `'/'`. -/
def slash : UInt8 := 47

/-- What a `const char *` argument points at. -/
structure CStr where
  chars : List UInt8
  noNul : 0 ∉ chars

namespace CStr

theorem ext {a b : CStr} (h : a.chars = b.chars) : a = b := by
  cases a
  cases b
  cases h
  rfl

instance : DecidableEq CStr := fun a b =>
  decidable_of_iff (a.chars = b.chars) ⟨CStr.ext, fun h => by rw [h]⟩

/-- The string that starts where these characters do. -/
def ofChars (chars : List UInt8) : CStr :=
  ⟨chars.takeWhile (fun c => decide (c ≠ 0)), fun h => by simpa using List.mem_takeWhile_imp h⟩

/-- A string literal passed as an argument. -/
def ofLit (s : String) : CStr := ofChars (lit s)

/-- The first `n` characters, copied out and terminated. -/
def take (s : CStr) (n : Nat) : CStr := ⟨s.chars.take n, fun h => s.noNul (List.mem_of_mem_take h)⟩

/-- The string that starts `n` characters further on. -/
def drop (s : CStr) (n : Nat) : CStr := ⟨s.chars.drop n, fun h => s.noNul (List.mem_of_mem_drop h)⟩

/-- The characters before the first that is not `p`, copied out and terminated. -/
def takeWhile (p : UInt8 → Bool) (s : CStr) : CStr :=
  ⟨s.chars.takeWhile p, fun h => s.noNul ((List.takeWhile_prefix p).subset h)⟩

/-- The string that starts at the first character that is not `p`. -/
def dropWhile (p : UInt8 → Bool) (s : CStr) : CStr :=
  ⟨s.chars.dropWhile p, fun h => s.noNul ((List.dropWhile_suffix p).subset h)⟩

@[simp] theorem take_chars (s : CStr) (n : Nat) : (s.take n).chars = s.chars.take n := rfl
@[simp] theorem drop_chars (s : CStr) (n : Nat) : (s.drop n).chars = s.chars.drop n := rfl

end CStr

/-- `kstrcpy` into a character array. -/
def kstrcpy {n : Nat} (dst : Fin n → UInt8) (src : List UInt8) : Fin n → UInt8 :=
  Foundation.Buffer.setText 0 dst src

/-- `kstrncmp`: the difference at the first of `n` characters that differs or ends a string. -/
def kstrncmp : List UInt8 → List UInt8 → Nat → Int
  | x :: a, y :: b, n + 1 => if x ≠ y ∨ x = 0 ∨ y = 0 then (x.toNat : Int) - y.toNat else kstrncmp a b n
  | _, _, _ => 0

/-- The string a character array holds. -/
def cstr {n : Nat} (a : Fin n → UInt8) : List UInt8 := Foundation.Buffer.text 0 a

theorem cstr_noNul {n : Nat} (a : Fin n → UInt8) : 0 ∉ cstr a := Foundation.Buffer.not_mem_text 0 a

theorem cstr_kstrcpy {n : Nat} (dst : Fin n → UInt8) (src : List UInt8) (h0 : 0 ∉ src)
    (hl : src.length < n) : cstr (kstrcpy dst src) = src :=
  Foundation.Buffer.text_setText 0 dst src h0 hl

/-- A terminator set behind the characters. -/
theorem cstr_update {n : Nat} (a : Fin n → UInt8) (p : Fin n) {s : List UInt8} (h0 : 0 ∉ s)
    (hp : p.val = s.length)
    (hs : ∀ (i : Fin n) j (hj : j < s.length), i.val = j → a i = s[j]) : cstr (Function.update a p 0) = s := by
  have hlt : s.length < n := by
    rw [← hp]
    exact p.isLt
  refine (Foundation.Buffer.text_eq_iff 0 _ s h0 hlt).mpr ⟨fun i hi => ?_, ?_⟩
  · have hne : (⟨i, by omega⟩ : Fin n) ≠ p := by
      intro heq
      have := congrArg Fin.val heq
      dsimp only at this
      omega
    rw [Function.update_of_ne hne, hs _ i hi rfl]
  · obtain rfl : (⟨s.length, hlt⟩ : Fin n) = p := Fin.ext hp.symm
    exact Function.update_self _ 0 a

end FurOS
