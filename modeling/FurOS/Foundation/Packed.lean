import FurOS.Foundation.Buffer

/-! Packed records in buffers of bytes.

A `Field` is a type whose values take a fixed number of bytes and are read back
from them. `store` and `load` place one in a larger buffer; what is stored is
loaded, and a store elsewhere is not seen. A record of fields is a field again. -/
namespace Foundation
open Buffer

/-- A type whose values are kept in `w` bytes. -/
structure Field (w : Nat) (α : Type) where
  put : α → Fin w → UInt8
  get : (Fin w → UInt8) → α
  get_put : ∀ a, get (put a) = a

namespace Field
variable {w w' n : Nat} {α α' : Type}

/-- The value at `off`. -/
def load (f : Field w α) (b : Fin n → UInt8) (off : Nat) (h : off + w ≤ n) : α :=
  f.get (slice b off w h)

/-- The buffer with a value stored at `off`. -/
def store (f : Field w α) (b : Fin n → UInt8) (off : Nat) (a : α) : Fin n → UInt8 :=
  splice b off (f.put a)

theorem load_store (f : Field w α) (b : Fin n → UInt8) (off : Nat) (a : α) (h : off + w ≤ n) :
    f.load (f.store b off a) off h = a := by
  unfold load store
  rw [slice_splice, f.get_put]

theorem load_store_disjoint (f : Field w α) (g : Field w' α') (b : Fin n → UInt8) (off off' : Nat)
    (a : α') (h : off + w ≤ n) (hd : off + w ≤ off' ∨ off' + w' ≤ off) :
    f.load (g.store b off' a) off h = f.load b off h := by
  unfold load store
  rw [slice_splice_disjoint _ _ _ _ _ hd]

/-- The value in block `b` of copied blocks. -/
theorem load_spliceAll (f : Field w α) (a : Fin n → UInt8) (off : Nat) (value : Nat → α)
    (count b : Nat) (hb : b < count) (h : off + b * w + w ≤ n) :
    f.load (spliceAll a off (fun i => f.put (value i)) count) (off + b * w) h = value b := by
  unfold load
  rw [slice_spliceAll _ _ _ _ _ hb, f.get_put]

theorem load_spliceAll_outside (f : Field w α) (a : Fin n → UInt8) (off off' : Nat)
    (blocks : Nat → Fin w' → UInt8) (count : Nat) (h : off' + w ≤ n)
    (hd : off' + w ≤ off ∨ off + count * w' ≤ off') :
    f.load (spliceAll a off blocks count) off' h = f.load a off' h := by
  unfold load
  rw [slice_spliceAll_outside _ _ _ _ _ _ hd]

/-- Loading from the first bytes of a buffer is loading from the buffer. -/
theorem load_slice (f : Field w α) (b : Fin n → UInt8) (m : Nat) (hm : 0 + m ≤ n) (off : Nat)
    (h : off + w ≤ m) : f.load (slice b 0 m hm) off h = f.load b off (by omega) := by
  unfold load
  congr 1
  funext j
  simp [slice]

/-! ### Bytes and little-endian integers -/

def u8 : Field 1 UInt8 where
  put a _ := a
  get b := b 0
  get_put _ := rfl

def u16 : Field 2 UInt16 where
  put a := leBytes 2 a.toNat
  get b := UInt16.ofNat (leNat 2 b)
  get_put a := by rw [leNat_leBytes_of_lt 2 _ a.toNat_lt, UInt16.ofNat_toNat]

def u32 : Field 4 UInt32 where
  put a := leBytes 4 a.toNat
  get b := UInt32.ofNat (leNat 4 b)
  get_put a := by rw [leNat_leBytes_of_lt 4 _ a.toNat_lt, UInt32.ofNat_toNat]

/-- Two's complement. -/
def i32 : Field 4 Int32 where
  put a := u32.put a.toUInt32
  get b := (u32.get b).toInt32
  get_put a := by rw [u32.get_put]; rfl

def bytes (w : Nat) : Field w (Fin w → UInt8) where
  put a := a
  get b := b
  get_put _ := rfl

end Field

end Foundation
