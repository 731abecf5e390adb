import Mathlib.Tactic.NormNum

/-! Addresses translated by tables, as in 64-bit mode.

A table has 512 entries of eight bytes; `entry` is the number in the eight bytes at a physical address. A walk takes
nine bits of the address for each of four levels, the highest first. It ends at an entry that is not present, at one
that says that a page of its level begins (`large`), or below the last level. `descend_absent`, `descend_table` and
`descend_large` are the three ways of one level. -/
namespace Foundation.Paging

/-- Where an address leads, and what may be done there. -/
structure Page where
  address : Nat
  writable : Bool
  user : Bool

/-- The physical address in an entry, of which the lowest `bits` are none of it. -/
def frame (bits e : Nat) : Nat := e / 2 ^ bits % 2 ^ (52 - bits) * 2 ^ bits

/-- The entry for an address in a table of a level. -/
def entryFor (entry : Nat → Nat) (a level table : Nat) : Nat :=
  entry (table + 8 * (a / 2 ^ (12 + 9 * level) % 512))

/-- The levels below `level`. An entry with bit 63 set is not allowed as long as pages that must not be executed
have not been enabled. -/
def descend (entry : Nat → Nat) (a : Nat) : (level table : Nat) → (writable user : Bool) → Option Page
  | 0, table, writable, user => some ⟨table + a % 4096, writable, user⟩
  | level + 1, table, writable, user =>
    let e := entryFor entry a level table
    let writable := writable && decide (e / 2 % 2 = 1)
    let user := user && decide (e / 4 % 2 = 1)
    if e % 2 = 0 ∨ e / 2 ^ 63 % 2 = 1 then none
    else if level = 0 ∨ e / 128 % 2 = 0 then descend entry a level (frame 12 e) writable user
    -- No page is as large as what an entry of the highest level maps, and a large page has no bits below its address.
    else if level = 3 ∨ e / 2 ^ 13 % 2 ^ (9 * level - 1) ≠ 0 then none
    else some ⟨frame (12 + 9 * level) e + a % 2 ^ (12 + 9 * level), writable, user⟩

/-- Bits 47 to 63 are equal. -/
def Canonical (a : Nat) : Prop := a < 2 ^ 47 ∨ 2 ^ 64 - 2 ^ 47 ≤ a ∧ a < 2 ^ 64

instance : DecidablePred Canonical := fun _ => inferInstanceAs (Decidable (_ ∨ _))

/-- The page behind an address; `none` is a fault. -/
def translate (entry : Nat → Nat) (cr3 a : Nat) : Option Page :=
  if Canonical a then descend entry a 4 (frame 12 cr3) true true else none

section Levels
variable {entry : Nat → Nat} {a level table : Nat} (writable user : Bool)

theorem descend_absent (h : entryFor entry a level table % 2 = 0) :
    descend entry a (level + 1) table writable user = none := by
  rw [descend]
  exact if_pos (.inl h)

/-- An entry that leads to the next table, for all or for the supervisor. -/
theorem descend_table {next : Nat} {flags : Nat} (hflags : flags < 128) (hpresent : flags % 2 = 1)
    (hnext : next % 4096 = 0) (hroom : next < 2 ^ 52) (h : entryFor entry a level table = next + flags) :
    descend entry a (level + 1) table writable user =
      descend entry a level next (writable && decide (flags / 2 % 2 = 1)) (user && decide (flags / 4 % 2 = 1)) := by
  have hframe : frame 12 (next + flags) = next := by
    unfold frame
    norm_num
    omega
  have hwritable : (next + flags) / 2 % 2 = flags / 2 % 2 := by omega
  have huser : (next + flags) / 4 % 2 = flags / 4 % 2 := by omega
  rw [descend, h]
  rw [if_neg (by omega), if_pos (by omega), hframe, hwritable, huser]

/-- An entry of the second level that is for a large page. -/
theorem descend_large {page : Nat} {flags : Nat} (hflags : flags < 4096) (hpresent : flags % 2 = 1)
    (hlarge : flags / 128 % 2 = 1) (hpage : page % 2 ^ 21 = 0) (hroom : page < 2 ^ 52)
    (h : entryFor entry a 1 table = page + flags) :
    descend entry a 2 table writable user = some
      ⟨page + a % 2 ^ 21, writable && decide (flags / 2 % 2 = 1), user && decide (flags / 4 % 2 = 1)⟩ := by
  have hframe : frame 21 (page + flags) = page := by
    unfold frame
    norm_num at hpage ⊢
    omega
  have hreserved : (page + flags) / 2 ^ 13 % 2 ^ 8 = 0 := by omega
  have hwritable : (page + flags) / 2 % 2 = flags / 2 % 2 := by omega
  have huser : (page + flags) / 4 % 2 = flags / 4 % 2 := by omega
  rw [descend, h]
  rw [if_neg (by omega), if_neg (by omega), if_neg (by omega)]
  show some (Page.mk (frame 21 (page + flags) + _) _ _) = _
  rw [hframe, hwritable, huser]

end Levels

end Foundation.Paging
