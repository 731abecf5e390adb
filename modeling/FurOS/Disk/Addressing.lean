import FurOS.Disk.Ahci

/-! What a command is about, and the words of its data.

A drive has seen, when it is sent a command, what was written to its registers until then. `commands` reads
that off the accesses of a run, and `ideCommand` is the only code that adds to it; the waits and
the data loops do not. An AHCI command is read off the memory it was put together in. Both give
the address of the request back (`TaskFile.lba`, `HbaCmdTbl.lba`), and the words of a sector written
are, read again, its bytes. -/
namespace FurOS.Ata
open Foundation (Metered Event)

/-! ### Parts of a number -/

/-- A byte of an address. -/
theorem toNat_lbaByte (lba k : UInt32) (hk : k.toNat < 32) :
    ((lba >>> k) &&& 0xFF).toUInt8.toNat = lba.toNat / 2 ^ k.toNat % 2 ^ 8 := by
  have hmask : (0xFF : UInt32).toNat = 2 ^ 8 - 1 := rfl
  rw [UInt32.toNat_toUInt8, UInt32.toNat_and, hmask, Nat.and_two_pow_sub_one_eq_mod, UInt32.toNat_shiftRight,
    Nat.mod_eq_of_lt hk, Nat.shiftRight_eq_div_pow, Nat.mod_mod]

theorem toNat_lowByte (lba : UInt32) : (lba &&& 0xFF).toUInt8.toNat = lba.toNat % 2 ^ 8 := by
  have hmask : (0xFF : UInt32).toNat = 2 ^ 8 - 1 := rfl
  rw [UInt32.toNat_toUInt8, UInt32.toNat_and, hmask, Nat.and_two_pow_sub_one_eq_mod, Nat.mod_mod]

/-- The high bits of an address, under the bits that select a drive. -/
theorem toNat_hddevsel (lba : UInt32) (i : Fin 4) :
    ((0xE0 : UInt32) ||| ((slaveBit i).toUInt32 <<< 4) ||| ((lba >>> 24) &&& 0x0F)).toUInt8.toNat =
      (if ideSlave i then 0xF0 else 0xE0) + lba.toNat / 2 ^ 24 % 2 ^ 4 := by
  have hhigh : ((0xE0 : UInt32) ||| ((slaveBit i).toUInt32 <<< 4)).toNat =
      (if ideSlave i then 0xF else 0xE) <<< 4 := by
    unfold slaveBit
    cases ideSlave i <;> rfl
  have hmask : (0x0F : UInt32).toNat = 2 ^ 4 - 1 := rfl
  have hlow : ((lba >>> 24) &&& 0x0F).toNat = lba.toNat / 2 ^ 24 % 2 ^ 4 := by
    rw [UInt32.toNat_and, hmask, Nat.and_two_pow_sub_one_eq_mod, UInt32.toNat_shiftRight,
      Nat.shiftRight_eq_div_pow]
    rfl
  rw [UInt32.toNat_toUInt8, UInt32.toNat_or, hhigh, hlow,
    ← Nat.shiftLeft_add_eq_or_of_lt (Nat.mod_lt _ (by decide)), Nat.shiftLeft_eq]
  split <;> omega

/-! ### The registers of a drive -/

/-- The registers that say what a command is about. -/
structure TaskFile where
  seccount : UInt8
  lba0 : UInt8
  lba1 : UInt8
  lba2 : UInt8
  hddevsel : UInt8

namespace TaskFile

/-- What a write to a port leaves. -/
def put (ioBase port : UInt16) (value : UInt8) (r : TaskFile) : TaskFile :=
  if port = ioBase + 2 then {r with seccount := value}
  else if port = ioBase + 3 then {r with lba0 := value}
  else if port = ioBase + 4 then {r with lba1 := value}
  else if port = ioBase + 5 then {r with lba2 := value}
  else if port = ioBase + 6 then {r with hddevsel := value}
  else r

/-- The address: the lowest bytes in registers of their own, and four bits beside the drive. -/
def lba (r : TaskFile) : Nat :=
  r.lba0.toNat + 2 ^ 8 * r.lba1.toNat + 2 ^ 16 * r.lba2.toNat + 2 ^ 24 * (r.hddevsel.toNat % 2 ^ 4)

/-- The bit that selects the slave. -/
def slave (r : TaskFile) : Bool := r.hddevsel.toNat.testBit 4

/-- The bit that says that the address is one, and not a cylinder and a head. -/
def lbaMode (r : TaskFile) : Bool := r.hddevsel.toNat.testBit 6

end TaskFile

/-- A command, with the registers when it was sent. -/
structure IdeTask where
  command : UInt8
  file : TaskFile

/-- The commands that a channel was sent; `r` is what its registers had at first. -/
def commands (ioBase : UInt16) : TaskFile → Trace → List IdeTask
  | _, [] => []
  | r, .told (.outb port value) :: log =>
    if port = ioBase + 7 then ⟨value, r⟩ :: commands ioBase r log
    else commands ioBase (r.put ioBase port value) log
  | r, _ :: log => commands ioBase r log

/-- The command is for one sector, at this address of this drive. -/
structure IdeTask.Addresses (t : IdeTask) (command : UInt8) (lba : Nat) (slave : Bool) : Prop where
  command : t.command = command
  lba : t.file.lba = lba
  slave : t.file.slave = slave
  lbaMode : t.file.lbaMode
  seccount : t.file.seccount = 1

/-- What `ideCommand` leaves in the registers. -/
def taskFile (i : Fin 4) (lba : UInt32) : TaskFile :=
  { seccount := 1
    lba0 := (lba &&& 0xFF).toUInt8
    lba1 := ((lba >>> 8) &&& 0xFF).toUInt8
    lba2 := ((lba >>> 16) &&& 0xFF).toUInt8
    hddevsel := ((0xE0 : UInt32) ||| ((slaveBit i).toUInt32 <<< 4) ||| ((lba >>> 24) &&& 0x0F)).toUInt8 }

theorem taskFile_hddevsel (i : Fin 4) (lba : UInt32) : (taskFile i lba).hddevsel.toNat =
    (if ideSlave i then 0xF0 else 0xE0) + lba.toNat / 2 ^ 24 % 2 ^ 4 := toNat_hddevsel lba i

theorem taskFile_lba (i : Fin 4) (lba : UInt32) : (taskFile i lba).lba = lba28 lba := by
  have h8 := toNat_lbaByte lba 8 (by decide)
  have h16 := toNat_lbaByte lba 16 (by decide)
  change _ = lba.toNat / 2 ^ 8 % 2 ^ 8 at h8
  change _ = lba.toNat / 2 ^ 16 % 2 ^ 8 at h16
  unfold TaskFile.lba taskFile lba28
  dsimp only
  rw [toNat_lowByte, h8, h16, toNat_hddevsel]
  split <;> omega

/-- The registers address what the request does, up to the bits that do not fit. -/
theorem taskFile_addresses (i : Fin 4) (lba : UInt32) (command : UInt8) :
    IdeTask.Addresses ⟨command, taskFile i lba⟩ command (lba28 lba) (ideSlave i) where
  command := rfl
  lba := taskFile_lba i lba
  slave := by
    show (taskFile i lba).hddevsel.toNat.testBit 4 = _
    rw [taskFile_hddevsel, Nat.testBit_eq_decide_div_mod_eq]
    cases ideSlave i with
    | false =>
      rw [decide_eq_false_iff_not, if_neg Bool.false_ne_true]
      omega
    | true =>
      rw [decide_eq_true_iff, if_pos rfl]
      omega
  lbaMode := by
    show (taskFile i lba).hddevsel.toNat.testBit 6 = true
    rw [taskFile_hddevsel, Nat.testBit_eq_decide_div_mod_eq, decide_eq_true_iff]
    split <;> omega
  seccount := rfl

/-! ### Accesses that are no command -/

/-- An access of a wait: a status or a register read, or the pause between two. -/
def Polls : Event Access UInt32 → Prop
  | .asked (.inb _) _ => True
  | .asked (.load _ _) _ => True
  | .told (.outb port _) => port = 0x80
  | _ => False

theorem ideDelay400ns_polls (ioBase : UInt16) : (ideDelay400ns ioBase).Emits Polls := by
  have hinb : (inb (ioBase + 0x206)).Emits Polls := (Metered.Emits.ask fun _ => trivial).bind fun _ => .pure _
  exact hinb.bind fun _ => hinb.bind fun _ => hinb.bind fun _ => hinb.bind fun _ => .pure _

theorem errorIde_polls (message : CStr) (ioBase : UInt16) (status : UInt8) :
    (errorIde message ioBase status).Emits Polls :=
  ((Metered.Emits.ask fun _ => trivial).bind fun _ => .pure _ : (inb (ioBase + 1)).Emits Polls).bind fun _ => .pure _

theorem idePoll_polls (verdict : UInt8 → Verdict) (timeout : CStr) (ioBase : UInt16) (status : UInt8)
    (attempts : Nat) : (idePoll verdict timeout ioBase status attempts).Emits Polls := by
  induction attempts generalizing status with
  | zero => exact (errorIde_polls timeout ioBase status).bind fun _ => .pure _
  | succ attempts ih =>
    have hinb : (inb (ioBase + 7)).Emits Polls := (Metered.Emits.ask fun _ => trivial).bind fun _ => .pure _
    refine hinb.bind fun status => ?_
    cases verdict status with
    | again => exact (Metered.Emits.tell rfl : ioWait.Emits Polls).bind fun _ => ih status
    | done => exact .pure _
    | failed message => exact (errorIde_polls message ioBase status).bind fun _ => .pure _

theorem ideWait_polls (verdict : UInt8 → Verdict) (timeout : CStr) (ioBase : UInt16) :
    (ideWait verdict timeout ioBase).Emits Polls :=
  (ideDelay400ns_polls ioBase).bind fun _ => idePoll_polls verdict timeout ioBase 0 ataPollAttempts

/-- Two bytes of a buffer, taken from a word. -/
def putWord (buffer : Sector) (i : Fin 256) (word : UInt16) : Sector :=
  Function.update (Function.update buffer (lowAt i) (word &&& 0xFF).toUInt8)
    (highAt i) (word >>> 8).toUInt8

/-- Every byte of a buffer is in a word. -/
theorem exists_place (k : Fin 512) : ∃ i, k = lowAt i ∨ k = highAt i := by
  refine ⟨⟨k.val / 2, by omega⟩, ?_⟩
  rcases Nat.mod_two_eq_zero_or_one k.val with hlow | hhigh
  · exact .inl (Fin.ext (by show k.val = k.val / 2 * 2; omega))
  · exact .inr (Fin.ext (by show k.val = k.val / 2 * 2 + 1; omega))

theorem lowAt_ne_highAt (i j : Fin 256) : lowAt i ≠ highAt j := by
  intro h
  have hval : i.val * 2 = j.val * 2 + 1 := congrArg Fin.val h
  omega

theorem lowAt_injective {i j : Fin 256} (h : lowAt i = lowAt j) : i = j := by
  have hval : i.val * 2 = j.val * 2 := congrArg Fin.val h
  exact Fin.ext (by omega)

theorem highAt_injective {i j : Fin 256} (h : highAt i = highAt j) : i = j := by
  have hval : i.val * 2 + 1 = j.val * 2 + 1 := congrArg Fin.val h
  exact Fin.ext (by omega)

/-- The two bytes of a word are in the buffer. -/
def HoldsWord (buffer : Sector) (i : Fin 256) (word : UInt16) : Prop :=
  buffer (lowAt i) = (word &&& 0xFF).toUInt8 ∧ buffer (highAt i) = (word >>> 8).toUInt8

theorem HoldsWord.congr {buffer b : Sector} {i : Fin 256} {word : UInt16} (h : HoldsWord buffer i word)
    (hlow : b (lowAt i) = buffer (lowAt i)) (hhigh : b (highAt i) = buffer (highAt i)) : HoldsWord b i word :=
  ⟨hlow.trans h.1, hhigh.trans h.2⟩

theorem putWord_holds (buffer : Sector) (i : Fin 256) (word : UInt16) : HoldsWord (putWord buffer i word) i word := by
  unfold HoldsWord putWord
  rw [Function.update_of_ne (lowAt_ne_highAt i i), Function.update_self, Function.update_self]
  exact ⟨rfl, rfl⟩

theorem putWord_other (buffer : Sector) {i j : Fin 256} (word : UInt16) (h : j ≠ i) :
    putWord buffer i word (lowAt j) = buffer (lowAt j) ∧ putWord buffer i word (highAt j) = buffer (highAt j) := by
  have hlow : lowAt j ≠ lowAt i := fun heq => h (lowAt_injective heq)
  have hhigh : highAt j ≠ highAt i := fun heq => h (highAt_injective heq)
  unfold putWord
  rw [Function.update_of_ne (lowAt_ne_highAt j i), Function.update_of_ne hlow, Function.update_of_ne hhigh,
    Function.update_of_ne (lowAt_ne_highAt i j).symm]
  exact ⟨rfl, rfl⟩

/-- A word has the two bytes it was made of. -/
theorem toNat_wordAt (buffer : Sector) (i : Fin 256) : (wordAt buffer i).toNat =
    (buffer (highAt i)).toNat * 2 ^ 8 + (buffer (lowAt i)).toNat := by
  have hlow := (buffer (lowAt i)).toNat_lt
  have hhigh := (buffer (highAt i)).toNat_lt
  unfold wordAt
  rw [UInt16.toNat_or, UInt16.toNat_shiftLeft, UInt8.toNat_toUInt16, UInt8.toNat_toUInt16, Nat.or_comm]
  change (_ <<< 8) % 2 ^ 16 ||| _ = _
  rw [Nat.mod_eq_of_lt (by rw [Nat.shiftLeft_eq]; omega), ← Nat.shiftLeft_add_eq_or_of_lt hlow, Nat.shiftLeft_eq]

theorem holdsWord_wordAt (buffer : Sector) (i : Fin 256) : HoldsWord buffer i (wordAt buffer i) := by
  have hlow := (buffer (lowAt i)).toNat_lt
  have hhigh := (buffer (highAt i)).toNat_lt
  have hmask : (0xFF : UInt16).toNat = 2 ^ 8 - 1 := rfl
  constructor
  · apply UInt8.toNat_inj.mp
    rw [UInt16.toNat_toUInt8, UInt16.toNat_and, hmask, Nat.and_two_pow_sub_one_eq_mod, toNat_wordAt]
    omega
  · apply UInt8.toNat_inj.mp
    rw [UInt16.toNat_toUInt8, UInt16.toNat_shiftRight, toNat_wordAt]
    change _ = (_ >>> 8) % 2 ^ 8
    rw [Nat.shiftRight_eq_div_pow]
    omega

/-- A buffer is known by its words. -/
theorem eq_of_holdsWord {b b' : Sector} {word : Fin 256 → UInt16} (h : ∀ i, HoldsWord b i (word i))
    (h' : ∀ i, HoldsWord b' i (word i)) : b = b' := by
  funext k
  obtain ⟨i, rfl | rfl⟩ := exists_place k
  · exact (h i).1.trans (h' i).1.symm
  · exact (h i).2.trans (h' i).2.symm

/-! ### A sector through the ports -/

theorem ideRequest_ok {s : Driver} {i j : Fin 4} {address : UInt64} {invalid : CStr}
    (h : ideRequest s i.val address invalid = .ok j) : j = i := by
  rw [ideRequest, ideIndex_ofNat] at h
  dsimp only at h
  split at h
  · cases h
  · split at h <;> cases h
    rfl

section Sectors
variable {α : Type} {s s' : Driver} {i : Fin 4} {lba : UInt32} {address : UInt64} {buffer b : Sector}
  {σ : Nat → UInt32} {status : Int} {log : Trace}

theorem ideRequest_present {invalid : CStr} (hi : (s.ide i).present) (haddress : address ≠ 0) :
    ideRequest s i.val address invalid = .ok i := by
  rw [ideRequest, ideIndex_ofNat]
  dsimp only
  rw [if_neg haddress, hi]
  rfl

end Sectors

/-! ### A sector through AHCI -/

namespace HbaCmdTbl

/-- The address in the FIS of a command: the bytes on both sides of the device register. -/
def lba (tbl : HbaCmdTbl) : Nat :=
  (tbl.cfis ⟨4, by decide⟩).toNat + 2 ^ 8 * (tbl.cfis ⟨5, by decide⟩).toNat +
    2 ^ 16 * (tbl.cfis ⟨6, by decide⟩).toNat + 2 ^ 24 * (tbl.cfis ⟨8, by decide⟩).toNat +
    2 ^ 32 * (tbl.cfis ⟨9, by decide⟩).toNat + 2 ^ 40 * (tbl.cfis ⟨10, by decide⟩).toNat

/-- The number of sectors. -/
def count (tbl : HbaCmdTbl) : Nat :=
  (tbl.cfis ⟨12, by decide⟩).toNat + 2 ^ 8 * (tbl.cfis ⟨13, by decide⟩).toNat

/-- The table has a command about so many sectors from this address, and a block for as many bytes. -/
structure Addresses (tbl : HbaCmdTbl) (command : UInt8) (lba sectors : Nat) : Prop where
  fisType : tbl.cfis ⟨0, by decide⟩ = 0x27
  isCommand : (tbl.cfis ⟨1, by decide⟩).toNat.testBit 7
  command : tbl.cfis ⟨2, by decide⟩ = command
  lba : tbl.lba = lba
  lbaMode : (tbl.cfis ⟨7, by decide⟩).toNat.testBit 6
  count : tbl.count = sectors
  bytes : tbl.prdtEntry.dbcI.toNat + 1 = sectors * 512

end HbaCmdTbl

theorem load_polls (hba : UInt64) (reg : HbaReg) : (load hba reg).Emits Polls := Metered.Emits.ask fun _ => trivial

theorem ioWait_polls : ioWait.Emits Polls := Metered.Emits.tell rfl

theorem errorAhci_polls (s : State) (message : CStr) (port : UInt64) : (errorAhci s message port).Emits Polls :=
  (load_polls port .tfd).bind fun _ => (load_polls port .tfd).bind fun _ => .pure _

end FurOS.Ata
