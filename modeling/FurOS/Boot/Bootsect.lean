import FurOS.Disk.Install

/-! The boot sector (`boot/bootsect.S`).

It reads the record about the kernel to address 0600, checks it, reads the kernel
sector by sector to the addresses from 10000 on, and in protected mode copies the
image from there to 100000 and jumps into it. Memory is by physical address. What is
stored at A0000 to FFFFF is not what a read there gives: that is for the machine
to say. -/
namespace FurOS
open Foundation (Field)

/-- What the boot sector runs on: the sectors that `int $0x13` reads (`none` where it sets the carry
flag), and what a read gives where no ordinary memory is. -/
structure Firmware where
  sector : Nat → Option Sector
  window : Nat → UInt8 → UInt8

structure BootState where
  memory : Nat → UInt8
  dapOffset : UInt16
  dapSegment : UInt16
  dapLbaLow : UInt32
  dapLbaHigh : UInt32
  kernelSizeBytes : UInt32
  kernelSectorCount : UInt32
  kernelEntryOffset : UInt32
  /-- Each sector read and the address it went to, the last first. -/
  transfers : List (Nat × Nat)

inductive BootEnd where
  | diskError
  | invalidInfo
  | jumped (entry : UInt32) (s : BootState)

/-- `boot_magic`. -/
def bootMagic : Fin 8 → UInt8 := fun i => (lit "FURBOOT1").getD i 0

section Boot
variable (fw : Firmware)

/-- The byte read at an address. -/
def peek (memory : Nat → UInt8) (a : Nat) : UInt8 :=
  if 0xa0000 ≤ a ∧ a < 0x100000 then fw.window a (memory a) else memory a

def peek32 (memory : Nat → UInt8) (a : Nat) : UInt32 := Field.u32.get fun j => peek fw memory (a + j)

/-- A sector stored in memory. -/
def placeSector (memory : Nat → UInt8) (a : Nat) (content : Sector) : Nat → UInt8 :=
  fun x => if h : a ≤ x ∧ x < a + 512 then content ⟨x - a, by omega⟩ else memory x

/-- `int $0x13` with `AH = 0x42`: the sector that the packet names goes to where it says. -/
def int13 (s : BootState) : Option BootState :=
  let lba := s.dapLbaHigh.toNat * 2 ^ 32 + s.dapLbaLow.toNat
  let a := s.dapSegment.toNat * 16 + s.dapOffset.toNat
  match fw.sector lba with
  | none => none
  | some content =>
    some {s with memory := placeSector s.memory a content, transfers := (lba, a) :: s.transfers}

/-- `check_magic`. -/
def checkMagic (s : BootState) : Bool :=
  (List.finRange 8).all fun si => bootMagic si = peek fw s.memory (0x600 + si)

def readInfo (s : BootState) : BootState :=
  {s with
    kernelSizeBytes := peek32 fw s.memory (0x600 + 8)
    kernelSectorCount := peek32 fw s.memory (0x600 + 12)
    kernelEntryOffset := peek32 fw s.memory (0x600 + 16)}

/-- `load_loop`, from the sector in `cx` on. -/
def loadLoop (count : UInt32) (h : count.toNat ≤ 1920) (cx : UInt16) (s : BootState) : Option BootState :=
  if cx.toUInt32 ≥ count then some s
  else
    match int13 fw
      {s with
        dapOffset := 0
        dapSegment := 0x1000 + (cx <<< (5 : UInt16))
        dapLbaLow := 2 + cx.toUInt32
        dapLbaHigh := 0} with
    | none => none
    | some s => loadLoop count h (cx + 1) s
  termination_by count.toNat - cx.toNat
  decreasing_by
    rename_i hcx
    rw [ge_iff_le, UInt32.le_iff_toNat_le, UInt16.toNat_toUInt32] at hcx
    have hnext : (cx + 1).toNat = (cx.toNat + 1) % 2 ^ 16 := UInt16.toNat_add cx 1
    omega

/-- `rep movsb`. -/
def repMovsb : Nat → UInt32 → UInt32 → (Nat → UInt8) → Nat → UInt8
  | 0, _, _, memory => memory
  | ecx + 1, esi, edi, memory =>
    repMovsb ecx (esi + 1) (edi + 1) (Function.update memory edi.toNat (peek fw memory esi.toNat))

def pmodeEntry (s : BootState) : BootEnd :=
  .jumped (s.kernelEntryOffset + 0x100000)
    {s with memory := repMovsb fw s.kernelSizeBytes.toNat 0x10000 0x100000 s.memory}

/-- From the checks of the three numbers on. -/
def startKernel (s : BootState) : BootEnd :=
  if s.kernelSizeBytes = 0 then .invalidInfo
  else if s.kernelSectorCount = 0 then .invalidInfo
  else if h : s.kernelSectorCount > 1920 then .invalidInfo
  else
    match loadLoop fw s.kernelSectorCount (Nat.not_lt.mp h) 0 s with
    | none => .diskError
    | some s => pmodeEntry fw s

/-- `_start`. -/
def start (s : BootState) : BootEnd :=
  match int13 fw {s with dapOffset := 0x600, dapSegment := 0, dapLbaLow := 1, dapLbaHigh := 0} with
  | none => .diskError
  | some s => if !checkMagic fw s then .invalidInfo else startKernel fw (readInfo fw s)

end Boot

end FurOS
