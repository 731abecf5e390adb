import FurOS.Disk.Programming

/-! What the search for controllers does to configuration space (`ahci_scan_controllers` of `kernel/ata.c`).

A register is reached by its address in one port and its data in another, so an access is two, and a data access
goes wherever the address port was last told. A monitor keeps that address and what was read from
each, and has the functions that are still to come: whatever the registers return, each function is
asked for its identity once and in order, and what is written is the command register of a function
whose class was just found to be one that is looked for, with two bits more than was read there
(`ahciScanControllers_config`). -/
namespace FurOS.Ata
open Foundation (Metered Event Monitor Gives)

/-! ### Addresses -/

namespace PciFunction

/-- A slot that a bus has, and a function that a slot has. -/
def Valid (f : PciFunction) : Prop := f.slot.toNat < 32 ∧ f.func.toNat < 8

end PciFunction

/-- The functions of the second attempt. -/
def fallbackFunctions : List PciFunction := [⟨0, 13, 0⟩, ⟨0, 31, 2⟩, ⟨0, 31, 5⟩]

structure ConfigWatch where
  /-- What the address port was last told. -/
  target : Option UInt32
  /-- What was last read at an address. -/
  read : UInt32 → Option UInt32
  /-- The functions that are still to be asked for their identity. -/
  left : List PciFunction

namespace ConfigWatch

/-- Before the search. -/
def start : ConfigWatch := ⟨none, fun _ => none, pciFunctions ++ fallbackFunctions⟩

/-- An address is told; with that of an identity one function is done with. -/
def aimed (w : ConfigWatch) (address : UInt32) : ConfigWatch :=
  {w with
    target := some address
    left := if address &&& 0xFC = 0 then w.left.tail else w.left}

/-- The data port returns a value. -/
def answered (w : ConfigWatch) (value : UInt32) : ConfigWatch :=
  {w with read := fun a => if w.target = some a then some value else w.read a}

def next (w : ConfigWatch) : Event ScanAccess UInt32 → ConfigWatch
  | .told (.outl port value) => if port = pciConfigAddress then w.aimed value else w
  | .asked (.inl _) value => w.answered value
  | _ => w

/-- An address is that of a register which the search reads, of a function; an identity is that of the
function whose turn it is. -/
def MayAim (w : ConfigWatch) (address : UInt32) : Prop :=
  ∃ f : PciFunction, f.Valid ∧ ∃ offset ∈ ([0x00, 0x04, 0x08, 0x24, 0x28] : List UInt8), address = f.address offset ∧
    (offset = 0 → w.left.head? = some f)

/-- What is written goes to the command register of a function that is looked for, and sets bits 1 and 2 of it. -/
def MayWrite (w : ConfigWatch) (value : UInt32) : Prop :=
  ∃ f : PciFunction, f.Valid ∧ w.target = some (f.address 0x04) ∧
    (∃ classReg, w.read (f.address 0x08) = some classReg ∧ (probedClass classReg 1 = true ∨ f ∈ fallbackFunctions)) ∧
    ∃ command, w.read (f.address 0x04) = some command ∧ value = command ||| 0x6

def Allows (w : ConfigWatch) : Event ScanAccess UInt32 → Prop
  | .told (.outl port value) =>
    (port = pciConfigAddress ∧ w.MayAim value) ∨ (port = pciConfigData ∧ w.MayWrite value)
  | .asked (.inl port) _ => port = pciConfigData ∧ w.target.isSome = true
  | _ => True

end ConfigWatch

section Watched
variable {f : PciFunction}

/-- What a read of a register leaves, where it returns `value`. -/
def ConfigWatch.asked (w : ConfigWatch) (f : PciFunction) (offset : UInt8) (value : UInt32) : ConfigWatch :=
  (w.aimed (f.address offset)).answered value

end Watched

/-! ### The search -/

end FurOS.Ata
