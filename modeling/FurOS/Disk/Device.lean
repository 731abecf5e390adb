import FurOS.Kstring

/-! The selected drive, as the disk layer sees it (`kernel/ata.c`).

A drive is its sectors and, for each operation it will ever be asked for, how that
operation ends. A failed transfer reports a message and may leave anything where it
was writing: in the buffer for a read, in the sector for a write. `log` keeps what
the drive has been asked for, the last first. -/
namespace FurOS

abbrev Sector := Fin 512 → UInt8

instance neZero_sector : NeZero 512 := ⟨by decide⟩

/-- How one operation ends; `left` is what a failed transfer leaves where it was writing. -/
inductive Outcome where
  | ok
  | failed (message : CStr) (left : Option Sector)

/-- What `ata_scan` finds: how many devices, and the error it reports for none. -/
structure Scan where
  count : Nat
  lastError : CStr

/-- `ata_selected_device` after the scan: the first device found. -/
def Scan.selected (scan : Scan) : Int := if scan.count > 0 then 0 else -1

/-- One operation, with the sector it addresses. -/
inductive Access where
  | read (lba : Nat)
  | write (lba : Nat)
  | flush
  deriving DecidableEq

structure Drive where
  sectors : Nat → Sector
  ops : Nat
  outcome : Nat → Outcome
  log : List Access := []

namespace Drive

/-- How the next operation ends. -/
def upcoming (d : Drive) : Outcome := d.outcome d.ops

/-- From here on no operation fails. -/
def Healthy (d : Drive) : Prop := ∀ n, d.outcome (d.ops + n) = .ok

end Drive

/-- The message of a failed read (`none` for `return 0`), the buffer and the drive. -/
def ataReadSector (d : Drive) (lba : Nat) (buffer : Sector) : Option CStr × Sector × Drive :=
  let after := {d with ops := d.ops + 1, log := .read lba :: d.log}
  match d.upcoming with
  | .ok => (none, d.sectors lba, after)
  | .failed message left => (some message, left.getD buffer, after)

/-- The message of a failed write (`none` for `return 0`) and the drive. -/
def ataWriteSector (d : Drive) (lba : Nat) (buffer : Sector) : Option CStr × Drive :=
  let after (held : Sector) :=
    {d with sectors := Function.update d.sectors lba held, ops := d.ops + 1, log := .write lba :: d.log}
  match d.upcoming with
  | .ok => (none, after buffer)
  | .failed message left => (some message, after (left.getD (d.sectors lba)))

/-- A flush; what it returns is not looked at. -/
def ataFlush (d : Drive) : Drive := {d with ops := d.ops + 1, log := .flush :: d.log}

theorem ataReadSector_ok {d : Drive} (h : d.upcoming = .ok) (lba : Nat) (buffer : Sector) :
    ataReadSector d lba buffer =
      (none, d.sectors lba, {d with ops := d.ops + 1, log := .read lba :: d.log}) := by
  unfold ataReadSector
  rw [h]

theorem ataWriteSector_ok {d : Drive} (h : d.upcoming = .ok) (lba : Nat) (buffer : Sector) :
    ataWriteSector d lba buffer =
      (none, {d with
        sectors := Function.update d.sectors lba buffer
        ops := d.ops + 1
        log := .write lba :: d.log}) := by
  unfold ataWriteSector
  rw [h]

theorem ataWriteSector_failed {d : Drive} {message : CStr} {left : Option Sector}
    (h : d.upcoming = .failed message left) (lba : Nat) (buffer : Sector) :
    ataWriteSector d lba buffer =
      (some message, {d with
        sectors := Function.update d.sectors lba (left.getD (d.sectors lba))
        ops := d.ops + 1
        log := .write lba :: d.log}) := by
  unfold ataWriteSector
  rw [h]

theorem ataReadSector_failed {d : Drive} (h : d.upcoming ≠ .ok) (lba : Nat) (buffer : Sector) :
    ∃ message, (ataReadSector d lba buffer).1 = some message := by
  unfold ataReadSector
  split
  · exact absurd ‹_› h
  · exact ⟨_, rfl⟩

end FurOS
