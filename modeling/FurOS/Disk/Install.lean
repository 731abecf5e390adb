import FurOS.Disk.Store
import FurOS.Foundation.Updates

/-! Installing the boot area (`disk_install_system` of `kernel/disk.c`).

The boot sector goes to sector 0, a record about the kernel to sector 1
(`BOOT_INFO_LBA`) and the kernel image to the sectors from 2 on
(`KERNEL_LBA_START`). The writes are made in that order, and the first that fails
ends them: what it leaves is `updates` of the disk by those before it. -/
namespace FurOS
open Foundation (Field updates)
open Foundation.Buffer (splice)

/-- Bytes that the linker placed between two symbols. -/
structure Blob where
  size : UInt64
  byte : Nat → UInt8

/-- What is linked into the running system: the boot sector, the kernel image and where
`_start32` lies in it. -/
structure Linked where
  bootsect : Blob
  kernel : Blob
  start32 : UInt64

/-- `struct boot_info_sector`, up to its padding. -/
structure BootInfo where
  magic : Fin 8 → UInt8
  kernelSizeBytes : UInt32
  kernelSectors : UInt32
  entryOffset : UInt32
  reserved : UInt32

def BootInfo.field : Field 24 BootInfo where
  put info := Field.u32.store (Field.u32.store (Field.u32.store (Field.u32.store
    ((Field.bytes 8).store (fun _ => 0) 0 info.magic) 8 info.kernelSizeBytes) 12 info.kernelSectors)
    16 info.entryOffset) 20 info.reserved
  get b :=
    { magic := (Field.bytes 8).load b 0 (by decide)
      kernelSizeBytes := Field.u32.load b 8 (by decide)
      kernelSectors := Field.u32.load b 12 (by decide)
      entryOffset := Field.u32.load b 16 (by decide)
      reserved := Field.u32.load b 20 (by decide) }
  get_put info := by
    simp (disch := decide) only [Field.load_store, Field.load_store_disjoint]

/-- The record that a sector begins with. -/
def BootInfo.ofSector (s : Sector) : BootInfo := BootInfo.field.load s 0 (by decide)

/-- `BOOT_INFO_MAGIC`. -/
def bootInfoMagic : Fin 8 → UInt8 := fun i => (lit "FURBOOT1").getD i 0

namespace Linked

/-- How many sectors the kernel takes: a division of `size_t`s, stored in 32 bits. -/
def kernelSectors (l : Linked) : UInt32 := ((l.kernel.size + 512 - 1) / 512).toUInt32

def bootInfo (l : Linked) : BootInfo :=
  { magic := bootInfoMagic
    kernelSizeBytes := l.kernel.size.toUInt32
    kernelSectors := l.kernelSectors
    entryOffset := l.start32.toUInt32
    reserved := 0 }

def bootSector (l : Linked) : Sector := fun j => l.bootsect.byte j

def bootInfoSector (l : Linked) : Sector := BootInfo.field.store (fun _ => 0) 0 l.bootInfo

/-- Kernel sector `i`: what remains of the image, at most a sector of it, and zeros. -/
def kernelSector (l : Linked) (i : Nat) : Sector :=
  let offset := i * 512
  let remain := l.kernel.size.toNat - offset
  let chunk := if remain ≥ 512 then 512 else remain
  fun j => if j.val < chunk then l.kernel.byte (offset + j) else 0

/-- Every sector to be written, with its place. -/
def layout (l : Linked) : List (Nat × Sector) :=
  (0, l.bootSector) :: (1, l.bootInfoSector) ::
    (List.range l.kernelSectors.toNat).map fun i => (2 + i, l.kernelSector i)

end Linked

/-- The first check of `disk_install_system` that fails, given what `disk_get_info` says of the size
of the selected disk. -/
def installRefused (l : Linked) (sectors28 : Option UInt32) (d : Disk) : Option CStr :=
  if !diskAvailable d then some (.ofLit "disk unavailable")
  else if sectors28.any fun n => decide (n > 0 ∧ n < 2048 + 4096) then
    some (.ofLit "disk too small for FurOS (need 3 MB minimum)")
  else if l.bootsect.size < 512 then some (.ofLit "boot sector blob missing")
  else if l.kernel.size = 0 ∨ l.start32 ≥ l.kernel.size then some (.ofLit "invalid kernel image bounds")
  else if l.kernelSectors = 0 ∨ l.kernelSectors > 1920 then some (.ofLit "kernel too large for bootloader")
  else none

/-- The writes in order, each through the sector buffer. -/
def writeSectors : List (Nat × Sector) → Disk → Int × Disk
  | [], d => (0, d)
  | (lba, content) :: rest, d =>
    match ataWriteSector d.drive lba content with
    | (some message, drive) => (-1, {d with sector := content, drive := drive, lastError := message})
    | (none, drive) => writeSectors rest {d with sector := content, drive := drive}

def diskInstallSystem (l : Linked) (sectors28 : Option UInt32) (d : Disk) : Int × Disk :=
  match installRefused l sectors28 d with
  | some message => (-1, {d with lastError := message})
  | none =>
    match writeSectors l.layout d with
    | (status, d) =>
      if status ≠ 0 then (-1, d)
      else (0, {d with drive := ataFlush d.drive, lastError := .ofLit "ok"})

/-! ### What the writes leave -/

theorem writeSectors_append {done : List (Nat × Sector)} {d : Disk}
    (hok : ∀ k < done.length, d.drive.outcome (d.drive.ops + k) = .ok) (rest : List (Nat × Sector)) :
    ∃ d' : Disk, writeSectors (done ++ rest) d = writeSectors rest d' ∧
      d'.drive.sectors = updates d.drive.sectors done ∧ d'.drive.ops = d.drive.ops + done.length ∧
      d'.drive.outcome = d.drive.outcome := by
  induction done generalizing d with
  | nil => exact ⟨d, rfl, rfl, rfl, rfl⟩
  | cons p done ih =>
    obtain ⟨lba, content⟩ := p
    have hup : d.drive.upcoming = .ok := hok 0 (by simp)
    obtain ⟨d', heq, hsectors, hops, hout⟩ := ih
      (d := {d with
        sector := content
        drive :=
          {d.drive with
            sectors := Function.update d.drive.sectors lba content
            ops := d.drive.ops + 1
            log := .write lba :: d.drive.log}})
      (fun k hk => by
        have := hok (k + 1) (by simpa using hk)
        rwa [← Nat.add_assoc, Nat.add_right_comm] at this)
    refine ⟨d', ?_, hsectors, ?_, hout⟩
    · rw [List.cons_append, writeSectors, ataWriteSector_ok hup]
      exact heq
    · rw [hops, List.length_cons]
      exact (Nat.add_right_comm _ _ _).trans (Nat.add_assoc _ _ _)

/-- Writes that all succeed. -/
theorem writeSectors_ok {writes : List (Nat × Sector)} {d : Disk}
    (hok : ∀ k < writes.length, d.drive.outcome (d.drive.ops + k) = .ok) :
    (writeSectors writes d).1 = 0 ∧
      (writeSectors writes d).2.drive.sectors = updates d.drive.sectors writes := by
  obtain ⟨d', heq, hsectors, _⟩ := writeSectors_append hok []
  rw [List.append_nil] at heq
  rw [heq]
  exact ⟨rfl, hsectors⟩

/-- The first write that fails ends them; it may leave something in its sector. -/
theorem writeSectors_failed (done : List (Nat × Sector)) {d : Disk}
    (hok : ∀ k < done.length, d.drive.outcome (d.drive.ops + k) = .ok) {message : CStr}
    {left : Option Sector} (hfail : d.drive.outcome (d.drive.ops + done.length) = .failed message left)
    (lba : Nat) (content : Sector) (rest : List (Nat × Sector)) :
    (writeSectors (done ++ (lba, content) :: rest) d).1 = -1 ∧
      (writeSectors (done ++ (lba, content) :: rest) d).2.drive.sectors =
        Function.update (updates d.drive.sectors done) lba
          (left.getD (updates d.drive.sectors done lba)) := by
  obtain ⟨d', heq, hsectors, hops, hout⟩ := writeSectors_append hok ((lba, content) :: rest)
  have hd' : d'.drive.upcoming = .failed message left := by
    unfold Drive.upcoming
    rw [hops, hout, hfail]
  rw [heq, writeSectors, ataWriteSector_failed hd', ← hsectors]
  exact ⟨rfl, rfl⟩

/-- Writes that report success have all succeeded. -/
theorem writeSectors_eq_zero {writes : List (Nat × Sector)} {d : Disk} (h : (writeSectors writes d).1 = 0) :
    ∀ k < writes.length, d.drive.outcome (d.drive.ops + k) = .ok := by
  induction writes generalizing d with
  | nil =>
    intro k hk
    cases hk
  | cons p rest ih =>
    obtain ⟨lba, content⟩ := p
    cases hup : d.drive.upcoming with
    | failed message left =>
      rw [writeSectors, ataWriteSector_failed hup] at h
      cases h
    | ok =>
      rw [writeSectors, ataWriteSector_ok hup] at h
      intro k hk
      cases k with
      | zero => exact hup
      | succ k =>
        have := ih h k (by simpa using hk)
        rwa [Nat.add_right_comm] at this

namespace Linked

/-- What is to be written to a sector of the boot area. -/
def sectorAt (l : Linked) : Nat → Sector
  | 0 => l.bootSector
  | 1 => l.bootInfoSector
  | i + 2 => l.kernelSector i

/-- The boot area is written from its first sector to its last. -/
theorem layout_eq (l : Linked) :
    l.layout = (List.range (l.kernelSectors.toNat + 2)).map fun lba => (lba, l.sectorAt lba) := by
  rw [List.range_succ_eq_map, List.range_succ_eq_map]
  simp only [layout, List.map_cons, List.map_map]
  refine congrArg _ (congrArg _ (List.map_congr_left fun i _ => ?_))
  exact Prod.ext (Nat.add_comm 2 i) rfl

end Linked

/-- **A successful installation leaves the whole boot area written, and the rest as it was.** -/
theorem diskInstallSystem_ok {l : Linked} {sectors28 : Option UInt32} {d : Disk}
    (h : (diskInstallSystem l sectors28 d).1 = 0) :
    installRefused l sectors28 d = none ∧
      (diskInstallSystem l sectors28 d).2.drive.sectors =
        fun lba => if lba < l.kernelSectors.toNat + 2 then l.sectorAt lba else d.drive.sectors lba := by
  unfold diskInstallSystem at h ⊢
  cases hrefused : installRefused l sectors28 d with
  | some message =>
    rw [hrefused] at h
    cases h
  | none =>
    rw [hrefused] at h
    dsimp only at h ⊢
    have hstatus : (writeSectors l.layout d).1 = 0 := by
      by_contra hne
      rw [if_pos hne] at h
      cases h
    have hsectors := (writeSectors_ok (writeSectors_eq_zero hstatus)).2
    rw [l.layout_eq, Foundation.updates_range] at hsectors
    rw [if_neg (by simp [hstatus])]
    exact ⟨rfl, by rw [← hsectors, l.layout_eq]; rfl⟩

/-- An installation that passes its checks succeeds where no write fails. -/
theorem diskInstallSystem_healthy {l : Linked} {sectors28 : Option UInt32} {d : Disk}
    (hchecks : installRefused l sectors28 d = none) (hd : d.drive.Healthy) :
    (diskInstallSystem l sectors28 d).1 = 0 := by
  have hstatus : (writeSectors l.layout d).1 = 0 := (writeSectors_ok fun k _ => hd k).1
  unfold diskInstallSystem
  rw [hchecks]
  dsimp only
  rw [if_neg (by simp [hstatus])]

/-- **An installation whose write to sector `w` is the first to fail** has written the sectors before
it, and touched no later one. -/
theorem diskInstallSystem_failed {l : Linked} {sectors28 : Option UInt32} {d : Disk}
    (hchecks : installRefused l sectors28 d = none) {w : Nat} (hw : w < l.kernelSectors.toNat + 2)
    (hok : ∀ k < w, d.drive.outcome (d.drive.ops + k) = .ok) {message : CStr} {left : Option Sector}
    (hfail : d.drive.outcome (d.drive.ops + w) = .failed message left) :
    (diskInstallSystem l sectors28 d).1 = -1 ∧
      (diskInstallSystem l sectors28 d).2.drive.sectors =
        fun lba => if lba < w then l.sectorAt lba
          else Function.update d.drive.sectors w (left.getD (d.drive.sectors w)) lba := by
  have hsplit : l.layout = ((List.range w).map fun lba => (lba, l.sectorAt lba)) ++
      (w, l.sectorAt w) :: (l.layout.drop (w + 1)) := by
    rw [l.layout_eq]
    conv_lhs => rw [← List.take_append_drop w (List.map _ _), List.drop_eq_getElem_cons (by simpa using hw)]
    rw [← List.map_take, List.take_range, Nat.min_eq_left hw.le]
    simp only [List.getElem_map, List.getElem_range]
  obtain ⟨hstatus, hsectors⟩ := writeSectors_failed (d := d)
    ((List.range w).map fun lba => (lba, l.sectorAt lba)) (by simpa using hok) (by simpa using hfail) w
    (l.sectorAt w) (l.layout.drop (w + 1))
  rw [← hsplit] at hstatus hsectors
  unfold diskInstallSystem
  rw [hchecks]
  dsimp only
  rw [if_pos (by simp [hstatus])]
  refine ⟨rfl, ?_⟩
  rw [hsectors, Foundation.updates_range]
  funext lba
  by_cases hlba : lba = w
  · subst hlba
    simp
  · rw [Function.update_of_ne hlba, Function.update_of_ne hlba]

/-! ### The devices -/

/-- What `ata_scan` found at one place. -/
structure Device where
  present : Bool
  sectors28 : UInt32
  drive : Drive

/-- The device table of `kernel/ata.c`. -/
structure Devices where
  count : Nat
  device : Nat → Device

/-- `disk_get_info`: the device at a place of the table, where one is present. -/
def diskGetInfo (devices : Devices) (index : Int) : Option Device :=
  if index < 0 ∨ index ≥ devices.count then none
  else if !(devices.device index.toNat).present then none
  else some (devices.device index.toNat)

/-- `disk_select`: a device that is present becomes the selected one. -/
def diskSelect (devices : Devices) (index : Int) (d : Disk) : Int × Disk :=
  if index < 0 ∨ index ≥ devices.count ∨ !(devices.device index.toNat).present then
    (-1, {d with lastError := .ofLit "invalid or missing disk index"})
  else
    (0, {d with
      selectedDisk := index
      drive := (devices.device index.toNat).drive
      lastError := .ofLit "ok"})

/-- A system with a kernel of one byte. -/
def smallSystem : Linked :=
  { bootsect := { size := 512, byte := fun _ => 0 }
    kernel := { size := 1, byte := fun _ => 0xf4 }
    start32 := 0 }

end FurOS
