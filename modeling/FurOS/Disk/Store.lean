import FurOS.Disk.Device
import FurOS.Fs.Image

/-! Saving and loading the filesystem (`kernel/disk.c`).

Sector 2048 (`DISK_START_LBA`) holds a header with the length and the byte sum of
the image; the image follows from sector 2049, in at most 4095 sectors. Saving
writes the header first, then the image sector by sector, in place. -/
namespace FurOS
open Foundation (Field)
open Foundation.Buffer (slice splice byteSum)

structure DiskHeader where
  magic : Fin 8 → UInt8
  version : UInt32
  payloadSize : UInt32
  checksum : UInt32

def DiskHeader.field : Field 20 DiskHeader where
  put h := Field.u32.store (Field.u32.store (Field.u32.store ((Field.bytes 8).store (fun _ => 0) 0 h.magic)
    8 h.version) 12 h.payloadSize) 16 h.checksum
  get b :=
    { magic := (Field.bytes 8).load b 0 (by decide)
      version := Field.u32.load b 8 (by decide)
      payloadSize := Field.u32.load b 12 (by decide)
      checksum := Field.u32.load b 16 (by decide) }
  get_put h := by
    simp (disch := decide) only [Field.load_store, Field.load_store_disjoint]

/-- The header that a sector begins with. -/
def DiskHeader.ofSector (s : Sector) : DiskHeader := DiskHeader.field.load s 0 (by decide)

/-- The variables of `disk.c`, with the drive they select. -/
structure Disk where
  diskCount : Int
  selectedDisk : Int
  lastError : CStr
  sector : Sector
  payload : Fin 2096640 → UInt8
  drive : Drive

/-- `disk_init`, given what `ata_scan` finds. -/
def diskInit (scan : Scan) (d : Disk) : Disk :=
  {d with
    diskCount := scan.count
    selectedDisk := scan.selected
    lastError := if (scan.count : Int) > 0 ∧ scan.selected ≥ 0 then .ofLit "ok" else scan.lastError}

def diskAvailable (d : Disk) : Bool := d.selectedDisk ≥ 0

def diskLastError (d : Disk) : CStr := d.lastError

/-- How many sectors an image of this length takes. -/
def sectorCount (payloadSize : Nat) : Nat := (payloadSize + 512 - 1) / 512

/-! ### Loading -/

/-- The reads from image sector `i` on, `count` of them. -/
def readPayload (d : Disk) (i count : Nat) (h : i + count ≤ 4095) : Int × Disk :=
  match count with
  | 0 => (0, d)
  | count + 1 =>
    match ataReadSector d.drive (2048 + 1 + i) (slice d.payload (i * 512) 512 (by omega)) with
    | (some message, buffer, drive) =>
      (-1, {d with payload := splice d.payload (i * 512) buffer, drive := drive, lastError := message})
    | (none, buffer, drive) =>
      readPayload {d with payload := splice d.payload (i * 512) buffer, drive := drive} (i + 1) count
        (by omega)

/-- The header of a saved filesystem: its magic and its version. -/
def DiskHeader.installed (header : DiskHeader) : Bool :=
  kstrncmp (List.ofFn header.magic) (lit "FURDSK1") 7 = 0 && header.version = 1

/-- The end of `disk_load_fs`, on the bytes that were read: the byte sum is compared and the
image decoded. -/
def decodePayload (t : Nodes) (d : Disk) {len : Nat} (image : Fin len → UInt8) (checksum : UInt32) :
    Int × Nodes × Disk :=
  if byteSum image ≠ checksum then (-1, t, {d with lastError := .ofLit "checksum mismatch"})
  else
    match fsDeserialize t image with
    | (status, t) =>
      if status ≠ 0 then (-1, t, {d with lastError := .ofLit "filesystem decode failed"})
      else (0, t, {d with lastError := .ofLit "ok"})

/-- The part of `disk_load_fs` after the header has been recognised. -/
def loadPayload (t : Nodes) (d : Disk) (header : DiskHeader) : Int × Nodes × Disk :=
  if h : header.payloadSize.toNat = 0 ∨ header.payloadSize.toNat > 2096640 then
    (-1, t, {d with lastError := .ofLit "invalid payload size"})
  else
    match readPayload d 0 (sectorCount header.payloadSize.toNat) (by unfold sectorCount; omega) with
    | (status, d) =>
      if status ≠ 0 then (-1, t, d)
      else decodePayload t d (slice d.payload 0 header.payloadSize.toNat (by omega)) header.checksum

/-- `disk_load_fs`: the status and what it leaves of the table and the disk. -/
def diskLoadFs (t : Nodes) (d : Disk) : Int × Nodes × Disk :=
  if !diskAvailable d then (-1, t, {d with lastError := .ofLit "disk unavailable"})
  else
    match ataReadSector d.drive 2048 d.sector with
    | (some message, buffer, drive) =>
      (-1, t, {d with sector := buffer, drive := drive, lastError := message})
    | (none, buffer, drive) =>
      let d := {d with sector := buffer, drive := drive}
      let header := DiskHeader.ofSector d.sector
      if !header.installed then (-1, t, {d with lastError := .ofLit "not installed"})
      else loadPayload t d header

/-! ### Saving -/

/-- The writes from image sector `i` on, `count` of them. -/
def writePayload (d : Disk) (i count : Nat) (h : i + count ≤ 4095) : Int × Disk :=
  match count with
  | 0 => (0, d)
  | count + 1 =>
    match ataWriteSector d.drive (2048 + 1 + i) (slice d.payload (i * 512) 512 (by omega)) with
    | (some message, drive) => (-1, {d with drive := drive, lastError := message})
    | (none, drive) => writePayload {d with drive := drive} (i + 1) count (by omega)

/-- The header an image of `payloadSize` bytes is saved with. -/
def payloadHeader (payload : Fin 2096640 → UInt8) (payloadSize : Nat) (h : payloadSize ≤ 2096640) :
    DiskHeader :=
  { magic := kstrcpy (fun _ => 0) (lit "FURDSK1")
    version := 1
    payloadSize := UInt32.ofNat payloadSize
    checksum := byteSum (slice payload 0 payloadSize (by omega)) }

/-- The part of `disk_save_fs` after the image has been made. -/
def savePayload (d : Disk) (payloadSize : Nat) (h : payloadSize ≤ 2096640) : Int × Disk :=
  let header := payloadHeader d.payload payloadSize h
  let d := {d with sector := DiskHeader.field.store (fun _ => 0) 0 header}
  match ataWriteSector d.drive 2048 d.sector with
  | (some message, drive) => (-1, {d with drive := drive, lastError := message})
  | (none, drive) =>
    match writePayload {d with drive := drive} 0 (sectorCount payloadSize) (by unfold sectorCount; omega) with
    | (status, d) =>
      if status ≠ 0 then (-1, d)
      else (0, {d with drive := ataFlush d.drive, lastError := .ofLit "ok"})

/-- `disk_save_fs`: the status and the disk. -/
def diskSaveFs (t : Nodes) (d : Disk) : Int × Disk :=
  if !diskAvailable d then (-1, {d with lastError := .ofLit "disk unavailable"})
  else
    match fsSerialize t d.payload with
    | (payloadSize, payload) =>
      if payloadSize.val = 0 then
        (-1, {d with payload := payload, lastError := .ofLit "filesystem encode failed"})
      else savePayload {d with payload := payload} payloadSize.val payloadSize.property

/-- `disk_format_fs`: the status and what it leaves of the table and the disk. -/
def diskFormatFs (d : Disk) : Int × Nodes × Disk :=
  let t := fsInit
  match diskSaveFs t d with
  | (status, d) =>
    if status ≠ 0 then (-1, t, d)
    else (0, t, {d with lastError := .ofLit "ok"})

/-- A formatted table is empty whether or not it was saved. -/
theorem diskFormatFs_nodes (d : Disk) : (diskFormatFs d).2.1 = fsInit := by
  unfold diskFormatFs
  dsimp only
  split
  · rfl
  · rfl

end FurOS
