import FurOS.Disk.Regions
import FurOS.Foundation.Program

/-! The disk layer over the operations it calls (`kernel/disk.c`).

`Disk.Store` and `Disk.Install` have the functions of `disk.c` and the drive in one; here they are programs
that call `ata_read_sector`, `ata_write_sector` and `ata_flush`, and what is below is left open. On the drive
of `Disk.Device` they are those functions (`loadProgram_run`, `saveProgram_run`, `installProgram_run`). -/
namespace FurOS
open Foundation (Program)
open Foundation.Buffer (slice splice byteSum)

/-- What `disk.c` asks of `ata.c`; a read has its buffer as it is before. -/
inductive DiskOp where
  | read (lba : Nat) (buffer : Sector)
  | write (lba : Nat) (buffer : Sector)
  | flush

namespace DiskOp

/-- The message of a failure, and the buffer of a read as it is left. -/
@[reducible] def Answer : DiskOp → Type
  | read _ _ => Option CStr × Sector
  | write _ _ => Option CStr
  | flush => Unit

/-- On the sectors of a drive, where the operation ends as it is chosen to. -/
def step (o : Outcome) : ∀ op : DiskOp, (Nat → Sector) → op.Answer × (Nat → Sector)
  | read lba buffer, sectors =>
    match o with
    | .ok => ((none, sectors lba), sectors)
    | .failed message left => ((some message, left.getD buffer), sectors)
  | write lba buffer, sectors =>
    match o with
    | .ok => (none, Function.update sectors lba buffer)
    | .failed message left => (some message, Function.update sectors lba (left.getD (sectors lba)))
  | flush, sectors => ((), sectors)

end DiskOp

/-- On a drive. -/
def Drive.handle : ∀ op : DiskOp, Drive → op.Answer × Drive
  | .read lba buffer, d =>
    (((ataReadSector d lba buffer).1, (ataReadSector d lba buffer).2.1), (ataReadSector d lba buffer).2.2)
  | .write lba buffer, d => ataWriteSector d lba buffer
  | .flush, d => ((), ataFlush d)

abbrev DiskProgram := Program DiskOp DiskOp.Answer

/-- A drive chooses by what is to come of it. -/
theorem run_handle {α : Type} (p : DiskProgram α) (d : Drive) :
    (p.run Drive.handle d).1 = (p.runChoosing DiskOp.step (fun n => d.outcome (d.ops + n)) d.sectors).1 ∧
      (p.run Drive.handle d).2.sectors =
        (p.runChoosing DiskOp.step (fun n => d.outcome (d.ops + n)) d.sectors).2 := by
  refine Program.run_eq_runChoosing DiskOp.step Drive.sectors (fun d n => d.outcome (d.ops + n)) (fun op d => ?_) p d
  have hlater (n : Nat) : d.outcome (d.ops + 1 + n) = d.outcome (d.ops + (n + 1)) := by
    rw [Nat.add_right_comm, Nat.add_assoc]
  cases op with
  | flush => exact ⟨rfl, rfl, hlater⟩
  | read lba buffer =>
    simp only [Drive.handle, ataReadSector, DiskOp.step, Drive.upcoming, Nat.add_zero]
    cases d.outcome d.ops with
    | ok => exact ⟨rfl, rfl, hlater⟩
    | failed message left => exact ⟨rfl, rfl, hlater⟩
  | write lba buffer =>
    simp only [Drive.handle, ataWriteSector, DiskOp.step, Drive.upcoming, Nat.add_zero]
    cases d.outcome d.ops with
    | ok => exact ⟨rfl, rfl, hlater⟩
    | failed message left => exact ⟨rfl, rfl, hlater⟩

/-! ### The variables -/

/-- The variables of `disk.c`, without a drive. -/
structure DiskVars where
  diskCount : Int
  selectedDisk : Int
  lastError : CStr
  sector : Sector
  payload : Fin 2096640 → UInt8

namespace DiskVars

def available (v : DiskVars) : Bool := v.selectedDisk ≥ 0

def fail (v : DiskVars) (message : CStr) : DiskVars := {v with lastError := message}

/-- The variables with a drive that they select. -/
def on (v : DiskVars) (drive : Drive) : Disk :=
  { diskCount := v.diskCount
    selectedDisk := v.selectedDisk
    lastError := v.lastError
    sector := v.sector
    payload := v.payload
    drive := drive }

end DiskVars

def Disk.vars (d : Disk) : DiskVars :=
  { diskCount := d.diskCount
    selectedDisk := d.selectedDisk
    lastError := d.lastError
    sector := d.sector
    payload := d.payload }

@[simp] theorem vars_on (v : DiskVars) (drive : Drive) : (v.on drive).vars = v := rfl

/-! ### The programs -/

/-- What is returned for a message of `ata_last_error`, or what goes on without one. -/
def DiskVars.check (v : DiskVars) (message : Option CStr) (rest : DiskProgram (Int × DiskVars)) :
    DiskProgram (Int × DiskVars) :=
  message.elim rest fun message => pure (-1, v.fail message)

/-- The reads of `disk_load_fs` from image sector `i` on. -/
theorem sector_room {i count : Nat} (h : i + (count + 1) ≤ 4095) : i * 512 + 512 ≤ 2096640 := by omega

theorem next_room {i count : Nat} (h : i + (count + 1) ≤ 4095) : i + 1 + count ≤ 4095 := by omega

def readProgram (v : DiskVars) (i count : Nat) (h : i + count ≤ 4095) : DiskProgram (Int × DiskVars) :=
  match count with
  | 0 => pure (0, v)
  | count + 1 => .call (.read (2048 + 1 + i) (slice v.payload (i * 512) 512 (sector_room h))) fun x =>
    let v := {v with payload := splice v.payload (i * 512) x.2}
    v.check x.1 (readProgram v (i + 1) count (next_room h))

/-- The end of `disk_load_fs`, on the bytes that were read. -/
def decodeVars (t : Nodes) (v : DiskVars) {len : Nat} (image : Fin len → UInt8) (checksum : UInt32) :
    Int × Nodes × DiskVars :=
  if byteSum image ≠ checksum then (-1, t, v.fail (.ofLit "checksum mismatch"))
  else
    let x := fsDeserialize t image
    if x.1 ≠ 0 then (-1, x.2, v.fail (.ofLit "filesystem decode failed"))
    else (0, x.2, v.fail (.ofLit "ok"))

/-- The part of `disk_load_fs` after the header has been read. -/
def loadImage (t : Nodes) (v : DiskVars) : DiskProgram (Int × Nodes × DiskVars) :=
  let header := DiskHeader.ofSector v.sector
  if !header.installed then pure (-1, t, v.fail (.ofLit "not installed"))
  else if h : header.payloadSize.toNat = 0 ∨ header.payloadSize.toNat > 2096640 then
    pure (-1, t, v.fail (.ofLit "invalid payload size"))
  else do
    let x ← readProgram v 0 (sectorCount header.payloadSize.toNat) (by unfold sectorCount; omega)
    if x.1 ≠ 0 then pure (-1, t, x.2)
    else pure (decodeVars t x.2 (slice x.2.payload 0 header.payloadSize.toNat (by omega)) header.checksum)

def loadProgram (t : Nodes) (v : DiskVars) : DiskProgram (Int × Nodes × DiskVars) :=
  if !v.available then pure (-1, t, v.fail (.ofLit "disk unavailable"))
  else .call (.read 2048 v.sector) fun x =>
    let v := {v with sector := x.2}
    x.1.elim (loadImage t v) fun message => pure (-1, t, v.fail message)

/-- The writes of `disk_save_fs` from image sector `i` on. -/
def writeProgram (v : DiskVars) (i count : Nat) (h : i + count ≤ 4095) : DiskProgram (Int × DiskVars) :=
  match count with
  | 0 => pure (0, v)
  | count + 1 => .call (.write (2048 + 1 + i) (slice v.payload (i * 512) 512 (sector_room h))) fun message =>
    v.check message (writeProgram v (i + 1) count (next_room h))

/-- The end of `disk_save_fs` and of `disk_install_system`, after their writes. -/
def flushProgram (x : Int × DiskVars) : DiskProgram (Int × DiskVars) :=
  if x.1 ≠ 0 then pure (-1, x.2) else .call .flush fun _ => pure (0, x.2.fail (.ofLit "ok"))

theorem sectorCount_room {payloadSize : Nat} (h : payloadSize ≤ 2096640) : 0 + sectorCount payloadSize ≤ 4095 := by
  unfold sectorCount
  omega

/-- The part of `disk_save_fs` after the image has been made. -/
def saveImage (v : DiskVars) (payloadSize : Nat) (h : payloadSize ≤ 2096640) : DiskProgram (Int × DiskVars) :=
  let v := {v with sector := DiskHeader.field.store (fun _ => 0) 0 (payloadHeader v.payload payloadSize h)}
  .call (.write 2048 v.sector) fun message =>
    v.check message (writeProgram v 0 (sectorCount payloadSize) (sectorCount_room h) >>= flushProgram)

def saveProgram (t : Nodes) (v : DiskVars) : DiskProgram (Int × DiskVars) :=
  if !v.available then pure (-1, v.fail (.ofLit "disk unavailable"))
  else
    let x := fsSerialize t v.payload
    let v := {v with payload := x.2}
    if x.1.val = 0 then pure (-1, v.fail (.ofLit "filesystem encode failed"))
    else saveImage v x.1.val x.1.property

/-- `disk_format_fs`, without its table: that is `fs_init`'s. -/
def formatProgram (v : DiskVars) : DiskProgram (Int × DiskVars) := do
  let x ← saveProgram fsInit v
  if x.1 ≠ 0 then pure (-1, x.2) else pure (0, x.2.fail (.ofLit "ok"))

/-- The writes of `disk_install_system`, each through the sector buffer. -/
def writeAllProgram : List (Nat × Sector) → DiskVars → DiskProgram (Int × DiskVars)
  | [], v => pure (0, v)
  | w :: rest, v =>
    let v := {v with sector := w.2}
    .call (.write w.1 w.2) fun message => v.check message (writeAllProgram rest v)

/-- The checks of `disk_install_system` look at no drive. -/
def DiskVars.installRefused (v : DiskVars) (l : Linked) (sectors28 : Option UInt32) : Option CStr :=
  FurOS.installRefused l sectors28 (v.on { sectors := fun _ _ => 0, ops := 0, outcome := fun _ => .ok })

def installProgram (l : Linked) (sectors28 : Option UInt32) (v : DiskVars) : DiskProgram (Int × DiskVars) :=
  (v.installRefused l sectors28).elim (writeAllProgram l.layout v >>= flushProgram)
    fun message => pure (-1, v.fail message)

/-! ### On a drive -/

/-- A status and a disk, with the drive apart. -/
def parted (x : Int × Disk) : (Int × DiskVars) × Drive := ((x.1, x.2.vars), x.2.drive)

/-- A status, a table and a disk, with the drive apart. -/
def partedTable (x : Int × Nodes × Disk) : (Int × Nodes × DiskVars) × Drive :=
  ((x.1, x.2.1, x.2.2.vars), x.2.2.drive)

theorem readProgram_run (v : DiskVars) (drive : Drive) (i count : Nat) (h : i + count ≤ 4095) :
    (readProgram v i count h).run Drive.handle drive = parted (readPayload (v.on drive) i count h) := by
  induction count generalizing v drive i with
  | zero => rfl
  | succ count ih =>
    rw [readProgram, readPayload, Program.run_call]
    dsimp only [Drive.handle, DiskVars.on]
    generalize ataReadSector drive (2048 + 1 + i) (slice v.payload (i * 512) 512 (by omega)) = x
    obtain ⟨message, buffer, drive'⟩ := x
    cases message with
    | some message => rfl
    | none => exact ih {v with payload := splice v.payload (i * 512) buffer} drive' (i + 1) (by omega)

theorem decodeVars_eq (t : Nodes) (v : DiskVars) (drive : Drive) {len : Nat} (image : Fin len → UInt8)
    (checksum : UInt32) :
    (decodeVars t v image checksum, drive) = partedTable (decodePayload t (v.on drive) image checksum) := by
  unfold decodePayload decodeVars
  by_cases hsum : byteSum image = checksum
  · simp only [hsum, ne_eq, not_true_eq_false, if_false]
    by_cases hstatus : (fsDeserialize t image).1 = 0
    · simp only [hstatus, not_true_eq_false, if_false]
      rfl
    · simp only [hstatus, not_false_eq_true, if_true]
      rfl
  · simp only [hsum, ne_eq, not_false_eq_true, if_true]
    rfl

theorem loadImage_run (t : Nodes) (v : DiskVars) (drive : Drive)
    (h : (DiskHeader.ofSector v.sector).installed = true) :
    (loadImage t v).run Drive.handle drive =
      partedTable (loadPayload t (v.on drive) (DiskHeader.ofSector v.sector)) := by
  unfold loadImage loadPayload
  simp only [h, Bool.not_true, Bool.false_eq_true, if_false]
  by_cases hsize : (DiskHeader.ofSector v.sector).payloadSize.toNat = 0 ∨
    (DiskHeader.ofSector v.sector).payloadSize.toNat > 2096640
  · simp only [dif_pos hsize]
    rfl
  · simp only [dif_neg hsize, Program.run_bind, readProgram_run]
    generalize readPayload (v.on drive) 0 (sectorCount (DiskHeader.ofSector v.sector).payloadSize.toNat) _ = x
    obtain ⟨status, d⟩ := x
    by_cases hstatus : status = 0
    · subst hstatus
      exact decodeVars_eq t d.vars d.drive _ _
    · simp only [parted, ne_eq, hstatus, not_false_eq_true, if_true]
      rfl

/-- Loading from a drive. -/
theorem loadProgram_run (t : Nodes) (v : DiskVars) (drive : Drive) :
    (loadProgram t v).run Drive.handle drive = partedTable (diskLoadFs t (v.on drive)) := by
  unfold loadProgram diskLoadFs
  have havailable : diskAvailable (v.on drive) = v.available := rfl
  rw [havailable]
  cases v.available with
  | false => rfl
  | true =>
    simp only [Bool.not_true, Bool.false_eq_true, if_false, Program.run_call]
    dsimp only [Drive.handle, DiskVars.on]
    generalize ataReadSector drive 2048 v.sector = x
    obtain ⟨message, buffer, drive'⟩ := x
    cases message with
    | some message => rfl
    | none =>
      dsimp only [Option.elim]
      cases hinstalled : (DiskHeader.ofSector buffer).installed with
      | true => exact loadImage_run t {v with sector := buffer} drive' hinstalled
      | false =>
        simp only [loadImage, hinstalled, Bool.not_false, if_true]
        rfl

theorem writeProgram_run (v : DiskVars) (drive : Drive) (i count : Nat) (h : i + count ≤ 4095) :
    (writeProgram v i count h).run Drive.handle drive = parted (writePayload (v.on drive) i count h) := by
  induction count generalizing drive i with
  | zero => rfl
  | succ count ih =>
    rw [writeProgram, writePayload, Program.run_call]
    dsimp only [Drive.handle, DiskVars.on]
    generalize ataWriteSector drive (2048 + 1 + i) (slice v.payload (i * 512) 512 (by omega)) = x
    obtain ⟨message, drive'⟩ := x
    cases message with
    | some message => rfl
    | none => exact ih drive' (i + 1) (by omega)

theorem flushProgram_run (x : Int × Disk) : (flushProgram (x.1, x.2.vars)).run Drive.handle x.2.drive =
    parted (if x.1 ≠ 0 then (-1, x.2) else (0, {x.2 with drive := ataFlush x.2.drive, lastError := .ofLit "ok"})) := by
  unfold flushProgram
  by_cases hstatus : x.1 = 0
  · simp only [hstatus, ne_eq, not_true_eq_false, if_false]
    rfl
  · simp only [hstatus, ne_eq, not_false_eq_true, if_true]
    rfl

theorem saveImage_run (v : DiskVars) (drive : Drive) (payloadSize : Nat) (h : payloadSize ≤ 2096640) :
    (saveImage v payloadSize h).run Drive.handle drive = parted (savePayload (v.on drive) payloadSize h) := by
  unfold saveImage savePayload
  rw [Program.run_call]
  dsimp only [Drive.handle, DiskVars.on]
  generalize ataWriteSector drive 2048 _ = x
  obtain ⟨message, drive'⟩ := x
  cases message with
  | some message => rfl
  | none =>
    dsimp only [DiskVars.check, Option.elim]
    rw [Program.run_bind, writeProgram_run]
    exact flushProgram_run _

/-- Saving to a drive. -/
theorem saveProgram_run (t : Nodes) (v : DiskVars) (drive : Drive) :
    (saveProgram t v).run Drive.handle drive = parted (diskSaveFs t (v.on drive)) := by
  unfold saveProgram diskSaveFs
  have havailable : diskAvailable (v.on drive) = v.available := rfl
  rw [havailable]
  cases v.available with
  | false => rfl
  | true =>
    simp only [Bool.not_true, Bool.false_eq_true, if_false]
    have hpayload : (v.on drive).payload = v.payload := rfl
    rw [hpayload]
    by_cases hsize : (fsSerialize t v.payload).1.val = 0
    · simp only [hsize, if_true]
      rfl
    · simp only [hsize, if_false]
      exact saveImage_run {v with payload := (fsSerialize t v.payload).2} drive _ _

/-- Formatting a drive. -/
theorem formatProgram_run (v : DiskVars) (drive : Drive) :
    (formatProgram v).run Drive.handle drive =
      parted ((diskFormatFs (v.on drive)).1, (diskFormatFs (v.on drive)).2.2) := by
  unfold formatProgram diskFormatFs
  rw [Program.run_bind, saveProgram_run]
  dsimp only
  generalize diskSaveFs fsInit (v.on drive) = x
  obtain ⟨status, d⟩ := x
  by_cases hstatus : status = 0
  · subst hstatus
    rfl
  · simp only [parted, ne_eq, hstatus, not_false_eq_true, if_true]
    rfl

theorem writeAllProgram_run (writes : List (Nat × Sector)) (v : DiskVars) (drive : Drive) :
    (writeAllProgram writes v).run Drive.handle drive = parted (writeSectors writes (v.on drive)) := by
  induction writes generalizing v drive with
  | nil => rfl
  | cons w writes ih =>
    obtain ⟨lba, content⟩ := w
    rw [writeAllProgram, writeSectors, Program.run_call]
    dsimp only [Drive.handle, DiskVars.on]
    generalize ataWriteSector drive lba content = x
    obtain ⟨message, drive'⟩ := x
    cases message with
    | some message => rfl
    | none => exact ih {v with sector := content} drive'

/-- Installing on a drive. -/
theorem installProgram_run (l : Linked) (sectors28 : Option UInt32) (v : DiskVars) (drive : Drive) :
    (installProgram l sectors28 v).run Drive.handle drive = parted (diskInstallSystem l sectors28 (v.on drive)) := by
  unfold installProgram diskInstallSystem
  have hrefused : v.installRefused l sectors28 = installRefused l sectors28 (v.on drive) := rfl
  rw [hrefused]
  cases installRefused l sectors28 (v.on drive) with
  | some message => rfl
  | none =>
    dsimp only [Option.elim]
    rw [Program.run_bind, writeAllProgram_run]
    exact flushProgram_run _

/-! ### What is asked for -/

/-- The sector of an operation, if it has one, is among the first `n`. -/
def DiskOp.Below (n : Nat) : DiskOp → Prop
  | read lba _ => lba < n
  | write lba _ => lba < n
  | flush => True

theorem DiskOp.Below.imp {m n : Nat} (h : m ≤ n) (op : DiskOp) (hop : op.Below m) : op.Below n := by
  cases op with
  | read lba buffer => exact Nat.lt_of_lt_of_le hop h
  | write lba buffer => exact Nat.lt_of_lt_of_le hop h
  | flush => trivial

/-- The programs use the first 6144 sectors (`DISK_START_LBA + DISK_TOTAL_SECTORS`). -/
abbrev OnDisk {α : Type} (p : DiskProgram α) : Prop := p.Calls (DiskOp.Below 6144)

theorem check_calls (v : DiskVars) (message : Option CStr) {rest : DiskProgram (Int × DiskVars)} (h : OnDisk rest) :
    OnDisk (v.check message rest) := by
  cases message with
  | none => exact h
  | some message => trivial

theorem readProgram_calls (v : DiskVars) (i count : Nat) (h : i + count ≤ 4095) : OnDisk (readProgram v i count h) := by
  induction count generalizing v i with
  | zero => trivial
  | succ count ih =>
    refine ⟨?_, fun x => check_calls _ _ (ih _ (i + 1) (by omega))⟩
    show 2048 + 1 + i < 6144
    omega

theorem loadProgram_calls (t : Nodes) (v : DiskVars) : OnDisk (loadProgram t v) := by
  unfold loadProgram
  split
  · trivial
  refine ⟨?_, fun x => ?_⟩
  · show 2048 < 6144
    decide
  obtain ⟨message, buffer⟩ := x
  cases message with
  | some message => trivial
  | none =>
    dsimp only [Option.elim, loadImage]
    split
    · trivial
    split
    · trivial
    refine (readProgram_calls _ _ _ _).bind fun x => ?_
    split <;> trivial

theorem writeProgram_calls (v : DiskVars) (i count : Nat) (h : i + count ≤ 4095) :
    OnDisk (writeProgram v i count h) := by
  induction count generalizing i with
  | zero => trivial
  | succ count ih =>
    refine ⟨?_, fun x => check_calls _ _ (ih (i + 1) (by omega))⟩
    show 2048 + 1 + i < 6144
    omega

theorem flushProgram_calls (x : Int × DiskVars) : OnDisk (flushProgram x) := by
  unfold flushProgram
  split
  · trivial
  · exact ⟨trivial, fun _ => trivial⟩

theorem saveProgram_calls (t : Nodes) (v : DiskVars) : OnDisk (saveProgram t v) := by
  unfold saveProgram
  split
  · trivial
  dsimp only
  split
  · trivial
  refine ⟨?_, fun x => check_calls _ _ ((writeProgram_calls _ _ _ _).bind flushProgram_calls)⟩
  show 2048 < 6144
  decide

theorem formatProgram_calls (v : DiskVars) : OnDisk (formatProgram v) := by
  refine (saveProgram_calls fsInit v).bind fun x => ?_
  split <;> trivial

theorem writeAllProgram_calls {writes : List (Nat × Sector)} (h : ∀ w ∈ writes, w.1 < 6144) (v : DiskVars) :
    OnDisk (writeAllProgram writes v) := by
  induction writes generalizing v with
  | nil => trivial
  | cons w writes ih =>
    exact ⟨h w List.mem_cons_self, fun x => check_calls _ _ (ih (fun w hw => h w (List.mem_cons_of_mem _ hw)) _)⟩

theorem installProgram_calls (l : Linked) (sectors28 : Option UInt32) (v : DiskVars) :
    OnDisk (installProgram l sectors28 v) := by
  unfold installProgram
  cases hrefused : v.installRefused l sectors28 with
  | some message => trivial
  | none =>
    have hlayout : ∀ w ∈ l.layout, w.1 < 6144 := fun w hw => Nat.lt_trans (layout_bootArea hrefused w hw) (by decide)
    exact (writeAllProgram_calls hlayout v).bind flushProgram_calls

/-! ### Histories -/

/-- A call of `disk.c`, with the table as it is then. -/
inductive DiskCall where
  | load (t : Nodes)
  | save (t : Nodes)
  | format
  | install (l : Linked) (sectors28 : Option UInt32)

namespace DiskCall

/-- The status and the table that a call leaves, and the variables; an installation leaves no table. -/
def program (v : DiskVars) : DiskCall → DiskProgram ((Int × Option Nodes) × DiskVars)
  | load t => do
    let x ← loadProgram t v
    return ((x.1, some x.2.1), x.2.2)
  | save t => do
    let x ← saveProgram t v
    return ((x.1, some t), x.2)
  | format => do
    let x ← formatProgram v
    return ((x.1, some fsInit), x.2)
  | install l sectors28 => do
    let x ← installProgram l sectors28 v
    return ((x.1, none), x.2)

/-- The same of the functions of `Disk.Store` and `Disk.Install`. -/
def run (d : Disk) : DiskCall → (Int × Option Nodes) × Disk
  | load t => (((diskLoadFs t d).1, some (diskLoadFs t d).2.1), (diskLoadFs t d).2.2)
  | save t => (((diskSaveFs t d).1, some t), (diskSaveFs t d).2)
  | format => (((diskFormatFs d).1, some fsInit), (diskFormatFs d).2.2)
  | install l sectors28 => (((diskInstallSystem l sectors28 d).1, none), (diskInstallSystem l sectors28 d).2)

theorem program_run (v : DiskVars) (drive : Drive) (c : DiskCall) :
    (c.program v).run Drive.handle drive =
      (((c.run (v.on drive)).1, (c.run (v.on drive)).2.vars), (c.run (v.on drive)).2.drive) := by
  cases c with
  | load t => simp only [program, run, Program.run_bind, loadProgram_run]; rfl
  | save t => simp only [program, run, Program.run_bind, saveProgram_run]; rfl
  | format => simp only [program, run, Program.run_bind, formatProgram_run]; rfl
  | install l sectors28 => simp only [program, run, Program.run_bind, installProgram_run]; rfl

theorem program_calls (v : DiskVars) (c : DiskCall) : OnDisk (c.program v) := by
  cases c with
  | load t => exact (loadProgram_calls t v).bind fun _ => trivial
  | save t => exact (saveProgram_calls t v).bind fun _ => trivial
  | format => exact (formatProgram_calls v).bind fun _ => trivial
  | install l sectors28 => exact (installProgram_calls l sectors28 v).bind fun _ => trivial

end DiskCall

/-- Calls one after the other, with what each returns. -/
def historyProgram : List DiskCall → DiskVars → DiskProgram (List (Int × Option Nodes) × DiskVars)
  | [], v => pure ([], v)
  | c :: history, v => do
    let x ← c.program v
    let y ← historyProgram history x.2
    return (x.1 :: y.1, y.2)

def diskHistory : List DiskCall → Disk → List (Int × Option Nodes) × Disk
  | [], d => ([], d)
  | c :: history, d =>
    let y := diskHistory history (c.run d).2
    ((c.run d).1 :: y.1, y.2)

theorem historyProgram_run (history : List DiskCall) (v : DiskVars) (drive : Drive) :
    (historyProgram history v).run Drive.handle drive =
      (((diskHistory history (v.on drive)).1, (diskHistory history (v.on drive)).2.vars),
        (diskHistory history (v.on drive)).2.drive) := by
  induction history generalizing v drive with
  | nil => rfl
  | cons c history ih =>
    simp only [historyProgram, diskHistory, Program.run_bind, DiskCall.program_run, ih]
    rfl

theorem historyProgram_calls (history : List DiskCall) (v : DiskVars) : OnDisk (historyProgram history v) := by
  induction history generalizing v with
  | nil => trivial
  | cons c history ih => exact (c.program_calls v).bind fun x => (ih x.2).bind fun _ => trivial

end FurOS
