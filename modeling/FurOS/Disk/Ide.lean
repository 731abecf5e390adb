import FurOS.Disk.Device

/-! The two IDE channels and their driver (`kernel/ata.c`).

A channel has two drives and one of them is selected: its status is what the status
port gives. How a drive will answer each command it is ever sent is part of it
(`IdeAnswer`): for how many reads of the status port it stays busy, and what its
status shows from then on, until the next command. So an error stays visible until
the drive is sent another command. A drive that is not there shows a status of zero
whatever it is sent. Every read of a status port lets time pass for both drives of
the channel. -/
namespace FurOS

def ataPollAttempts : Nat := 1000000

def ataSrErr : UInt8 := 0x01
def ataSrDrq : UInt8 := 0x08
def ataSrDf : UInt8 := 0x20
def ataSrBsy : UInt8 := 0x80

/-! ### Drives and channels -/

inductive IdeCommand where
  | identify
  | readSectors (lba : Nat)
  | writeSectors (lba : Nat)
  | flushCache

/-- How a drive answers one command: how long it is busy, the status it then shows and its error
register; for a write also how long it takes over the data, and the status after that. -/
structure IdeAnswer where
  busy : Nat
  ending : UInt8
  settle : Nat
  settled : UInt8
  error : UInt8

structure IdeDrive where
  /-- Reads of the status port for which it is still busy. -/
  busy : Nat
  /-- The status when it is not busy. -/
  flags : UInt8
  error : UInt8
  /-- Commands received so far, and the answer to each. -/
  received : Nat
  answer : Nat → IdeAnswer
  /-- What it was last asked for. -/
  doing : IdeCommand
  /-- `LBA1` and `LBA2` after `IDENTIFY`: not zero for a device that is no ATA disk. -/
  signature : UInt8 × UInt8
  identity : Fin 256 → UInt16
  sectors : Nat → Sector

namespace IdeDrive

/-- The status at rest: `BSY` is not among its bits. -/
def rest (d : IdeDrive) : UInt8 := d.flags &&& 0x7F

def status (d : IdeDrive) : UInt8 := if d.busy > 0 then ataSrBsy else d.rest

/-- The answer to the next command. -/
def next (d : IdeDrive) : IdeAnswer := d.answer d.received

/-- `n` reads of the status port later. -/
def wait (n : Nat) (d : IdeDrive) : IdeDrive := {d with busy := d.busy - n}

/-- A write of the command port; the status of the command before is gone. -/
def command (c : IdeCommand) (d : IdeDrive) : IdeDrive :=
  {d with
    busy := d.next.busy
    flags := d.next.ending
    error := d.next.error
    received := d.received + 1
    doing := c}

/-- 256 words read from the data port. -/
def taken (d : IdeDrive) : IdeDrive := {d with flags := d.flags &&& ~~~ataSrDrq}

/-- The sector that a read command is about. -/
def held (d : IdeDrive) : Sector :=
  match d.doing with
  | .readSectors lba => d.sectors lba
  | _ => fun _ => 0

/-- 256 words written to the data port: the drive is busy with them. -/
def given (data : Sector) (d : IdeDrive) : IdeDrive :=
  let a := d.answer (d.received - 1)
  {d with
    busy := a.settle
    flags := a.settled
    sectors := match d.doing with
      | .writeSectors lba => if a.settled &&& (ataSrErr ||| ataSrDf) = 0 then Function.update d.sectors lba data
        else d.sectors
      | _ => d.sectors}

end IdeDrive

structure IdeChannel where
  /-- The selected drive: `false` is the master. -/
  selected : Bool
  drive : Bool → IdeDrive

namespace IdeChannel

/-- The selected drive. -/
def current (ch : IdeChannel) : IdeDrive := ch.drive ch.selected

def wait (n : Nat) (ch : IdeChannel) : IdeChannel := {ch with drive := fun s => (ch.drive s).wait n}

/-- `inb` of the status port, or of the alternate one. -/
def inbStatus (ch : IdeChannel) : UInt8 × IdeChannel := (ch.current.status, ch.wait 1)

/-- `outb` of `HDDEVSEL`. -/
def select (slave : Bool) (ch : IdeChannel) : IdeChannel := {ch with selected := slave}

/-- A change of the selected drive. -/
def modify (f : IdeDrive → IdeDrive) (ch : IdeChannel) : IdeChannel :=
  {ch with drive := Function.update ch.drive ch.selected (f ch.current)}

/-- `outb` of the command port, after the address was written. -/
def command (c : IdeCommand) (ch : IdeChannel) : IdeChannel := ch.modify (IdeDrive.command c)

end IdeChannel

def ideDelay400ns (ch : IdeChannel) : IdeChannel := ch.inbStatus.2.inbStatus.2.inbStatus.2.inbStatus.2

/-! ### Waiting -/

/-- What one status makes of a wait. -/
inductive Verdict where
  | again
  | done
  | failed (message : CStr)

/-- What `error_ide` stores. -/
structure IdeError where
  message : CStr
  status : UInt8
  register : UInt8

/-- The loop of the three waits: `none` is `return 0`. -/
def idePoll (verdict : UInt8 → Verdict) (timeout : CStr) (ch : IdeChannel) (status : UInt8) :
    Nat → Option IdeError × IdeChannel
  | 0 => (some ⟨timeout, status, ch.current.error⟩, ch)
  | attempts + 1 =>
    let (status, ch) := ch.inbStatus
    match verdict status with
    | .again => idePoll verdict timeout ch status attempts
    | .done => (none, ch)
    | .failed message => (some ⟨message, status, ch.current.error⟩, ch)

def ideWait (verdict : UInt8 → Verdict) (timeout : CStr) (ch : IdeChannel) : Option IdeError × IdeChannel :=
  idePoll verdict timeout (ideDelay400ns ch) 0 ataPollAttempts

/-- Not busy any more, and without an error: what `ide_wait_ready` and `ide_wait_not_busy` wait for. -/
def idleVerdict (message : CStr) (status : UInt8) : Verdict :=
  if status &&& ataSrBsy = 0 then
    if status &&& (ataSrErr ||| ataSrDf) ≠ 0 then .failed message else .done
  else .again

def drqVerdict (status : UInt8) : Verdict :=
  if status &&& ataSrErr ≠ 0 then .failed (.ofLit "IDE DRQ error")
  else if status &&& ataSrDf ≠ 0 then .failed (.ofLit "IDE device fault")
  else if status &&& ataSrBsy = 0 ∧ status &&& ataSrDrq ≠ 0 then .done
  else .again

def ideWaitReady : IdeChannel → Option IdeError × IdeChannel :=
  ideWait (idleVerdict (.ofLit "IDE ready wait error")) (.ofLit "IDE ready timeout")

def ideWaitDrq : IdeChannel → Option IdeError × IdeChannel := ideWait drqVerdict (.ofLit "IDE DRQ timeout")

def ideWaitNotBusy : IdeChannel → Option IdeError × IdeChannel :=
  ideWait (idleVerdict (.ofLit "IDE completion error")) (.ofLit "IDE completion timeout")

/-! ### The driver -/

/-- What `ide_probe_device` finds out about a device; the model's name is not kept. -/
structure IdeDevice where
  present : Bool
  identify : Fin 256 → UInt16
  sectors28 : UInt32

def IdeDevice.absent : IdeDevice := { present := false, identify := fun _ => 0, sectors28 := 0 }

/-- `g_ide_devices`, the channels they are on, and the last error. -/
structure Ide where
  device : Fin 4 → IdeDevice
  channel : Fin 2 → IdeChannel
  lastError : CStr
  lastStatus : UInt8
  lastErrorReg : UInt8

/-- The channel of a device, by its `io_base`. -/
def ideChannel (i : Fin 4) : Fin 2 := if i.val < 2 then 0 else 1

/-- Whether a device is the slave of its channel. -/
def ideSlave (i : Fin 4) : Bool := i.val % 2 = 1

/-- The address bits that fit the registers. -/
def lba28 (lba : UInt32) : Nat := lba.toNat % 2 ^ 28

namespace Ide

/-- The drive of a device. -/
def drive (s : Ide) (i : Fin 4) : IdeDrive := (s.channel (ideChannel i)).drive (ideSlave i)

/-- The channel of a device, as a call left it. -/
def setChannel (s : Ide) (i : Fin 4) (ch : IdeChannel) : Ide :=
  {s with channel := Function.update s.channel (ideChannel i) ch}

def errorOk (s : Ide) : Ide := {s with lastError := .ofLit "ok", lastStatus := 0, lastErrorReg := 0}

def errorIde (s : Ide) (e : IdeError) : Ide :=
  {s with lastError := e.message, lastStatus := e.status, lastErrorReg := e.register}

end Ide

/-- The check of an index; a device that it accepts. -/
def ideIndex (index : Int) : Option (Fin 4) :=
  if h : 0 ≤ index ∧ index < 4 then some ⟨index.toNat, by omega⟩ else none

theorem ideIndex_ofNat (i : Fin 4) : ideIndex (i.val : Int) = some i := by
  have hi := i.isLt
  unfold ideIndex
  rw [dif_pos (by omega)]
  rfl

/-- `while ((status & ATA_SR_BSY) != 0)`, for as many reads as the drive is busy. -/
def ideWhileBusy (status : UInt8) (ch : IdeChannel) : Nat → UInt8 × IdeChannel
  | 0 => (status, ch)
  | n + 1 =>
    if status &&& ataSrBsy ≠ 0 then
      let (status, ch) := ch.inbStatus
      ideWhileBusy status ch n
    else (status, ch)

/-- The end of `ide_probe_device`, for a device that has data to identify itself with. -/
def ideIdentify (s : Ide) (i : Fin 4) (ch : IdeChannel) : Int × Ide :=
  match ideWaitDrq ch with
  | (some e, ch) => (-1, (s.setChannel i ch).errorIde e)
  | (none, ch) =>
    let identify := ch.current.identity
    let device : IdeDevice :=
      { present := true
        identify := identify
        sectors28 := (identify 60).toUInt32 ||| ((identify 61).toUInt32 <<< 16) }
    let s := s.setChannel i (ch.modify IdeDrive.taken)
    (0, {s with device := Function.update s.device i device})

def ideProbeDevice (s : Ide) (index : Int) : Int × Ide :=
  match ideIndex index with
  | none => (-1, s)
  | some i =>
    let s := {s with device := Function.update s.device i IdeDevice.absent}
    let ch := (ideDelay400ns ((s.channel (ideChannel i)).select (ideSlave i))).command .identify
    let (status, ch) := ch.inbStatus
    if status = 0 then (-1, s.setChannel i ch)
    else
      let (_, ch) := ideWhileBusy status ch (ch.current.busy + 1)
      if ch.current.signature.1 ≠ 0 ∨ ch.current.signature.2 ≠ 0 then (-1, s.setChannel i ch)
      else ideIdentify s i ch

/-- The device a request is about, or the error for an index that has none. -/
def ideRequest (s : Ide) (index : Int) (invalid : CStr) : Except CStr (Fin 4) :=
  match ideIndex index with
  | none => .error invalid
  | some i => if !(s.device i).present then .error (.ofLit "IDE device missing") else .ok i

/-- The status, the buffer and what is left. -/
def ideReadSector (s : Ide) (index : Int) (lba : UInt32) (buffer : Sector) : Int × Sector × Ide :=
  match ideRequest s index (.ofLit "IDE invalid read request") with
  | .error message => (-1, buffer, {s with lastError := message})
  | .ok i =>
    match ideWaitReady (s.channel (ideChannel i)) with
    | (some e, ch) => (-1, buffer, (s.setChannel i ch).errorIde e)
    | (none, ch) =>
      let ch := (ideDelay400ns (ch.select (ideSlave i))).command (.readSectors (lba28 lba))
      match ideWaitDrq (ideDelay400ns ch) with
      | (some e, ch) => (-1, buffer, (s.setChannel i ch).errorIde e)
      | (none, ch) => (0, ch.current.held, (s.setChannel i (ch.modify IdeDrive.taken)).errorOk)

def ideWriteSector (s : Ide) (index : Int) (lba : UInt32) (buffer : Sector) : Int × Ide :=
  match ideRequest s index (.ofLit "IDE invalid write request") with
  | .error message => (-1, {s with lastError := message})
  | .ok i =>
    match ideWaitReady (s.channel (ideChannel i)) with
    | (some e, ch) => (-1, (s.setChannel i ch).errorIde e)
    | (none, ch) =>
      let ch := (ideDelay400ns (ch.select (ideSlave i))).command (.writeSectors (lba28 lba))
      match ideWaitDrq (ideDelay400ns ch) with
      | (some e, ch) => (-1, (s.setChannel i ch).errorIde e)
      | (none, ch) =>
        match ideWaitNotBusy (ch.modify (IdeDrive.given buffer)) with
        | (some e, ch) => (-1, (s.setChannel i ch).errorIde e)
        | (none, ch) => (0, (s.setChannel i ch).errorOk)

def ideFlushCache (s : Ide) (index : Int) : Int × Ide :=
  match ideRequest s index (.ofLit "IDE invalid flush request") with
  | .error message => (-1, {s with lastError := message})
  | .ok i =>
    match ideWaitReady (s.channel (ideChannel i)) with
    | (some e, ch) => (-1, (s.setChannel i ch).errorIde e)
    | (none, ch) =>
      let ch := (ideDelay400ns (ch.select (ideSlave i))).command .flushCache
      match ideWaitNotBusy ch with
      | (some e, ch) => (-1, (s.setChannel i ch).errorIde e)
      | (none, ch) => (0, (s.setChannel i ch).errorOk)

/-! ### Histories -/

inductive IdeCall where
  | probe (index : Int)
  | read (index : Int) (lba : UInt32) (buffer : Sector)
  | write (index : Int) (lba : UInt32) (buffer : Sector)
  | flush (index : Int)

/-- What a call leaves. -/
def IdeCall.run (s : Ide) : IdeCall → Ide
  | probe index => (ideProbeDevice s index).2
  | read index lba buffer => (ideReadSector s index lba buffer).2.2
  | write index lba buffer => (ideWriteSector s index lba buffer).2
  | flush index => (ideFlushCache s index).2

end FurOS
