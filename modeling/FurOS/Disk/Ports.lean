import Mathlib.Data.List.FinRange
import FurOS.Disk.Ide
import FurOS.Foundation.Metered

/-! The IDE driver down to its port accesses (`kernel/ata.c`).

`Disk.Ide` has a model of the drives; here there is none. What a port returns is an answer of
the environment, any value at all, and what is written to one is a request that it is told.
So nothing here ends because a drive does as it should: a loop on a status ends when the code gives up, or
when a value lets it. -/
namespace FurOS.Ata
open Foundation (Metered Event)

/-- The registers of an AHCI port that a command needs. -/
inductive HbaReg where
  | is
  | tfd
  | sact
  | ci
  deriving DecidableEq

/-- An access to a device, by a port or by a register in memory. -/
inductive Access where
  | inb (port : UInt16)
  | outb (port : UInt16) (value : UInt8)
  | inw (port : UInt16)
  | outw (port : UInt16) (value : UInt16)
  | load (hba : UInt64) (reg : HbaReg)
  | store (hba : UInt64) (reg : HbaReg) (value : UInt32)
  deriving DecidableEq

/-- Code that accesses devices. -/
abbrev Io := Metered Access UInt32

/-- The accesses made, with what they returned. -/
abbrev Trace := List (Event Access UInt32)

def inb (port : UInt16) : Io UInt8 := do
  let value ← Metered.ask (.inb port)
  return value.toUInt8

def inw (port : UInt16) : Io UInt16 := do
  let value ← Metered.ask (.inw port)
  return value.toUInt16

def outb (port : UInt16) (value : UInt8) : Io Unit := Metered.tell (.outb port value)

def outw (port : UInt16) (value : UInt16) : Io Unit := Metered.tell (.outw port value)

def ioWait : Io Unit := outb 0x80 0

/-- `while (cond(status)) status = inb(port);`. -/
def inbWhile (port : UInt16) (cond : UInt8 → Bool) (status : UInt8) : Io UInt8 := do
  let value ← Metered.askWhile (.inb port) (fun value => cond value.toUInt8) status.toUInt32
  return value.toUInt8

/-! ### The driver's variables -/

/-- An entry of `g_ide_devices`, with the model's name. -/
structure IdeDevice extends FurOS.IdeDevice where
  model : Fin 41 → UInt8

def IdeDevice.absent : IdeDevice := { FurOS.IdeDevice.absent with model := fun _ => 0 }

/-- `kind` and `source_index` of a device: what is not there has no entry. -/
inductive Source where
  | ide (index : Fin 4)
  | ahci (index : Fin 8)
  deriving DecidableEq

/-- An entry of `g_devices`. -/
structure DeviceMap where
  source : Source
  ioBase : UInt16
  slave : UInt8
  sectors28 : UInt32
  model : Fin 41 → UInt8

/-- What the functions for IDE keep: `g_ide_devices`, the used part of `g_devices`, and the last error. -/
structure Driver where
  ide : Fin 4 → IdeDevice
  devices : List DeviceMap
  lastError : CStr
  lastStatus : UInt8
  lastErrorReg : UInt8

namespace Driver

def initial : Driver :=
  { ide := fun _ => .absent, devices := [], lastError := .ofLit "ok", lastStatus := 0, lastErrorReg := 0 }

def setIde (s : Driver) (i : Fin 4) (dev : IdeDevice) : Driver := {s with ide := Function.update s.ide i dev}

def errorOk (s : Driver) : Driver := {s with lastError := .ofLit "ok", lastStatus := 0, lastErrorReg := 0}

def errorIde (s : Driver) (e : IdeError) : Driver :=
  {s with lastError := e.message, lastStatus := e.status, lastErrorReg := e.register}

end Driver

/-- `io_base` of a device. -/
def ideBase (i : Fin 4) : UInt16 := if i.val < 2 then 0x1F0 else 0x170

/-- `slave` of a device. -/
def slaveBit (i : Fin 4) : UInt8 := if ideSlave i then 1 else 0

/-! ### Waiting -/

def ideDelay400ns (ioBase : UInt16) : Io Unit := do
  let _ ← inb (ioBase + 0x206)
  let _ ← inb (ioBase + 0x206)
  let _ ← inb (ioBase + 0x206)
  let _ ← inb (ioBase + 0x206)
  return ()

/-- `error_ide`. -/
def errorIde (message : CStr) (ioBase : UInt16) (status : UInt8) : Io IdeError := do
  let register ← inb (ioBase + 1)
  return ⟨message, status, register⟩

/-- The loop of the three waits: `none` is `return 0`. -/
def idePoll (verdict : UInt8 → Verdict) (timeout : CStr) (ioBase : UInt16) (status : UInt8) :
    Nat → Io (Option IdeError)
  | 0 => do
    let e ← errorIde timeout ioBase status
    return some e
  | attempts + 1 => do
    let status ← inb (ioBase + 7)
    match verdict status with
    | .again => do
      ioWait
      idePoll verdict timeout ioBase status attempts
    | .done => return none
    | .failed message => do
      let e ← errorIde message ioBase status
      return some e

def ideWait (verdict : UInt8 → Verdict) (timeout : CStr) (ioBase : UInt16) : Io (Option IdeError) := do
  ideDelay400ns ioBase
  idePoll verdict timeout ioBase 0 ataPollAttempts

def ideWaitReady : UInt16 → Io (Option IdeError) :=
  ideWait (idleVerdict (.ofLit "IDE ready wait error")) (.ofLit "IDE ready timeout")

def ideWaitDrq : UInt16 → Io (Option IdeError) := ideWait drqVerdict (.ofLit "IDE DRQ timeout")

def ideWaitNotBusy : UInt16 → Io (Option IdeError) :=
  ideWait (idleVerdict (.ofLit "IDE completion error")) (.ofLit "IDE completion timeout")

/-! ### Probing -/

/-- `extract_model_from_identify`: words 27 to 46, the high byte of each first, without the blanks and
terminators at the end. -/
def extractModel (id : Fin 256 → UInt16) : Fin 41 → UInt8 :=
  let chars := (List.finRange 20).flatMap fun i =>
    let word := id ⟨27 + i.val, by omega⟩
    [(word >>> 8).toUInt8, (word &&& 0xFF).toUInt8]
  let kept := (chars.reverse.dropWhile fun c => c = 32 ∨ c = 0).reverse
  fun i => kept.getD i.val 0

/-- `for (i = 0; i < 256; i++) dev->identify[i] = inw(port);`. -/
def readIdentify (port : UInt16) (identify : Fin 256 → UInt16) : Io (Fin 256 → UInt16) :=
  (List.finRange 256).foldlM (fun identify i => do
    let word ← inw port
    return Function.update identify i word) identify

/-- The end of `ide_probe_device`, for a device that has data to identify itself with. -/
def ideIdentify (s : Driver) (i : Fin 4) : Io (Int × Driver) := do
  let e ← ideWaitDrq (ideBase i)
  match e with
  | some e => return (-1, s.errorIde e)
  | none => do
    let identify ← readIdentify (ideBase i) (s.ide i).identify
    return (0, s.setIde i
      { present := true
        identify := identify
        sectors28 := (identify ⟨60, by decide⟩).toUInt32 ||| ((identify ⟨61, by decide⟩).toUInt32 <<< 16)
        model := extractModel identify })

def ideProbeDevice (s : Driver) (index : Int) : Io (Int × Driver) :=
  match ideIndex index with
  | none => return (-1, s)
  | some i => do
    let ioBase := ideBase i
    let s := s.setIde i .absent
    outb (ioBase + 6) ((0xA0 : UInt8) ||| (slaveBit i <<< 4))
    ideDelay400ns ioBase
    outb (ioBase + 2) 0
    outb (ioBase + 3) 0
    outb (ioBase + 4) 0
    outb (ioBase + 5) 0
    outb (ioBase + 7) 0xEC
    let status ← inb (ioBase + 7)
    if status = 0 then return (-1, s)
    else do
      let _ ← inbWhile (ioBase + 7) (fun status => status &&& ataSrBsy ≠ 0) status
      let lba1 ← inb (ioBase + 4)
      let lba2 ← inb (ioBase + 5)
      if lba1 ≠ 0 ∨ lba2 ≠ 0 then return (-1, s)
      else ideIdentify s i

/-- `add_device_map`. -/
def addDeviceMap (s : Driver) (entry : DeviceMap) : Driver :=
  if s.devices.length ≥ 16 then s else {s with devices := s.devices ++ [entry]}

/-- A device of the first loop of `ata_scan`. -/
def scanIdeDevice (s : Driver) (i : Fin 4) : Io Driver := do
  let (status, s) ← ideProbeDevice s i.val
  if status = 0 ∧ (s.ide i).present then
    return addDeviceMap s
      { source := .ide i
        ioBase := ideBase i
        slave := slaveBit i
        sectors28 := (s.ide i).sectors28
        model := kstrcpy (fun _ => 0) (cstr (s.ide i).model) }
  else return s

/-- `ata_scan` up to where it turns to the PCI bus. -/
def scanIde (s : Driver) : Io Driver := (List.finRange 4).foldlM scanIdeDevice {s with devices := []}

/-! ### Sectors -/

/-- The device a request is about, or the error for an index that has none or a buffer at no address. -/
def ideRequest (s : Driver) (index : Int) (address : UInt64) (invalid : CStr) : Except CStr (Fin 4) :=
  match ideIndex index with
  | none => .error invalid
  | some i =>
    if address = 0 then .error invalid
    else if !(s.ide i).present then .error (.ofLit "IDE device missing")
    else .ok i

/-- The registers for a command about one sector, and the command. -/
def ideCommand (i : Fin 4) (lba : UInt32) (command : UInt8) : Io Unit := do
  let ioBase := ideBase i
  outb (ioBase + 6) ((0xE0 : UInt32) ||| ((slaveBit i).toUInt32 <<< 4) ||| ((lba >>> 24) &&& 0x0F)).toUInt8
  ideDelay400ns ioBase
  outb (ioBase + 2) 1
  outb (ioBase + 3) (lba &&& 0xFF).toUInt8
  outb (ioBase + 4) ((lba >>> 8) &&& 0xFF).toUInt8
  outb (ioBase + 5) ((lba >>> 16) &&& 0xFF).toUInt8
  outb (ioBase + 7) command
  ideDelay400ns ioBase

/-- The places of the two bytes of a word in a buffer. -/
def lowAt (i : Fin 256) : Fin 512 := ⟨i.val * 2, by omega⟩

def highAt (i : Fin 256) : Fin 512 := ⟨i.val * 2 + 1, by omega⟩

/-- The loop of `ide_read_sector`. -/
def readWords (port : UInt16) (buffer : Sector) : Io Sector :=
  (List.finRange 256).foldlM (fun buffer i => do
    let w ← inw port
    let buffer := Function.update buffer (lowAt i) (w &&& 0xFF).toUInt8
    return Function.update buffer (highAt i) (w >>> 8).toUInt8) buffer

/-- A word of `ide_write_sector`. -/
def wordAt (buffer : Sector) (i : Fin 256) : UInt16 :=
  (buffer (lowAt i)).toUInt16 |||
    ((buffer (highAt i)).toUInt16 <<< 8)

/-- The loop of `ide_write_sector`. -/
def writeWords (port : UInt16) (buffer : Sector) : Io Unit :=
  (List.finRange 256).foldlM (fun _ i => outw port (wordAt buffer i)) ()

/-- The status, the buffer and what is left; the buffer is at an address. -/
def ideReadSector (s : Driver) (index : Int) (lba : UInt32) (address : UInt64) (buffer : Sector) :
    Io (Int × Sector × Driver) :=
  match ideRequest s index address (.ofLit "IDE invalid read request") with
  | .error message => return (-1, buffer, {s with lastError := message})
  | .ok i => do
    let e ← ideWaitReady (ideBase i)
    match e with
    | some e => return (-1, buffer, s.errorIde e)
    | none => do
      ideCommand i lba 0x20
      let e ← ideWaitDrq (ideBase i)
      match e with
      | some e => return (-1, buffer, s.errorIde e)
      | none => do
        let buffer ← readWords (ideBase i) buffer
        return (0, buffer, s.errorOk)

def ideWriteSector (s : Driver) (index : Int) (lba : UInt32) (address : UInt64) (buffer : Sector) :
    Io (Int × Driver) :=
  match ideRequest s index address (.ofLit "IDE invalid write request") with
  | .error message => return (-1, {s with lastError := message})
  | .ok i => do
    let e ← ideWaitReady (ideBase i)
    match e with
    | some e => return (-1, s.errorIde e)
    | none => do
      ideCommand i lba 0x30
      let e ← ideWaitDrq (ideBase i)
      match e with
      | some e => return (-1, s.errorIde e)
      | none => do
        writeWords (ideBase i) buffer
        let e ← ideWaitNotBusy (ideBase i)
        match e with
        | some e => return (-1, s.errorIde e)
        | none => return (0, s.errorOk)

/-- `ide_flush_cache`, which has no buffer and asks for no address. -/
def ideFlushCache (s : Driver) (index : Int) : Io (Int × Driver) :=
  match ideIndex index with
  | none => return (-1, {s with lastError := .ofLit "IDE invalid flush request"})
  | some i =>
    if !(s.ide i).present then return (-1, {s with lastError := .ofLit "IDE device missing"})
    else do
      let e ← ideWaitReady (ideBase i)
      match e with
      | some e => return (-1, s.errorIde e)
      | none => do
        outb (ideBase i + 6) ((0xA0 : UInt8) ||| (slaveBit i <<< 4))
        ideDelay400ns (ideBase i)
        outb (ideBase i + 7) 0xE7
        let e ← ideWaitNotBusy (ideBase i)
        match e with
        | some e => return (-1, s.errorIde e)
        | none => return (0, s.errorOk)

end FurOS.Ata
