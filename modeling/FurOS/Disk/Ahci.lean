import FurOS.Disk.Ports

/-! AHCI commands, and the driver that a request goes to (`ahci_issue`, `ata_read_sector` and
`ata_write_sector` of `kernel/ata.c`).

A command is put together in memory, in the header and the table of the port, and the controller is told by a
store to `ci` to take it from there. The addresses of these and of the buffer are parameters, as
everything is that a register returns. The data of an AHCI device are moved by the controller, not by the code. -/
namespace FurOS.Ata
open Foundation (Metered)

def load (hba : UInt64) (reg : HbaReg) : Io UInt32 := Metered.ask (.load hba reg)

def store (hba : UInt64) (reg : HbaReg) (value : UInt32) : Io Unit := Metered.tell (.store hba reg value)

/-! ### What is in memory -/

/-- `struct fis_reg_h2d`, up to its reserved end. -/
structure FisRegH2d where
  fisType : UInt8 := 0
  pmportC : UInt8 := 0
  command : UInt8 := 0
  featurel : UInt8 := 0
  lba0 : UInt8 := 0
  lba1 : UInt8 := 0
  lba2 : UInt8 := 0
  device : UInt8 := 0
  lba3 : UInt8 := 0
  lba4 : UInt8 := 0
  lba5 : UInt8 := 0
  featureh : UInt8 := 0
  countl : UInt8 := 0
  counth : UInt8 := 0
  icc : UInt8 := 0
  control : UInt8 := 0

/-- The structure is packed: its members are one byte each, and four are reserved. -/
def FisRegH2d.bytes (fis : FisRegH2d) : List UInt8 :=
  [fis.fisType, fis.pmportC, fis.command, fis.featurel, fis.lba0, fis.lba1, fis.lba2, fis.device, fis.lba3,
    fis.lba4, fis.lba5, fis.featureh, fis.countl, fis.counth, fis.icc, fis.control, 0, 0, 0, 0]

/-- `struct hba_cmd_header`, without what stays zero. -/
structure HbaCmdHeader where
  flags : UInt8
  prdtl : UInt16
  ctba : UInt32
  ctbau : UInt32

/-- `struct hba_prdt_entry`. -/
structure HbaPrdtEntry where
  dba : UInt32
  dbau : UInt32
  dbcI : UInt32

/-- `struct hba_cmd_tbl`, without what stays zero. -/
structure HbaCmdTbl where
  cfis : Fin 64 → UInt8
  prdtEntry : HbaPrdtEntry

def HbaCmdTbl.zero : HbaCmdTbl := ⟨fun _ => 0, ⟨0, 0, 0⟩⟩

/-- What a command needs of `struct ahci_port_ctx`; the table is at an address. -/
structure AhciPortCtx where
  cmdHeader : HbaCmdHeader
  cmdTbl : HbaCmdTbl
  ctba : UInt64

/-- What a command needs of `struct ahci_device`. -/
structure AhciDevice where
  present : Bool
  port : UInt64

/-- The variables of `ata.c` that a request reads or writes. -/
structure State extends Driver where
  ahci : Fin 8 → AhciDevice
  ctx : Fin 8 → AhciPortCtx
  selected : Int

namespace State

def fail (s : State) (message : CStr) : State := {s with lastError := message}

/-- A command put together in the memory of a port. -/
def setCommand (s : State) (index : Fin 8) (header : HbaCmdHeader) (table : HbaCmdTbl) : State :=
  {s with ctx := Function.update s.ctx index ⟨header, table, (s.ctx index).ctba⟩}

end State

/-- `error_ahci`. -/
def errorAhci (s : State) (message : CStr) (port : UInt64) : Io (Int × State) := do
  let status ← load port .tfd
  let register ← load port .tfd
  return (-1, {s with
    lastError := message
    lastStatus := (status &&& 0xFF).toUInt8
    lastErrorReg := ((register >>> 8) &&& 0xFF).toUInt8})

/-! ### Waiting -/

/-- The loop of `ahci_wait_slot_free`: whether the slot got free. -/
def ahciWaitSlotFree (port : UInt64) (mask : UInt32) : Nat → Io Bool
  | 0 => return false
  | attempts + 1 => do
    let ci ← load port .ci
    let sact ← load port .sact
    if (ci ||| sact) &&& mask = 0 then return true
    else do
      ioWait
      ahciWaitSlotFree port mask attempts

/-- `BSY` or `DRQ` in the task file. -/
def taskFileBusy (tfd : UInt32) : Prop := (tfd &&& 0xFF).toUInt8 &&& (ataSrBsy ||| ataSrDrq) ≠ 0

instance (tfd : UInt32) : Decidable (taskFileBusy tfd) := inferInstanceAs (Decidable (_ ≠ _))

/-- The loop for the port: it stops without a result. -/
def ahciWaitPort (port : UInt64) : Nat → Io Unit
  | 0 => return ()
  | attempts + 1 => do
    let tfd ← load port .tfd
    if taskFileBusy tfd then do
      ioWait
      ahciWaitPort port attempts
    else return ()

/-- How a command ends. -/
inductive Completion where
  | done
  | taskFileError
  | timeout
  deriving DecidableEq

def hbaPxIsTfes : UInt32 := (1 : UInt32) <<< 30

/-- The loop for the command in the slot. -/
def ahciWaitCommand (port : UInt64) (mask : UInt32) : Nat → Io Completion
  | 0 => return .timeout
  | attempts + 1 => do
    let ci ← load port .ci
    let interrupts ← load port .is
    if interrupts &&& hbaPxIsTfes ≠ 0 then return .taskFileError
    else if ci &&& mask = 0 then return .done
    else do
      ioWait
      ahciWaitCommand port mask attempts

/-! ### Commands -/

/-- The FIS of a command. -/
def commandFis (command : UInt8) (lba : UInt32) (fisCount : UInt16) (deviceReg : UInt8) : FisRegH2d :=
  { fisType := 0x27
    pmportC := (1 : UInt8) <<< 7
    command := command
    device := deviceReg
    lba0 := (lba &&& 0xFF).toUInt8
    lba1 := ((lba >>> 8) &&& 0xFF).toUInt8
    lba2 := ((lba >>> 16) &&& 0xFF).toUInt8
    lba3 := ((lba >>> 24) &&& 0xFF).toUInt8
    countl := (fisCount &&& 0xFF).toUInt8
    counth := ((fisCount >>> 8) &&& 0xFF).toUInt8 }

/-- The header of a command: the FIS has five words, and bit 6 says that it writes. -/
def commandHeader (write : Bool) (ctba : UInt64) : HbaCmdHeader :=
  { flags := if write then (5 : UInt8) ||| ((1 : UInt8) <<< 6) else 5
    prdtl := 1
    ctba := ctba.toUInt32
    ctbau := 0 }

/-- The table of a command: the FIS at its start, and one block of the buffer. -/
def commandTable (fis : FisRegH2d) (transferCount : UInt16) (buffer : UInt64) : HbaCmdTbl :=
  { cfis := fun i => fis.bytes.getD i.val 0
    prdtEntry :=
      { dba := buffer.toUInt32
        dbau := 0
        dbcI := transferCount.toUInt32 * 512 - 1 } }

/-- The end of `ahci_issue`: the command is in memory. -/
def ahciRun (s : State) (port : UInt64) : Io (Int × State) := do
  store port .is 0xFFFFFFFF
  store port .ci 1
  let completion ← ahciWaitCommand port 1 ataPollAttempts
  match completion with
  | .done => return (0, {s with toDriver := s.toDriver.errorOk})
  | .taskFileError => errorAhci s (.ofLit "AHCI task file error") port
  | .timeout => errorAhci s (.ofLit "AHCI command timeout") port

/-- `ahci_issue`; the buffer is given by its address. -/
def ahciIssue (s : State) (index : Fin 8) (command : UInt8) (lba : UInt32) (transferCount fisCount : UInt16)
    (write : Bool) (deviceReg : UInt8) (buffer : UInt64) : Io (Int × State) := do
  let port := (s.ahci index).port
  let ctba := (s.ctx index).ctba
  if !(s.ahci index).present then return (-1, s.fail (.ofLit "AHCI device missing"))
  else if buffer = 0 ∨ transferCount = 0 then return (-1, s.fail (.ofLit "AHCI invalid request"))
  else do
    let free ← ahciWaitSlotFree port 1 ataPollAttempts
    if !free then errorAhci s (.ofLit "AHCI slot busy timeout") port
    else do
      ahciWaitPort port ataPollAttempts
      let tfd ← load port .tfd
      if taskFileBusy tfd then errorAhci s (.ofLit "AHCI port busy timeout") port
      -- A command that is given up stays in memory as far as it got.
      else if buffer >>> 32 ≠ 0 then
        errorAhci (s.setCommand index (commandHeader write 0) .zero) (.ofLit "AHCI DMA buffer above 4G") port
      else if ctba >>> 32 ≠ 0 then
        errorAhci (s.setCommand index (commandHeader write 0) (commandTable {} transferCount buffer))
          (.ofLit "AHCI command table above 4G") port
      else
        ahciRun (s.setCommand index (commandHeader write ctba)
          (commandTable (commandFis command lba fisCount deviceReg) transferCount buffer)) port

/-! ### The selected device -/

/-- The entry of the selected device. -/
def State.entry (s : State) : Option DeviceMap :=
  if s.selected < 0 then none else s.devices[s.selected.toNat]?

def ataCmdReadDmaExt : UInt8 := 0x25
def ataCmdWriteDmaExt : UInt8 := 0x35
def ataDevLba : UInt8 := 0x40

/-- The status, the buffer as the code leaves it, and the variables. -/
def ataReadSector (s : State) (lba : UInt32) (address : UInt64) (buffer : Sector) : Io (Int × Sector × State) :=
  match s.entry with
  | none => return (-1, buffer, s.fail (.ofLit "no selected disk"))
  | some entry =>
    match entry.source with
    | .ide index => do
      let (status, buffer, driver) ← ideReadSector s.toDriver index.val lba address buffer
      return (status, buffer, {s with toDriver := driver})
    | .ahci index => do
      let (status, s) ← ahciIssue s index ataCmdReadDmaExt lba 1 1 false ataDevLba address
      return (status, buffer, s)

def ataWriteSector (s : State) (lba : UInt32) (address : UInt64) (buffer : Sector) : Io (Int × State) :=
  match s.entry with
  | none => return (-1, s.fail (.ofLit "no selected disk"))
  | some entry =>
    match entry.source with
    | .ide index => do
      let (status, driver) ← ideWriteSector s.toDriver index.val lba address buffer
      return (status, {s with toDriver := driver})
    | .ahci index => ahciIssue s index ataCmdWriteDmaExt lba 1 1 true ataDevLba address

end FurOS.Ata
