import FurOS.Disk.Ahci

/-! What `ata_scan` finds: IDE devices, and AHCI ports of controllers on the PCI bus (`kernel/ata.c`).

The accesses of `Disk.Ports` are a part of those made here. Configuration space is behind two ports that take
32 bits, and the registers of a controller and of its ports are in memory at an address read from there. What
any of them returns is given from outside, and so is what a controller has left in memory. -/
namespace FurOS.Ata
open Foundation (Metered Event)

/-! ### Accesses -/

/-- The registers of `struct hba_port` that setting a port up takes, beside those of a command. -/
inductive HbaPortReg where
  | clb
  | clbu
  | fb
  | fbu
  | cmd
  | sig
  | ssts
  | serr
  deriving DecidableEq

/-- The registers of `struct hba_mem` that are used. -/
inductive HbaMemReg where
  | ghc
  | pi
  deriving DecidableEq

inductive ScanAccess where
  | device (access : Access)
  | outl (port : UInt16) (value : UInt32)
  | inl (port : UInt16)
  | loadPort (port : UInt64) (reg : HbaPortReg)
  | storePort (port : UInt64) (reg : HbaPortReg) (value : UInt32)
  | loadHba (abar : UInt64) (reg : HbaMemReg)
  | storeHba (abar : UInt64) (reg : HbaMemReg) (value : UInt32)
  /-- A word of a buffer that a controller was given. -/
  | dma (address : UInt64) (i : Fin 256)
  deriving DecidableEq

abbrev ScanIo := Metered ScanAccess UInt32

abbrev ScanTrace := List (Event ScanAccess UInt32)

/-- Code that makes only the accesses of `Disk.Ports`. -/
def onDevice {α : Type} (p : Io α) : ScanIo α := p.within .device

def outl (port : UInt16) (value : UInt32) : ScanIo Unit := Metered.tell (.outl port value)

def inl (port : UInt16) : ScanIo UInt32 := Metered.ask (.inl port)

def loadPort (port : UInt64) (reg : HbaPortReg) : ScanIo UInt32 := Metered.ask (.loadPort port reg)

def storePort (port : UInt64) (reg : HbaPortReg) (value : UInt32) : ScanIo Unit :=
  Metered.tell (.storePort port reg value)

def loadHba (abar : UInt64) (reg : HbaMemReg) : ScanIo UInt32 := Metered.ask (.loadHba abar reg)

def storeHba (abar : UInt64) (reg : HbaMemReg) (value : UInt32) : ScanIo Unit :=
  Metered.tell (.storeHba abar reg value)

/-! ### Configuration space -/

/-- A bus, a slot on it and a function there. -/
structure PciFunction where
  bus : UInt8
  slot : UInt8
  func : UInt8
  deriving DecidableEq

def pciConfigAddress : UInt16 := 0xCF8
def pciConfigData : UInt16 := 0xCFC

/-- `address` of `pci_read32` and of `pci_write32`. -/
def PciFunction.address (f : PciFunction) (offset : UInt8) : UInt32 :=
  (0x80000000 : UInt32) ||| (f.bus.toUInt32 <<< 16) ||| (f.slot.toUInt32 <<< 11) ||| (f.func.toUInt32 <<< 8) |||
    (offset.toUInt32 &&& 0xFC)

def pciRead32 (f : PciFunction) (offset : UInt8) : ScanIo UInt32 := do
  outl pciConfigAddress (f.address offset)
  inl pciConfigData

def pciWrite32 (f : PciFunction) (offset : UInt8) (value : UInt32) : ScanIo Unit := do
  outl pciConfigAddress (f.address offset)
  outl pciConfigData value

/-! ### The variables -/

/-- What `struct ahci_device` keeps for the device map. -/
structure AhciInfo where
  portNo : UInt8
  sectors28 : UInt32
  model : Fin 41 → UInt8

def AhciInfo.zero : AhciInfo := ⟨0, 0, fun _ => 0⟩

/-- Where the parts of a `struct ahci_port_ctx` are; `ctba` is with what a command needs. -/
structure CtxAddress where
  clb : UInt64
  fb : UInt64
  identify : UInt64

/-- The variables of `ata.c`. -/
structure Scanner extends State where
  info : Fin 8 → AhciInfo
  address : Fin 8 → CtxAddress
  ahciCount : Nat
  controllersSeen : Nat
  bar64Rejected : Nat
  portsConsidered : Nat
  dbgPciHostId : UInt32
  dbgSlot13Id : UInt32
  dbgSlot13Class : UInt32
  dbgSlot13Bar5 : UInt32

namespace Scanner

/-- The variables before the first call; where the contexts are is up to the linker. -/
def initial (address : Fin 8 → CtxAddress) (ctba : Fin 8 → UInt64) : Scanner :=
  { Driver.initial with
    ahci := fun _ => ⟨false, 0⟩
    ctx := fun i => ⟨⟨0, 0, 0, 0⟩, .zero, ctba i⟩
    selected := -1
    info := fun _ => .zero
    address := address
    ahciCount := 0
    controllersSeen := 0
    bar64Rejected := 0
    portsConsidered := 0
    dbgPciHostId := 0xFFFFFFFF
    dbgSlot13Id := 0xFFFFFFFF
    dbgSlot13Class := 0xFFFFFFFF
    dbgSlot13Bar5 := 0xFFFFFFFF }

def setAhci (s : Scanner) (i : Fin 8) (dev : AhciDevice) (info : AhciInfo) : Scanner :=
  {s with ahci := Function.update s.ahci i dev, info := Function.update s.info i info}

end Scanner

/-! ### A port -/

def hbaPxCmdSt : UInt32 := 1
def hbaPxCmdFre : UInt32 := (1 : UInt32) <<< 4
def hbaPxCmdFr : UInt32 := (1 : UInt32) <<< 14
def hbaPxCmdCr : UInt32 := (1 : UInt32) <<< 15

/-- An error of a port, for a caller that gets to see the status alone. -/
def errorPort (s : Scanner) (message : CStr) (port : UInt64) : ScanIo (Int × Scanner) := do
  let x ← onDevice (errorAhci s.toState message port)
  return (x.1, {s with toState := x.2})

/-- The loop of `ahci_stop_port`: whether the port stopped. -/
def ahciPollStopped (port : UInt64) : Nat → ScanIo Bool
  | 0 => return false
  | attempts + 1 => do
    let cmd ← loadPort port .cmd
    if cmd &&& (hbaPxCmdCr ||| hbaPxCmdFr) = 0 then return true
    else do
      onDevice ioWait
      ahciPollStopped port attempts

def ahciStopPort (s : Scanner) (port : UInt64) : ScanIo (Int × Scanner) := do
  let cmd ← loadPort port .cmd
  storePort port .cmd (cmd &&& ~~~(hbaPxCmdSt ||| hbaPxCmdFre))
  let stopped ← ahciPollStopped port ataPollAttempts
  if stopped then return (0, s) else errorPort s (.ofLit "AHCI stop timeout") port

/-- The loop of `ahci_start_port`, which stops without a result. -/
def ahciPollCr (port : UInt64) : Nat → ScanIo Unit
  | 0 => return ()
  | attempts + 1 => do
    let cmd ← loadPort port .cmd
    if cmd &&& hbaPxCmdCr = 0 then return ()
    else do
      onDevice ioWait
      ahciPollCr port attempts

/-- `port->cmd |= bits`. -/
def setCmd (port : UInt64) (bits : UInt32) : ScanIo Unit := do
  let cmd ← loadPort port .cmd
  storePort port .cmd (cmd ||| bits)

def ahciStartPort (s : Scanner) (port : UInt64) : ScanIo (Int × Scanner) := do
  ahciPollCr port ataPollAttempts
  let cmd ← loadPort port .cmd
  if cmd &&& hbaPxCmdCr ≠ 0 then errorPort s (.ofLit "AHCI CR clear timeout") port
  else do
    setCmd port hbaPxCmdFre
    setCmd port hbaPxCmdSt
    return (0, s)

/-- The stores of `ahci_setup_port`, for a context at these addresses. -/
def ahciProgram (port : UInt64) (a : CtxAddress) : ScanIo Unit := do
  storePort port .clb a.clb.toUInt32
  storePort port .clbu 0
  storePort port .fb a.fb.toUInt32
  storePort port .fbu 0
  onDevice (store port .is 0xFFFFFFFF)
  storePort port .serr 0xFFFFFFFF

def ahciSetupPort (s : Scanner) (index : Fin 8) : ScanIo (Int × Scanner) := do
  let port := (s.ahci index).port
  let x ← ahciStopPort s port
  if x.1 ≠ 0 then return (-1, x.2)
  else do
    let s : Scanner := {x.2 with toState := x.2.toState.setCommand index ⟨0, 0, 0, 0⟩ .zero}
    let a := s.address index
    if a.clb >>> 32 ≠ 0 ∨ a.fb >>> 32 ≠ 0 then
      errorPort s (.ofLit "AHCI high memory not supported") port
    else do
      ahciProgram port a
      let x ← ahciStartPort s port
      if x.1 ≠ 0 then return (-1, x.2) else return (0, x.2)

/-! ### Devices -/

/-- `add_prefixed_model`: as much of both as there is room for. -/
def addPrefixedModel (out : Fin 41 → UInt8) (text model : CStr) : Fin 41 → UInt8 :=
  kstrcpy out ((text.chars ++ model.chars).take 40)

/-- The data a controller has left in the buffer of `IDENTIFY`. -/
def readDma (address : UInt64) : ScanIo (Fin 256 → UInt16) :=
  (List.finRange 256).foldlM (fun id i => do
    let word ← Metered.ask (.dma address i)
    return Function.update id i word.toUInt16) fun _ => 0

def ataCmdIdentify : UInt8 := 0xEC

/-- The name that `IDENTIFY` gives an AHCI device. -/
def identifiedModel (out : Fin 41 → UInt8) (id : Fin 256 → UInt16) : Fin 41 → UInt8 :=
  let model := extractModel id
  let model := if model 0 = 0 then kstrcpy model (lit "SATA Disk") else model
  addPrefixedModel out (.ofLit "AHCI ") ⟨cstr model, cstr_noNul model⟩

theorem sectorsLow_word : 60 < 256 := by decide

theorem sectorsHigh_word : 61 < 256 := by decide

def ahciIdentify (s : Scanner) (index : Fin 8) : ScanIo (Int × Scanner) := do
  let x ← onDevice (ahciIssue s.toState index ataCmdIdentify 0 1 0 false 0 (s.address index).identify)
  let s := {s with toState := x.2}
  if x.1 ≠ 0 then return (-1, s)
  else do
    let id ← readDma (s.address index).identify
    let info : AhciInfo :=
      { portNo := (s.info index).portNo
        sectors28 := (id ⟨60, sectorsLow_word⟩).toUInt32 ||| ((id ⟨61, sectorsHigh_word⟩).toUInt32 <<< 16)
        model := identifiedModel (s.info index).model id }
    return (0, s.setAhci index (s.ahci index) info)

/-- The entry of a port before anything is known of it. -/
def claimAhci (s : Scanner) (index : Fin 8) (port : UInt64) (portNo : UInt8) : Scanner :=
  s.setAhci index ⟨false, port⟩ {AhciInfo.zero with portNo := portNo}

/-- The end of `ahci_register_port`: a device that does not identify itself is taken as it is. -/
def ahciRegistered (s : Scanner) (index : Fin 8) (identified : Bool) : Scanner :=
  let info := s.info index
  let info := if identified then info else
    {info with sectors28 := 0x0FFFFFFF, model := kstrcpy info.model (lit "AHCI Disk")}
  {s.setAhci index ⟨true, (s.ahci index).port⟩ info with ahciCount := s.ahciCount + 1}

def ahciRegisterPort (s : Scanner) (port : UInt64) (portNo : UInt8) : ScanIo (Int × Scanner) :=
  if h : s.ahciCount < 8 then do
    let index : Fin 8 := ⟨s.ahciCount, h⟩
    let x ← ahciSetupPort (claimAhci s index port portNo) index
    if x.1 ≠ 0 then return (-1, x.2)
    else do
      let x ← ahciIdentify x.2 index
      return (0, ahciRegistered x.2 index (x.1 = 0))
  else return (-1, s)

/-! ### Controllers -/

/-- `&hba->ports[port_no]`. -/
def portAddress (abar : UInt64) (portNo : Fin 32) : UInt64 := abar + 0x100 + 0x80 * UInt64.ofNat portNo.val

/-- The link of a port is up: `DET` and `IPM` in its status. -/
def linkUp (ssts : UInt32) : Bool := (ssts &&& 0xF).toUInt8 = 0x3 ∧ ((ssts >>> 8) &&& 0xF).toUInt8 = 0x1

def sataSigAta : UInt32 := 0x00000101

/-- Whether the signature is one that is skipped; it is read again for each comparison. -/
def skippedSig (port : UInt64) : ScanIo Bool := do
  let sig ← loadPort port .sig
  if sig = sataSigAta then return false
  else do
    let sig ← loadPort port .sig
    if sig = 0 then return false
    else do
      let sig ← loadPort port .sig
      return sig ≠ 0xFFFFFFFF

/-- The loop of `ahci_probe_controller`. -/
def ahciProbePorts (abar : UInt64) (ports : UInt32) : List (Fin 32) → Scanner → ScanIo Scanner
  | [], s => return s
  | portNo :: rest, s =>
    if ports &&& ((1 : UInt32) <<< UInt32.ofNat portNo.val) = 0 then ahciProbePorts abar ports rest s
    else if s.ahciCount ≥ 8 then return s
    else do
      let port := portAddress abar portNo
      let ssts ← loadPort port .ssts
      if !linkUp ssts then ahciProbePorts abar ports rest s
      else do
        let skipped ← skippedSig port
        if skipped then ahciProbePorts abar ports rest s
        else do
          let x ← ahciRegisterPort {s with portsConsidered := s.portsConsidered + 1} port (UInt8.ofNat portNo.val)
          ahciProbePorts abar ports rest x.2

/-- `ahci_probe_controller` once it has an address for the registers. -/
def ahciProbeHba (s : Scanner) (bar5 : UInt32) : ScanIo Scanner :=
  let abar := (bar5 &&& ~~~0x0F).toUInt64
  if abar = 0 then return s
  else do
    let ghc ← loadHba abar .ghc
    storeHba abar .ghc (ghc ||| ((1 : UInt32) <<< 31))
    let ports ← loadHba abar .pi
    ahciProbePorts abar ports (List.finRange 32) s

/-- Whether a class register is of a function that is probed. -/
def probedClass (classReg : UInt32) (probeMode : Int) : Bool :=
  let classCode := ((classReg >>> 24) &&& 0xFF).toUInt8
  let subclass := ((classReg >>> 16) &&& 0xFF).toUInt8
  !(probeMode ≥ 0 && classCode ≠ 0x01) && !(probeMode > 0 && subclass ≠ 0x06)

def ahciProbeController (s : Scanner) (f : PciFunction) (probeMode : Int) : ScanIo Scanner := do
  let id ← pciRead32 f 0x00
  if (id &&& 0xFFFF).toUInt16 = 0xFFFF then return s
  else do
    let classReg ← pciRead32 f 0x08
    if !probedClass classReg probeMode then return s
    else do
      let s := {s with controllersSeen := s.controllersSeen + 1}
      let command ← pciRead32 f 0x04
      pciWrite32 f 0x04 (command ||| (((1 : UInt32) <<< 1) ||| ((1 : UInt32) <<< 2)))
      let bar5 ← pciRead32 f 0x24
      if bar5 = 0 ∨ bar5 &&& 1 ≠ 0 then return s
      else if bar5 &&& 0x6 = 0x4 then do
        let high ← pciRead32 f 0x28
        if high ≠ 0 then return {s with bar64Rejected := s.bar64Rejected + 1}
        else ahciProbeHba s bar5
      else ahciProbeHba s bar5

/-- The functions of the three loops of `ahci_scan_controllers`, in their order. -/
def pciFunctions : List PciFunction :=
  (List.range 256).flatMap fun bus => (List.range 32).flatMap fun slot => (List.range 8).map fun func =>
    ⟨UInt8.ofNat bus, UInt8.ofNat slot, UInt8.ofNat func⟩

def ahciScanControllers (s : Scanner) : ScanIo Scanner := do
  let s := {s with
    ahci := fun _ => ⟨false, 0⟩
    info := fun _ => .zero
    ahciCount := 0
    controllersSeen := 0
    bar64Rejected := 0
    portsConsidered := 0}
  let s ← pciFunctions.foldlM (fun s f => ahciProbeController s f 1) s
  if s.ahciCount = 0 then do
    let s ← ahciProbeController s ⟨0, 13, 0⟩ (-1)
    let s ← ahciProbeController s ⟨0, 31, 2⟩ (-1)
    ahciProbeController s ⟨0, 31, 5⟩ (-1)
  else return s

/-! ### The device map -/

/-- A device of the last loop of `ata_scan`. -/
def addAhciDevice (s : Scanner) (i : Fin 8) : Scanner :=
  if i.val < s.ahciCount ∧ (s.ahci i).present then
    let entry : DeviceMap :=
      { source := .ahci i
        ioBase := 0
        slave := 0
        sectors28 := (s.info i).sectors28
        model := kstrcpy (fun _ => 0) (cstr (s.info i).model) }
    {s with toDriver := addDeviceMap s.toDriver entry}
  else s

/-- The end of `ata_scan`. -/
def scanVerdict (s : Scanner) (pciHostId : UInt32) : Scanner :=
  if s.devices.length > 0 then {s with selected := 0, toDriver := s.toDriver.errorOk}
  else
    let message :=
      if s.controllersSeen > 0 ∧ s.ahciCount = 0 then
        if s.bar64Rejected > 0 then "AHCI BAR above 4G unsupported"
        else if s.portsConsidered = 0 then "AHCI found but no disk ports"
        else "AHCI identify failed"
      else if pciHostId &&& 0xFFFF = 0xFFFF then "PCI config space unavailable"
      else "no supported disk controller"
    {s with lastError := .ofLit message}

/-- `ata_scan` from where it turns to the PCI bus. -/
def scanPci (s : Scanner) : ScanIo (Int × Scanner) := do
  let pciHostId ← pciRead32 ⟨0, 0, 0⟩ 0x00
  let slot13Id ← pciRead32 ⟨0, 13, 0⟩ 0x00
  let slot13Class ← pciRead32 ⟨0, 13, 0⟩ 0x08
  let slot13Bar5 ← pciRead32 ⟨0, 13, 0⟩ 0x24
  let s := {s with
    dbgPciHostId := pciHostId
    dbgSlot13Id := slot13Id
    dbgSlot13Class := slot13Class
    dbgSlot13Bar5 := slot13Bar5}
  let s ← (if pciHostId &&& 0xFFFF ≠ 0xFFFF then ahciScanControllers s else return s : ScanIo Scanner)
  let s := scanVerdict ((List.finRange 8).foldl addAhciDevice s) pciHostId
  return (s.devices.length, s)

def ataScan (s : Scanner) : ScanIo (Int × Scanner) := do
  let driver ← onDevice (scanIde s.toDriver)
  scanPci {s with toDriver := driver, selected := -1}

/-! ### Devices by their number -/

/-- `struct ata_device_info`; `interface_type` is whether it is AHCI. -/
structure AtaDeviceInfo where
  present : Bool
  index : Int
  isAhci : Bool
  ioBase : UInt16
  slave : UInt8
  sectors28 : UInt32
  model : Fin 41 → UInt8

def Source.isAhci : Source → Bool
  | ide _ => false
  | ahci _ => true

/-- What `ata_get_info` stores for an entry. -/
def DeviceMap.info (entry : DeviceMap) (index : Int) (out : AtaDeviceInfo) : AtaDeviceInfo :=
  { present := true
    index := index
    isAhci := entry.source.isAhci
    ioBase := entry.ioBase
    slave := entry.slave
    sectors28 := entry.sectors28
    model := kstrcpy out.model (cstr entry.model) }

/-- What is stored in `out`, which is null or points at something; nothing for `return -1`. -/
def ataGetInfo (s : Scanner) (index : Int) (out : Option AtaDeviceInfo) : Option AtaDeviceInfo :=
  if index < 0 then none else out.bind fun out => s.devices[index.toNat]?.map fun entry => entry.info index out

def ataSelectDevice (s : Scanner) (index : Int) : Int × Scanner :=
  if index < 0 ∨ index ≥ s.devices.length then (-1, s) else (0, {s with selected := index})

/-- `ata_flush`: a DMA transfer is over when the command is. -/
def ataFlush (s : State) : Io (Int × State) :=
  match s.entry with
  | none => return (-1, s.fail (.ofLit "no selected disk"))
  | some entry =>
    match entry.source with
    | .ide index => do
      let x ← ideFlushCache s.toDriver index.val
      return (x.1, {s with toDriver := x.2})
    | .ahci _ => return (0, {s with toDriver := s.toDriver.errorOk})

/-- `struct ata_debug_state`. -/
structure AtaDebugState where
  pciHostId : UInt32
  pciAhciSlotId : UInt32
  pciAhciSlotClass : UInt32
  pciAhciSlotBar5 : UInt32
  ahciControllersSeen : Nat
  ahciPortsConsidered : Nat
  ahciDevicesFound : Nat

/-- `ata_debug_state`, for an `out` that is not null. -/
def ataDebugState (s : Scanner) : AtaDebugState :=
  { pciHostId := s.dbgPciHostId
    pciAhciSlotId := s.dbgSlot13Id
    pciAhciSlotClass := s.dbgSlot13Class
    pciAhciSlotBar5 := s.dbgSlot13Bar5
    ahciControllersSeen := s.controllersSeen
    ahciPortsConsidered := s.portsConsidered
    ahciDevicesFound := s.ahciCount }

end FurOS.Ata
