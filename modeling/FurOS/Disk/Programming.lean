import FurOS.Disk.DeviceMap
import FurOS.Disk.Addressing

/-! How a scan treats AHCI ports (`ahci_register_port` of `kernel/ata.c` and what it calls).

Two things hold of every run, whatever the registers return. No command is sent to a port: the one for
`IDENTIFY` is asked of a device that is not marked as present yet (`ataScan_uncommanded`). And a port is
started with care: between the store that tells it to stop and one that lets it run there is a read that
shows it at rest, and then it is given the memory of one context, which no other port was started
with (`ataScan_programs`). -/
namespace FurOS.Ata
open Foundation (Metered Event Monitor Gives)

/-! ### No command -/

/-- An access of a device that sends no command. -/
def Harmless : Event Access UInt32 → Prop
  | .told (.store _ .ci _) => False
  | _ => True

/-- Whatever the search for controllers does once it has the registers of one is of this kind. -/
structure Covers (P : Event ScanAccess UInt32 → Prop) : Prop where
  device : ∀ e, Harmless e → P (e.map .device)
  loadPort : ∀ port reg a, P (.asked (.loadPort port reg) a)
  storePort : ∀ port reg value, P (.told (.storePort port reg value))
  loadHba : ∀ abar reg a, P (.asked (.loadHba abar reg) a)
  storeHba : ∀ abar reg value, P (.told (.storeHba abar reg value))

section Emits
variable {P : Event ScanAccess UInt32 → Prop}

theorem polls_harmless {e : Event Access UInt32} (h : Polls e) : Harmless e := by
  cases e with
  | asked req a => trivial
  | told req =>
    cases req with
    | store hba reg value => exact absurd h id
    | inb port => trivial
    | outb port value => trivial
    | inw port => trivial
    | outw port value => trivial
    | load hba reg => trivial

theorem loadPort_emits (hP : Covers P) (port : UInt64) (reg : HbaPortReg) : (loadPort port reg).Emits P :=
  .ask fun a => hP.loadPort port reg a

theorem storePort_emits (hP : Covers P) (port : UInt64) (reg : HbaPortReg) (value : UInt32) :
    (storePort port reg value).Emits P := .tell (hP.storePort port reg value)

theorem onDevice_emits {α : Type} {p : Io α} (hP : Covers P) (h : p.Emits Harmless) : (onDevice p).Emits P :=
  .within _ (h.imp hP.device)

theorem ioWait_emits (hP : Covers P) : (onDevice ioWait).Emits P :=
  onDevice_emits hP (ioWait_polls.imp fun _ => polls_harmless)

theorem errorPort_emits (hP : Covers P) (s : Scanner) (message : CStr) (port : UInt64) :
    (errorPort s message port).Emits P :=
  (onDevice_emits hP ((errorAhci_polls s.toState message port).imp fun _ => polls_harmless)).bind fun _ => .pure _

theorem ahciPollStopped_emits (hP : Covers P) (port : UInt64) (attempts : Nat) :
    (ahciPollStopped port attempts).Emits P := by
  induction attempts with
  | zero => exact .pure _
  | succ attempts ih =>
    exact (loadPort_emits hP port .cmd).bind fun _ => .ite (fun _ => .pure _) fun _ =>
      (ioWait_emits hP).bind fun _ => ih

theorem ahciPollCr_emits (hP : Covers P) (port : UInt64) (attempts : Nat) : (ahciPollCr port attempts).Emits P := by
  induction attempts with
  | zero => exact .pure _
  | succ attempts ih =>
    exact (loadPort_emits hP port .cmd).bind fun _ => .ite (fun _ => .pure _) fun _ =>
      (ioWait_emits hP).bind fun _ => ih

theorem setCmd_emits (hP : Covers P) (port : UInt64) (bits : UInt32) : (setCmd port bits).Emits P :=
  (loadPort_emits hP port .cmd).bind fun _ => storePort_emits hP port .cmd _

theorem ahciStopPort_emits (hP : Covers P) (s : Scanner) (port : UInt64) : (ahciStopPort s port).Emits P :=
  (loadPort_emits hP port .cmd).bind fun _ => (storePort_emits hP port .cmd _).bind fun _ =>
    (ahciPollStopped_emits hP port _).bind fun _ => .ite (fun _ => .pure _) fun _ => errorPort_emits hP s _ port

theorem ahciStartPort_emits (hP : Covers P) (s : Scanner) (port : UInt64) : (ahciStartPort s port).Emits P :=
  (ahciPollCr_emits hP port _).bind fun _ => (loadPort_emits hP port .cmd).bind fun _ =>
    .ite (fun _ => errorPort_emits hP s _ port) fun _ =>
      (setCmd_emits hP port _).bind fun _ => (setCmd_emits hP port _).bind fun _ => .pure _

theorem ahciProgram_emits (hP : Covers P) (port : UInt64) (a : CtxAddress) : (ahciProgram port a).Emits P := by
  have hstore (reg : HbaPortReg) (value : UInt32) := storePort_emits hP port reg value
  have his : (onDevice (store port .is 0xFFFFFFFF)).Emits P :=
    onDevice_emits hP (.tell (P := Harmless) (r := .store port .is 0xFFFFFFFF) trivial)
  exact (hstore _ _).bind fun _ => (hstore _ _).bind fun _ => (hstore _ _).bind fun _ => (hstore _ _).bind fun _ =>
    his.bind fun _ => hstore _ _

theorem ahciSetupPort_emits (hP : Covers P) (s : Scanner) (index : Fin 8) : (ahciSetupPort s index).Emits P :=
  (ahciStopPort_emits hP s _).bind fun _ => .ite (fun _ => .pure _) fun _ =>
    .ite (fun _ => errorPort_emits hP _ _ _) fun _ => (ahciProgram_emits hP _ _).bind fun _ =>
      (ahciStartPort_emits hP _ _).bind fun _ => .ite (fun _ => .pure _) fun _ => .pure _

/-- The device is not present before it is asked to identify itself. -/
theorem ahciRegisterPort_emits (hP : Covers P) (s : Scanner) (port : UInt64) (portNo : UInt8) :
    (ahciRegisterPort s port portNo).Emits P := by
  unfold ahciRegisterPort
  split
  · refine (ahciSetupPort_gives _ _).emits_bind (ahciSetupPort_emits hP _ _) fun x hx => ?_
    refine .ite (fun _ => .pure _) fun _ => ?_
    have habsent : (x.2.ahci ⟨s.ahciCount, by assumption⟩).present = false := by
      rw [hx.ahci]
      simp [claimAhci, Scanner.setAhci]
    rw [ahciIdentify_absent _ habsent, pure_bind]
    exact .pure _
  · exact .pure _

theorem skippedSig_emits (hP : Covers P) (port : UInt64) : (skippedSig port).Emits P :=
  (loadPort_emits hP port .sig).bind fun _ => .ite (fun _ => .pure _) fun _ =>
    (loadPort_emits hP port .sig).bind fun _ => .ite (fun _ => .pure _) fun _ =>
      (loadPort_emits hP port .sig).bind fun _ => .pure _

theorem ahciProbePorts_emits (hP : Covers P) (abar : UInt64) (ports : UInt32) (l : List (Fin 32)) (s : Scanner) :
    (ahciProbePorts abar ports l s).Emits P := by
  induction l generalizing s with
  | nil => exact .pure _
  | cons portNo l ih =>
    exact .ite (fun _ => ih s) fun _ => .ite (fun _ => .pure _) fun _ => (loadPort_emits hP _ .ssts).bind fun _ =>
      .ite (fun _ => ih s) fun _ => (skippedSig_emits hP _).bind fun _ => .ite (fun _ => ih s) fun _ =>
        (ahciRegisterPort_emits hP _ _ _).bind fun x => ih x.2

theorem ahciProbeHba_emits (hP : Covers P) (s : Scanner) (bar5 : UInt32) : (ahciProbeHba s bar5).Emits P :=
  .ite (fun _ => .pure _) fun _ => (Metered.Emits.ask fun a => hP.loadHba _ .ghc a).bind fun _ =>
    (Metered.Emits.tell (hP.storeHba _ .ghc _)).bind fun _ =>
      (Metered.Emits.ask fun a => hP.loadHba _ .pi a).bind fun _ =>
        ahciProbePorts_emits hP _ _ _ s

/-- And what it does before that is to read and write configuration space. -/
theorem ahciProbeController_emits (hP : Covers P) (houtl : ∀ port value, P (.told (.outl port value)))
    (hinl : ∀ port a, P (.asked (.inl port) a)) (s : Scanner) (f : PciFunction) (probeMode : Int) :
    (ahciProbeController s f probeMode).Emits P := by
  have hread (offset : UInt8) : (pciRead32 f offset).Emits P :=
    (Metered.Emits.tell (houtl _ _)).bind fun _ => .ask (hinl _)
  have hwrite (offset : UInt8) (value : UInt32) : (pciWrite32 f offset value).Emits P :=
    (Metered.Emits.tell (houtl _ _)).bind fun _ => .tell (houtl _ _)
  refine (hread _).bind fun _ => .ite (fun _ => .pure _) fun _ => (hread _).bind fun _ => .ite (fun _ => .pure _) fun _ =>
    (hread _).bind fun _ => (hwrite _ _).bind fun _ => (hread _).bind fun bar5 => .ite (fun _ => .pure _) fun _ => ?_
  exact .ite (fun _ => (hread _).bind fun _ => .ite (fun _ => .pure _) fun _ => ahciProbeHba_emits hP _ bar5)
    fun _ => ahciProbeHba_emits hP _ bar5

theorem ahciScanControllers_emits (hP : Covers P) (houtl : ∀ port value, P (.told (.outl port value)))
    (hinl : ∀ port a, P (.asked (.inl port) a)) (s : Scanner) : (ahciScanControllers s).Emits P := by
  have hprobe := ahciProbeController_emits hP houtl hinl
  exact (Metered.Emits.foldlM (fun a f => hprobe a f 1) pciFunctions _).bind fun a =>
    .ite (fun _ => (hprobe _ _ _).bind fun _ => (hprobe _ _ _).bind fun _ => hprobe _ _ _) fun _ => .pure _

theorem scanPci_emits (hP : Covers P) (houtl : ∀ port value, P (.told (.outl port value)))
    (hinl : ∀ port a, P (.asked (.inl port) a)) (s : Scanner) : (scanPci s).Emits P := by
  have hread (f : PciFunction) (offset : UInt8) : (pciRead32 f offset).Emits P :=
    (Metered.Emits.tell (houtl _ _)).bind fun _ => .ask (hinl _)
  exact (hread _ _).bind fun _ => (hread _ _).bind fun _ => (hread _ _).bind fun _ => (hread _ _).bind fun _ =>
    (Metered.Emits.ite (fun _ => ahciScanControllers_emits hP houtl hinl _) fun _ => .pure _).bind fun _ => .pure _

end Emits

/-! ### The IDE half -/

theorem inb_harmless (port : UInt16) : (inb port).Emits Harmless :=
  (Metered.Emits.ask fun _ => trivial).bind fun _ => .pure _

theorem outb_harmless (port : UInt16) (value : UInt8) : (outb port value).Emits Harmless :=
  .tell (P := Harmless) (r := .outb port value) trivial

theorem ideIdentify_harmless (s : Driver) (i : Fin 4) : (ideIdentify s i).Emits Harmless := by
  refine Metered.Emits.bind ((ideWait_polls drqVerdict _ _).imp fun _ => polls_harmless) fun e => ?_
  cases e with
  | some e => exact .pure _
  | none =>
    have hword : (inw (ideBase i)).Emits Harmless := (Metered.Emits.ask fun _ => trivial).bind fun _ => .pure _
    exact (Metered.Emits.foldlM (fun _ _ => hword.bind fun _ => .pure _) (List.finRange 256) _).bind fun _ => .pure _

theorem ideProbeDevice_harmless (s : Driver) (index : Int) : (ideProbeDevice s index).Emits Harmless := by
  unfold ideProbeDevice
  cases ideIndex index with
  | none => exact .pure _
  | some i =>
    have hdelay := (ideDelay400ns_polls (ideBase i)).imp fun _ => polls_harmless
    have hbusy (port : UInt16) (cond : UInt8 → Bool) (status : UInt8) : (inbWhile port cond status).Emits Harmless :=
      (Metered.Emits.askWhile (fun _ => trivial) _ _).bind fun _ => .pure _
    refine (outb_harmless _ _).bind fun _ => hdelay.bind fun _ => (outb_harmless _ _).bind fun _ =>
      (outb_harmless _ _).bind fun _ => (outb_harmless _ _).bind fun _ => (outb_harmless _ _).bind fun _ =>
      (outb_harmless _ _).bind fun _ => (inb_harmless _).bind fun status => .ite (fun _ => .pure _) fun _ => ?_
    exact (hbusy _ _ _).bind fun _ => (inb_harmless _).bind fun _ => (inb_harmless _).bind fun _ =>
      .ite (fun _ => .pure _) fun _ => ideIdentify_harmless _ i

theorem scanIde_harmless (s : Driver) : (scanIde s).Emits Harmless := by
  have hdevice (s : Driver) (i : Fin 4) : (scanIdeDevice s i).Emits Harmless :=
    (ideProbeDevice_harmless s i.val).bind fun _ => .ite (fun _ => .pure _) fun _ => .pure _
  exact .foldlM hdevice _ _

/-! ### The whole scan -/

/-- No command of an AHCI port, and no look at the data of one. -/
def Uncommanded : Event ScanAccess UInt32 → Prop
  | .told (.device (.store _ .ci _)) => False
  | .asked (.dma _ _) _ => False
  | _ => True

theorem covers_uncommanded : Covers Uncommanded where
  device e h := by
    cases e with
    | asked req a => trivial
    | told req =>
      cases req with
      | store hba reg value => cases reg <;> trivial
      | inb port => trivial
      | outb port value => trivial
      | inw port => trivial
      | outw port value => trivial
      | load hba reg => trivial
  loadPort _ _ _ := trivial
  storePort _ _ _ := trivial
  loadHba _ _ _ := trivial
  storeHba _ _ _ := trivial

/-- **A scan sends no AHCI command**, from whatever state and whatever is answered: the code for `IDENTIFY` never
gets to the controller, and what it would have left in memory is never looked at. -/
theorem ataScan_uncommanded (s : Scanner) : (ataScan s).Emits Uncommanded :=
  (onDevice_emits covers_uncommanded (scanIde_harmless s.toDriver)).bind fun _ =>
    scanPci_emits covers_uncommanded (fun _ _ => trivial) (fun _ _ => trivial) _

/-! ### How long it takes -/

section Bounded
variable (s : Scanner) (port : UInt64)

theorem loadPort_bounded (reg : HbaPortReg) : (loadPort port reg).Bounded 1 := .ask _

theorem storePort_bounded (reg : HbaPortReg) (value : UInt32) : (storePort port reg value).Bounded 1 := .tell _

theorem ioWait_bounded : (onDevice ioWait).Bounded 1 := .within _ (.tell _)

theorem errorPort_bounded (message : CStr) : (errorPort s message port).Bounded 2 := by
  have hload : (load port .tfd).Bounded 1 := .ask _
  exact (Metered.Bounded.within _ (hload.bind fun _ => hload.bind fun _ => .pure _)).bind fun _ => .pure _

/-- Two accesses for each attempt of a loop on `cmd`. -/
theorem ahciPollStopped_bounded (attempts : Nat) : (ahciPollStopped port attempts).Bounded (2 * attempts) := by
  induction attempts with
  | zero => exact .pure _
  | succ attempts ih =>
    refine Metered.Bounded.mono ((loadPort_bounded port .cmd).bind (m := 1 + 2 * attempts) fun _ =>
      .ite (fun _ => (Metered.Bounded.pure _).mono (Nat.zero_le _)) fun _ => (ioWait_bounded).bind fun _ => ih) ?_
    omega

theorem ahciPollCr_bounded (attempts : Nat) : (ahciPollCr port attempts).Bounded (2 * attempts) := by
  induction attempts with
  | zero => exact .pure _
  | succ attempts ih =>
    refine Metered.Bounded.mono ((loadPort_bounded port .cmd).bind (m := 1 + 2 * attempts) fun _ =>
      .ite (fun _ => (Metered.Bounded.pure _).mono (Nat.zero_le _)) fun _ => (ioWait_bounded).bind fun _ => ih) ?_
    omega

theorem ahciStopPort_bounded : (ahciStopPort s port).Bounded (1 + (1 + (2 * ataPollAttempts + 2))) :=
  (loadPort_bounded port .cmd).bind fun _ => (storePort_bounded port .cmd _).bind fun _ =>
    (ahciPollStopped_bounded port _).bind fun _ =>
      .ite (fun _ => (Metered.Bounded.pure _).mono (Nat.zero_le _)) fun _ => errorPort_bounded s port _

theorem setCmd_bounded (bits : UInt32) : (setCmd port bits).Bounded (1 + 1) :=
  (loadPort_bounded port .cmd).bind fun _ => storePort_bounded port .cmd _

theorem ahciStartPort_bounded : (ahciStartPort s port).Bounded (2 * ataPollAttempts + (1 + (2 + (2 + 0)))) :=
  (ahciPollCr_bounded port _).bind fun _ => (loadPort_bounded port .cmd).bind fun _ =>
    .ite (fun _ => (errorPort_bounded s port _).mono (by decide)) fun _ =>
      (setCmd_bounded port _).bind fun _ => (setCmd_bounded port _).bind fun _ => .pure _

theorem ahciProgram_bounded (a : CtxAddress) : (ahciProgram port a).Bounded 6 := by
  have hstore (reg : HbaPortReg) (value : UInt32) := storePort_bounded port reg value
  have his : (onDevice (store port .is 0xFFFFFFFF)).Bounded 1 := .within _ (.tell _)
  exact (hstore _ _).bind fun _ => (hstore _ _).bind fun _ => (hstore _ _).bind fun _ => (hstore _ _).bind fun _ =>
    his.bind fun _ => hstore _ _

/-- Accesses for one port. -/
def portAccesses : Nat :=
  1 + (1 + (2 * ataPollAttempts + 2)) + (6 + (2 * ataPollAttempts + (1 + (2 + (2 + 0))) + 0))

theorem ahciSetupPort_bounded (index : Fin 8) : (ahciSetupPort s index).Bounded portAccesses := by
  refine (ahciStopPort_bounded s _).bind fun _ =>
    .ite (fun _ => (Metered.Bounded.pure _).mono (Nat.zero_le _)) fun _ =>
      .ite (fun _ => (errorPort_bounded _ _ _).mono (by omega)) fun _ => (ahciProgram_bounded _ _).bind fun _ => ?_
  exact (ahciStartPort_bounded _ _).bind fun _ => .ite (fun _ => .pure _) fun _ => .pure _

theorem ahciRegisterPort_bounded (portNo : UInt8) : (ahciRegisterPort s port portNo).Bounded portAccesses := by
  unfold ahciRegisterPort
  split
  · refine ((ahciSetupPort_gives _ _).bounded_bind (ahciSetupPort_bounded _ _) (m := 0) fun x hx =>
      .ite (fun _ => .pure _) fun _ => ?_)
    have habsent : (x.2.ahci ⟨s.ahciCount, by assumption⟩).present = false := by
      rw [hx.ahci]
      simp [claimAhci, Scanner.setAhci]
    rw [ahciIdentify_absent _ habsent, pure_bind]
    exact .pure _
  · exact (Metered.Bounded.pure _).mono (Nat.zero_le _)

theorem skippedSig_bounded : (skippedSig port).Bounded (1 + (1 + (1 + 0))) :=
  (loadPort_bounded port .sig).bind fun _ => .ite (fun _ => (Metered.Bounded.pure _).mono (Nat.zero_le _)) fun _ =>
    (loadPort_bounded port .sig).bind fun _ => .ite (fun _ => (Metered.Bounded.pure _).mono (Nat.zero_le _)) fun _ =>
      (loadPort_bounded port .sig).bind fun _ => .pure _

theorem ahciProbePorts_bounded (abar : UInt64) (ports : UInt32) (l : List (Fin 32)) :
    (ahciProbePorts abar ports l s).Bounded (l.length * (4 + portAccesses)) := by
  induction l generalizing s with
  | nil => exact (Metered.Bounded.pure _).mono (Nat.zero_le _)
  | cons portNo l ih =>
    have hstop {n : Nat} : (pure s : ScanIo Scanner).Bounded n := (Metered.Bounded.pure s).mono (Nat.zero_le n)
    have hmore {n : Nat} (h : l.length * (4 + portAccesses) ≤ n) := (ih s).mono h
    rw [List.length_cons, Nat.succ_mul, Nat.add_comm]
    have hsplit : 4 + portAccesses + l.length * (4 + portAccesses) =
        1 + (1 + (1 + (1 + 0)) + (portAccesses + l.length * (4 + portAccesses))) := by omega
    refine .ite (fun _ => hmore (by omega)) fun _ => .ite (fun _ => hstop) fun _ => ?_
    rw [hsplit]
    refine (loadPort_bounded _ _).bind fun ssts => .ite (fun _ => hmore (by omega)) fun _ =>
      (skippedSig_bounded _).bind fun skipped => .ite (fun _ => hmore (by omega)) fun _ => ?_
    exact (ahciRegisterPort_bounded _ _ _).bind fun x => ih x.2

theorem ahciProbeHba_bounded (bar5 : UInt32) :
    (ahciProbeHba s bar5).Bounded (1 + (1 + (1 + 32 * (4 + portAccesses)))) := by
  have hports (abar : UInt64) (ports : UInt32) := ahciProbePorts_bounded s abar ports (List.finRange 32)
  rw [List.length_finRange] at hports
  have hload (abar : UInt64) (reg : HbaMemReg) : (loadHba abar reg).Bounded 1 := .ask _
  have hstore (abar : UInt64) (value : UInt32) : (storeHba abar .ghc value).Bounded 1 := .tell _
  exact .ite (fun _ => (Metered.Bounded.pure _).mono (Nat.zero_le _)) fun _ =>
    (hload _ _).bind fun _ => (hstore _ _).bind fun _ => (hload _ _).bind fun _ => hports _ _

/-- Accesses for one function. -/
def functionAccesses : Nat :=
  2 + (2 + (2 + (2 + (2 + (2 + (1 + (1 + (1 + 32 * (4 + portAccesses)))))))))

theorem pciRead32_bounded (f : PciFunction) (offset : UInt8) : (pciRead32 f offset).Bounded (1 + 1) :=
  (Metered.Bounded.tell _).bind fun _ => .ask _

theorem ahciProbeController_bounded (f : PciFunction) (probeMode : Int) :
    (ahciProbeController s f probeMode).Bounded functionAccesses := by
  have hstop {s : Scanner} {n : Nat} : (pure s : ScanIo Scanner).Bounded n :=
    (Metered.Bounded.pure s).mono (Nat.zero_le n)
  have hread (offset : UInt8) := pciRead32_bounded f offset
  have hwrite (offset : UInt8) (value : UInt32) : (pciWrite32 f offset value).Bounded (1 + 1) :=
    (Metered.Bounded.tell _).bind fun _ => .tell _
  have hhba (s : Scanner) (bar5 : UInt32) {n : Nat} (h : 1 + (1 + (1 + 32 * (4 + portAccesses))) ≤ n) :=
    (ahciProbeHba_bounded s bar5).mono h
  refine (hread _).bind fun _ => .ite (fun _ => hstop) fun _ => (hread _).bind fun _ => .ite (fun _ => hstop) fun _ =>
    (hread _).bind fun _ => (hwrite _ _).bind fun _ => (hread _).bind fun bar5 => .ite (fun _ => hstop) fun _ => ?_
  exact .ite (fun _ => (hread _).bind fun _ => .ite (fun _ => hstop) fun _ => hhba _ bar5 (Nat.le_refl _))
    fun _ => hhba _ bar5 (by omega)

theorem length_pciFunctions : pciFunctions.length = 65536 := by
  simp only [pciFunctions, List.length_flatMap, List.length_map, List.length_range, List.map_const', List.sum_replicate,
    smul_eq_mul]

/-- Accesses of the second half of a scan. -/
def scanPciAccesses : Nat :=
  2 + (2 + (2 + (2 + (65536 * functionAccesses + (functionAccesses + (functionAccesses + functionAccesses))))))

theorem scanPci_bounded : (scanPci s).Bounded scanPciAccesses := by
  have hprobe := fun (s : Scanner) f probeMode => ahciProbeController_bounded s f probeMode
  have hsearch (s : Scanner) : (ahciScanControllers s).Bounded
      (65536 * functionAccesses + (functionAccesses + (functionAccesses + functionAccesses))) := by
    rw [← length_pciFunctions]
    exact (Metered.Bounded.foldlM (fun a f => hprobe a f 1) pciFunctions _).bind fun a =>
      .ite (fun _ => (hprobe _ _ _).bind fun _ => (hprobe _ _ _).bind fun _ => hprobe _ _ _)
        fun _ => (Metered.Bounded.pure _).mono (Nat.zero_le _)
  have hread := pciRead32_bounded
  have hend (x : Int × Scanner) : (pure x : ScanIo (Int × Scanner)).Bounded 0 := .pure x
  exact (hread _ _).bind fun hostId => (hread _ _).bind fun _ => (hread _ _).bind fun _ => (hread _ _).bind fun _ =>
    (Metered.Bounded.ite (fun _ => hsearch _) fun _ => (Metered.Bounded.pure _).mono (Nat.zero_le _)).bind
      fun _ => hend _

end Bounded

/-- **A scan ends where its IDE half does**: within a budget for that half, and with `scanPciAccesses` more for all of
it. The search for AHCI devices takes no longer, whatever is answered. -/
theorem ataScan_ends_iff (s : Scanner) (σ : Nat → UInt32) :
    (∀ n, (scanIde s.toDriver).Finishes σ n → (ataScan s).Finishes σ (n + scanPciAccesses)) ∧
      ∀ n, (ataScan s).Finishes σ n → (scanIde s.toDriver).Finishes σ n := by
  constructor
  · intro n h
    have hide : (onDevice (scanIde s.toDriver)).Finishes σ n := Metered.finishes_within.mpr h
    exact hide.bind fun driver log _ => scanPci_bounded {s with toDriver := driver, selected := -1} _
  · intro n h
    obtain ⟨driver, log, hrun, hlen, _⟩ := Metered.finishes_bind.mp h
    exact Metered.finishes_within.mp (hrun.finishes hlen)

/-! ### Starting a port -/

/-- How far a port is: nothing is known of it, it was told to stop, it was seen at rest after that, or it was let
run from there. -/
inductive PortPhase where
  | unknown
  | stopping
  | rest
  | running

/-- What was seen of a port since it was last told to stop, with what its addresses were set to from then on. -/
structure PortView where
  phase : PortPhase
  clb : Option UInt32
  clbu : Option UInt32
  fb : Option UInt32
  fbu : Option UInt32

namespace PortView

def unknown : PortView := ⟨.unknown, none, none, none, none⟩

def stopping : PortView := ⟨.stopping, none, none, none, none⟩

/-- A port that was told to stop is at rest where a read shows it so. -/
def rested (v : PortView) : PortView :=
  match v.phase with
  | .stopping => {v with phase := .rest}
  | _ => v

/-- At rest with the command list and the receive area of a context, below 4 GB, and nothing else set. -/
def armed (a : CtxAddress) : PortView := ⟨.rest, some a.clb.toUInt32, some 0, some a.fb.toUInt32, some 0⟩

/-- Let run from there. -/
def launched (a : CtxAddress) : PortView := {armed a with phase := .running}

/-- On the way there: the address of the command list, all of it, and the address of the receive area. -/
def ListSet (a : CtxAddress) (v : PortView) : Prop := v.phase = .rest ∧ v.clb = some a.clb.toUInt32

def ListDone (a : CtxAddress) (v : PortView) : Prop := v.ListSet a ∧ v.clbu = some 0

def FisSet (a : CtxAddress) (v : PortView) : Prop := v.ListDone a ∧ v.fb = some a.fb.toUInt32

end PortView

/-- A watcher of all ports, who also knows which port was last started with a command list. -/
structure PortWatch where
  view : UInt64 → PortView
  owner : UInt32 → Option UInt64

namespace PortWatch

def start : PortWatch := ⟨fun _ => .unknown, fun _ => none⟩

def see (w : PortWatch) (port : UInt64) (v : PortView) : PortWatch := {w with view := Function.update w.view port v}

@[simp] theorem see_view_self (w : PortWatch) (port : UInt64) (v : PortView) : (w.see port v).view port = v :=
  Function.update_self ..

@[simp] theorem see_owner (w : PortWatch) (port : UInt64) (v : PortView) : (w.see port v).owner = w.owner := rfl

/-- A value of `cmd` that lets a port run. -/
def runs (value : UInt32) : Bool := value &&& (hbaPxCmdSt ||| hbaPxCmdFre) ≠ 0

/-- A store to a register of a port. -/
def stored (w : PortWatch) (port : UInt64) (value : UInt32) : HbaPortReg → PortWatch
  | .clb => w.see port {w.view port with clb := some value}
  | .clbu => w.see port {w.view port with clbu := some value}
  | .fb => w.see port {w.view port with fb := some value}
  | .fbu => w.see port {w.view port with fbu := some value}
  | .cmd =>
    if runs value then
      {w.see port {w.view port with phase := .running} with
        owner := fun clb => if (w.view port).clb = some clb then some port else w.owner clb}
    else w.see port .stopping
  | _ => w

/-- A read of `cmd` that shows the port at rest. -/
def loaded (w : PortWatch) (port : UInt64) (cmd : UInt32) : PortWatch :=
  if cmd &&& (hbaPxCmdCr ||| hbaPxCmdFr) = 0 then w.see port (w.view port).rested else w

def next (w : PortWatch) : Event ScanAccess UInt32 → PortWatch
  | .told (.storePort port reg value) => w.stored port value reg
  | .asked (.loadPort port .cmd) cmd => w.loaded port cmd
  | _ => w

/-- When a port may be let run: it is at rest, or was let run from there (the source sets one bit after the other),
has the addresses of one context, which are below 4 GB, and no other port was started with that. -/
def MayRun (address : Fin 8 → CtxAddress) (w : PortWatch) (port : UInt64) : Prop :=
  ∃ i, (address i).clb >>> 32 = 0 ∧ (address i).fb >>> 32 = 0 ∧
    (w.view port = .armed (address i) ∨ w.view port = .launched (address i)) ∧
    ∀ other, w.owner (address i).clb.toUInt32 = some other → other = port

/-- The addresses of a port are set while it is at rest, and it is let run when it may. -/
def Allows (address : Fin 8 → CtxAddress) (w : PortWatch) : Event ScanAccess UInt32 → Prop
  | .told (.storePort port .cmd value) => runs value = true → w.MayRun address port
  | .told (.storePort port .clb _) => (w.view port).phase = .rest
  | .told (.storePort port .clbu _) => (w.view port).phase = .rest
  | .told (.storePort port .fb _) => (w.view port).phase = .rest
  | .told (.storePort port .fbu _) => (w.view port).phase = .rest
  | _ => True

end PortWatch

def portMonitor (address : Fin 8 → CtxAddress) : Monitor ScanAccess UInt32 PortWatch where
  next := PortWatch.next
  allows := PortWatch.Allows address

/-- Contexts with different command lists, as far as a port can tell. -/
def Distinct (address : Fin 8 → CtxAddress) : Prop :=
  ∀ i j, (address i).clb.toUInt32 = (address j).clb.toUInt32 → i = j

/-- No port was started with a context from the `n`th on. -/
def Unowned (address : Fin 8 → CtxAddress) (n : Nat) (w : PortWatch) : Prop :=
  ∀ i : Fin 8, n ≤ i.val → w.owner (address i).clb.toUInt32 = none

/-- Accesses that the watcher takes no notice of. -/
def Unwatched : Event ScanAccess UInt32 → Prop
  | .told (.storePort _ _ _) => False
  | .asked (.loadPort _ .cmd) _ => False
  | _ => True

theorem unwatched_next {address : Fin 8 → CtxAddress} {e : Event ScanAccess UInt32} (h : Unwatched e) (w : PortWatch) :
    w.Allows address e ∧ w.next e = w := by
  cases e with
  | asked req a =>
    cases req with
    | loadPort port reg => cases reg <;> first | exact ⟨trivial, rfl⟩ | exact h.elim
    | _ => exact ⟨trivial, rfl⟩
  | told req =>
    cases req with
    | storePort port reg value => exact h.elim
    | _ => exact ⟨trivial, rfl⟩

section Watched
variable {address : Fin 8 → CtxAddress} {n : Nat}

theorem unwatched (address : Fin 8 → CtxAddress) {α : Type} {p : ScanIo α} (hp : p.Emits Unwatched)
    (inv : PortWatch → Prop) :
    (portMonitor address).Watched inv p fun _ => inv :=
  .quiet hp fun w e he hw => by
    obtain ⟨hallows, hnext⟩ := unwatched_next he w
    refine ⟨hallows, ?_⟩
    show inv (w.next e)
    rwa [hnext]

theorem onDevice_unwatched {α : Type} (p : Io α) : (onDevice p).Emits Unwatched := by
  refine .within _ fun σ a log _ e _ => ?_
  cases e <;> trivial

theorem errorPort_unwatched (s : Scanner) (message : CStr) (port : UInt64) :
    (errorPort s message port).Emits Unwatched := (onDevice_unwatched _).bind fun _ => .pure _

/-- The port was told to stop, and has been at rest since if it was seen so. -/
def Told (port : UInt64) (w : PortWatch) : Prop := (w.view port).phase = .stopping ∨ (w.view port).phase = .rest

theorem rested_phase {v : PortView} (h : v.phase = .stopping ∨ v.phase = .rest) : v.rested.phase = .rest := by
  unfold PortView.rested
  rcases h with h | h
  · rw [h]
  · rw [h]
    exact h

theorem Told.rested {port : UInt64} {w : PortWatch} (h : Told port w) : Told port (w.see port (w.view port).rested) := by
  refine .inr ?_
  rw [PortWatch.see_view_self]
  exact rested_phase h

/-- A read of `cmd` takes no owner away. -/
theorem loadCmd_watched {port : UInt64} {inv : PortWatch → Prop}
    (h : ∀ w, inv w → inv (w.see port (w.view port).rested)) :
    (portMonitor address).Watched inv (loadPort port .cmd) fun _ => inv := by
  refine .ask fun w cmd hw => ⟨trivial, ?_⟩
  show inv (w.loaded port cmd)
  unfold PortWatch.loaded
  split
  · exact h w hw
  · exact hw

/-- It can show that a port that was told to stop is at rest. -/
theorem loadCmd_rests {port : UInt64} {inv : PortWatch → Prop}
    (h : ∀ w, inv w → inv (w.see port (w.view port).rested)) :
    (portMonitor address).Watched (fun w => inv w ∧ Told port w) (loadPort port .cmd) fun cmd w =>
      (inv w ∧ Told port w) ∧ (cmd &&& (hbaPxCmdCr ||| hbaPxCmdFr) = 0 → (w.view port).phase = .rest) := by
  refine .ask fun w cmd hw => ⟨trivial, ?_⟩
  show (inv (w.loaded port cmd) ∧ Told port (w.loaded port cmd)) ∧ (_ → ((w.loaded port cmd).view port).phase = .rest)
  unfold PortWatch.loaded
  split
  · refine ⟨⟨h w hw.1, hw.2.rested⟩, fun _ => ?_⟩
    rw [PortWatch.see_view_self]
    exact rested_phase hw.2
  · rename_i hrest
    exact ⟨hw, fun hzero => absurd hzero hrest⟩

theorem runs_stop (cmd : UInt32) : PortWatch.runs (cmd &&& ~~~(hbaPxCmdSt ||| hbaPxCmdFre)) = false := by
  have hmask : cmd &&& ~~~(hbaPxCmdSt ||| hbaPxCmdFre) &&& (hbaPxCmdSt ||| hbaPxCmdFre) = 0 := by
    rw [UInt32.and_assoc, UInt32.not_and_self, UInt32.and_zero]
  simp [PortWatch.runs, hmask]

/-- Bits that let a port run do so beside any others. -/
theorem runs_or (cmd : UInt32) {bits : UInt32} (h : PortWatch.runs bits = true) :
    PortWatch.runs (cmd ||| bits) = true := by
  have hsub : bits &&& (cmd ||| bits) = bits := by
    refine UInt32.toBitVec_inj.mp (BitVec.eq_of_getElem_eq fun i hi => ?_)
    simp only [UInt32.toBitVec_and, UInt32.toBitVec_or, BitVec.getElem_and, BitVec.getElem_or]
    cases bits.toBitVec[i] <;> simp
  have habsorb (m : UInt32) : bits &&& m = bits &&& ((cmd ||| bits) &&& m) := by
    rw [← UInt32.and_assoc, hsub]
  unfold PortWatch.runs at h ⊢
  by_contra hzero
  simp only [decide_eq_true_eq, ne_eq, not_not] at h hzero
  exact h (by rw [habsorb, hzero, UInt32.and_zero])

theorem ahciPollStopped_watched (port : UInt64) (attempts : Nat) :
    (portMonitor address).Watched (fun w => Unowned address n w ∧ Told port w) (ahciPollStopped port attempts)
      fun stopped w => Unowned address n w ∧ (stopped = true → (w.view port).phase = .rest) := by
  induction attempts with
  | zero => exact .pure fun w hw => ⟨hw.1, nofun⟩
  | succ attempts ih =>
    have hload : (portMonitor address).Watched (fun w => Unowned address n w ∧ Told port w) (loadPort port .cmd)
        fun cmd w => (Unowned address n w ∧ Told port w) ∧
          (cmd &&& (hbaPxCmdCr ||| hbaPxCmdFr) = 0 → (w.view port).phase = .rest) := loadCmd_rests fun _ hw => hw
    refine hload.bind fun cmd => .ite (fun hrest => .pure fun w hw => ?_) fun _ => ?_
    · exact ⟨hw.1.1, fun _ => hw.2 hrest⟩
    · exact ((unwatched _ (onDevice_unwatched ioWait) _).bind fun _ => ih).mono (fun _ hw => hw.1) fun _ _ hw => hw

theorem ahciStopPort_watched (s : Scanner) (port : UInt64) :
    (portMonitor address).Watched (Unowned address n) (ahciStopPort s port) fun x w =>
      Unowned address n w ∧ (x.1 = 0 → (w.view port).phase = .rest) := by
  refine (loadCmd_watched fun _ hw => hw).bind fun cmd => ?_
  refine Monitor.Watched.bind (Q := fun _ w => Unowned address n w ∧ Told port w)
    (.tell fun w hw => ⟨fun hruns => ?_, ?_⟩) fun _ => ?_
  · rw [runs_stop] at hruns
    cases hruns
  · show Unowned address n (w.stored port _ .cmd) ∧ Told port (w.stored port _ .cmd)
    rw [PortWatch.stored, runs_stop]
    refine ⟨hw, .inl ?_⟩
    rw [if_neg (by decide), PortWatch.see_view_self]
    rfl
  · refine (ahciPollStopped_watched port _).bind fun stopped => .ite (fun hstopped => .pure fun w hw => ?_) fun _ => ?_
    · exact ⟨hw.1, fun _ => hw.2 hstopped⟩
    · refine ((unwatched _ (errorPort_unwatched s _ port) (Unowned address n)).gives (errorPort_gives s port _)).mono
        (fun _ hw => hw.1) fun x w hw => ⟨hw.2, fun hzero => ?_⟩
      rw [hw.1.1] at hzero
      cases hzero

/-- The addresses of a context, set one after the other while the port is at rest. -/
theorem ahciProgram_watched (port : UInt64) (a : CtxAddress) :
    (portMonitor address).Watched (fun w => Unowned address n w ∧ (w.view port).phase = .rest) (ahciProgram port a)
      fun _ w => Unowned address n w ∧ w.view port = .armed a := by
  have hstore (reg : HbaPortReg) (value : UInt32) (P Q : PortView → Prop)
      (hallows : ∀ w : PortWatch, P (w.view port) → w.Allows address (.told (.storePort port reg value)))
      (hstep : ∀ w : PortWatch, P (w.view port) →
        (w.stored port value reg).owner = w.owner ∧ Q ((w.stored port value reg).view port)) :
      (portMonitor address).Watched (fun w => Unowned address n w ∧ P (w.view port)) (storePort port reg value)
        fun _ w => Unowned address n w ∧ Q (w.view port) := by
    refine .tell fun w hw => ?_
    obtain ⟨howner, hpost⟩ := hstep w hw.2
    refine ⟨hallows w hw.2, fun i hi => ?_, hpost⟩
    show (w.stored port value reg).owner _ = none
    rw [howner]
    exact hw.1 i hi
  have hclb := hstore .clb a.clb.toUInt32 (fun v => v.phase = .rest) (PortView.ListSet a) (fun _ h => h)
    fun w h => by simp [PortWatch.stored, PortView.ListSet, h]
  have hclbu := hstore .clbu 0 (PortView.ListSet a) (PortView.ListDone a) (fun _ h => h.1)
    fun w h => by simp [PortWatch.stored, PortView.ListDone, PortView.ListSet, h.1, h.2]
  have hfb := hstore .fb a.fb.toUInt32 (PortView.ListDone a) (PortView.FisSet a) (fun _ h => h.1.1)
    fun w h => by
      simp [PortWatch.stored, PortView.FisSet, PortView.ListDone, PortView.ListSet, h.1.1, h.1.2, h.2]
  have hfbu := hstore .fbu 0 (PortView.FisSet a) (fun v => v = .armed a) (fun _ h => h.1.1.1)
    fun w h => by simp [PortWatch.stored, PortView.armed, h.1.1.1, h.1.1.2, h.1.2, h.2]
  have hserr := hstore .serr 0xFFFFFFFF (fun v => v = .armed a) (fun v => v = .armed a) (fun _ _ => trivial)
    fun w h => ⟨rfl, h⟩
  exact hclb.bind fun _ => hclbu.bind fun _ => hfb.bind fun _ => hfbu.bind fun _ =>
    (unwatched _ (onDevice_unwatched _) _).bind fun _ => hserr

/-- A port that has the addresses of the context `i`, which is its own or nobody's yet. -/
structure Holds (address : Fin 8 → CtxAddress) (i : Fin 8) (port : UInt64) (w : PortWatch) : Prop where
  view : w.view port = .armed (address i) ∨ w.view port = .launched (address i)
  owner : ∀ other, w.owner (address i).clb.toUInt32 = some other → other = port
  rest : Unowned address (i.val + 1) w

theorem Holds.rested {i : Fin 8} {port : UInt64} {w : PortWatch} (h : Holds address i port w) :
    Holds address i port (w.see port (w.view port).rested) := by
  refine ⟨?_, h.owner, h.rest⟩
  rw [PortWatch.see_view_self]
  rcases h.view with hview | hview
  · rw [hview]
    exact .inl rfl
  · rw [hview]
    exact .inr rfl

/-- The port is let run with the context it has. -/
theorem setCmd_watched (hdistinct : Distinct address) {i : Fin 8} (hclb : (address i).clb >>> 32 = 0)
    (hfb : (address i).fb >>> 32 = 0) (bits : UInt32) (hbits : PortWatch.runs bits = true) (port : UInt64) :
    (portMonitor address).Watched (Holds address i port) (setCmd port bits) fun _ => Holds address i port := by
  refine (loadCmd_watched fun _ hw => hw.rested).bind fun cmd => .tell fun w hw => ?_
  obtain ⟨hview, howner, hrest⟩ := hw
  refine ⟨fun _ => ⟨i, hclb, hfb, hview, howner⟩, ?_⟩
  show Holds address i port (w.stored port (cmd ||| bits) .cmd)
  rw [PortWatch.stored, if_pos (runs_or cmd hbits)]
  have hset : (w.view port).clb = some (address i).clb.toUInt32 := by
    rcases hview with hview | hview <;> rw [hview] <;> rfl
  refine ⟨.inr ?_, fun other hother => ?_, fun j hj => ?_⟩
  · show (w.see port {w.view port with phase := .running}).view port = _
    rw [PortWatch.see_view_self]
    rcases hview with hview | hview <;> rw [hview] <;> rfl
  · simp only [hset, if_true, Option.some.injEq] at hother
    exact hother.symm
  · have hne : (address i).clb.toUInt32 ≠ (address j).clb.toUInt32 := fun heq => by
      have := congrArg Fin.val (hdistinct i j heq)
      omega
    simp only [hset, Option.some.injEq, hne, if_false]
    exact hrest j hj

theorem ahciPollCr_watched {i : Fin 8} (port : UInt64) (inv : PortWatch → Prop)
    (hinv : ∀ w, inv w → Holds address i port w → inv (w.see port (w.view port).rested)) (attempts : Nat) :
    (portMonitor address).Watched (fun w => inv w ∧ Holds address i port w) (ahciPollCr port attempts)
      fun _ w => inv w ∧ Holds address i port w := by
  induction attempts with
  | zero => exact .pure fun _ hw => hw
  | succ attempts ih =>
    refine Monitor.Watched.bind (loadCmd_watched fun w hw => ⟨hinv w hw.1 hw.2, hw.2.rested⟩) fun cmd => ?_
    refine .ite (fun _ => .pure fun _ hw => hw) fun _ => ?_
    exact (unwatched _ (onDevice_unwatched ioWait) _).bind fun _ => ih

/-- A context that nobody was started with: it has an owner once the port was started, and none where it was not. -/
theorem ahciStartPort_watched (hdistinct : Distinct address) {i : Fin 8} (hclb : (address i).clb >>> 32 = 0)
    (hfb : (address i).fb >>> 32 = 0) (s : Scanner) (port : UInt64) :
    (portMonitor address).Watched (fun w => Unowned address i.val w ∧ w.view port = .armed (address i))
      (ahciStartPort s port) fun x w => Unowned address (i.val + 1) w ∧ (x.1 ≠ 0 → Unowned address i.val w) := by
  have hhold : ∀ w, Unowned address i.val w ∧ w.view port = .armed (address i) →
      Unowned address i.val w ∧ Holds address i port w := fun w hw => by
    refine ⟨hw.1, .inl hw.2, fun other hother => ?_, fun j hj => hw.1 j (by omega)⟩
    rw [hw.1 i (Nat.le_refl _)] at hother
    cases hother
  have hkeep : ∀ w, Unowned address i.val w → Holds address i port w →
      Unowned address i.val (w.see port (w.view port).rested) := fun _ hw _ => hw
  refine Monitor.Watched.mono (Q := fun x w => Unowned address (i.val + 1) w ∧ (x.1 ≠ 0 → Unowned address i.val w))
    ((ahciPollCr_watched port _ hkeep _).bind fun _ => ?_) hhold fun _ _ hw => hw
  refine Monitor.Watched.bind (loadCmd_watched fun w hw => ⟨hkeep w hw.1 hw.2, hw.2.rested⟩) fun cmd => ?_
  refine .ite (fun _ => ?_) fun _ => ?_
  · exact (unwatched _ (errorPort_unwatched s _ port) (Unowned address i.val)).mono (fun _ hw => hw.1)
      fun _ _ hw => ⟨fun j hj => hw j (by omega), fun _ => hw⟩
  · have hfre := setCmd_watched hdistinct hclb hfb hbaPxCmdFre (by decide) port
    have hst := setCmd_watched hdistinct hclb hfb hbaPxCmdSt (by decide) port
    refine (hfre.mono (fun _ hw => hw.2) fun _ _ hw => hw).bind fun _ => hst.bind fun _ => .pure fun w hw => ?_
    exact ⟨hw.rest, fun h => absurd rfl h⟩

/-- The context of the device that is registered has an owner afterwards where that succeeded. -/
theorem ahciSetupPort_watched {s : Scanner} (hdistinct : Distinct s.address) (index : Fin 8) :
    (portMonitor s.address).Watched (Unowned s.address index.val) (ahciSetupPort s index) fun x w =>
      Unowned s.address (index.val + 1) w ∧ (x.1 ≠ 0 → Unowned s.address index.val w) := by
  have hweak {w : PortWatch} (hw : Unowned s.address index.val w) : Unowned s.address (index.val + 1) w ∧
      ((-1 : Int) ≠ 0 → Unowned s.address index.val w) := ⟨fun j hj => hw j (by omega), fun _ => hw⟩
  refine ((ahciStopPort_watched s _).gives (ahciStopPort_gives s _)).bind fun x => ?_
  refine .ite (fun _ => .pure ?_) fun hzero => ?_
  · exact fun w hw => hweak hw.2.1
  · refine .of_point fun w₀ hw₀ => ?_
    have haddress : x.2.address = s.address := hw₀.1.address
    have hidle := hw₀.2.2 (not_not.mp hzero)
    simp only [haddress]
    refine .ite (fun _ => ?_) fun hlow => ?_
    · refine ((unwatched _ (errorPort_unwatched _ _ _) (Unowned s.address index.val)).gives (errorPort_gives _ _ _)).mono
        (fun w hw => hw ▸ hw₀.2.1) fun y w hw => ?_
      rw [hw.1.1]
      exact hweak hw.2
    · simp only [not_or, not_not] at hlow
      have hstart : ∀ w, w = w₀ → Unowned s.address index.val w ∧ (w.view (s.ahci index).port).phase = .rest :=
        fun w hw => hw ▸ ⟨hw₀.2.1, hidle⟩
      refine ((ahciProgram_watched _ _).mono hstart fun _ _ hw => hw).bind fun _ => ?_
      refine (ahciStartPort_watched hdistinct hlow.1 hlow.2 _ _).bind fun y => ?_
      refine .ite (fun hy => .pure ?_) fun _ => .pure ?_
      · exact fun w hw => hweak (hw.2 hy)
      · exact fun w hw => ⟨hw.1, fun h => absurd rfl h⟩

end Watched

/-! ### A scan -/

/-- Where the contexts are stays, and those from the count on are free. -/
def Orderly (address : Fin 8 → CtxAddress) (s : Scanner) (w : PortWatch) : Prop :=
  s.address = address ∧ Unowned address s.ahciCount w

section Scan
variable {address : Fin 8 → CtxAddress}

theorem ahciRegisterPort_watched (hdistinct : Distinct address) (s : Scanner) (port : UInt64) (portNo : UInt8) :
    (portMonitor address).Watched (Orderly address s) (ahciRegisterPort s port portNo)
      fun x => Orderly address x.2 := by
  refine .of_point fun w₀ hw₀ => ?_
  obtain ⟨rfl, hfree⟩ := hw₀
  unfold ahciRegisterPort
  split
  · rename_i hcount
    generalize hindex : (⟨s.ahciCount, hcount⟩ : Fin 8) = index
    have hval : index.val = s.ahciCount := hindex ▸ rfl
    have hsetup := ahciSetupPort_watched (s := claimAhci s index port portNo) hdistinct index
    refine Monitor.Watched.bind ((hsetup.gives (ahciSetupPort_gives _ index)).mono
      (fun w hw => hw ▸ hval ▸ hfree) fun _ _ hw => hw) fun x => .ite (fun hne => .pure fun w hw => ?_) fun _ => ?_
    · refine ⟨hw.1.address, ?_⟩
      rw [hw.1.ahciCount]
      exact hval ▸ hw.2.2 hne
    · refine .of_point fun w₁ hw₁ => ?_
      have habsent : (x.2.ahci index).present = false := by
        rw [hw₁.1.ahci]
        simp [claimAhci, Scanner.setAhci]
      rw [ahciIdentify_absent _ habsent, pure_bind]
      refine .pure fun w hw => ⟨hw₁.1.address, ?_⟩
      show Unowned s.address (x.2.ahciCount + 1) w
      rw [hw₁.1.ahciCount, hw]
      exact hval ▸ hw₁.2.1
  · exact .pure fun w hw => hw ▸ ⟨rfl, hfree⟩

theorem skippedSig_unwatched (port : UInt64) : (skippedSig port).Emits Unwatched := by
  have hsig : (loadPort port .sig).Emits Unwatched := .ask fun _ => trivial
  exact hsig.bind fun _ => .ite (fun _ => .pure _) fun _ => hsig.bind fun _ => .ite (fun _ => .pure _) fun _ =>
    hsig.bind fun _ => .pure _

theorem ahciProbePorts_watched (hdistinct : Distinct address) (abar : UInt64) (ports : UInt32) (l : List (Fin 32))
    (s : Scanner) :
    (portMonitor address).Watched (Orderly address s) (ahciProbePorts abar ports l s) (Orderly address) := by
  induction l generalizing s with
  | nil => exact .pure fun _ hw => hw
  | cons portNo l ih =>
    have hssts : (loadPort (portAddress abar portNo) .ssts).Emits Unwatched := .ask fun _ => trivial
    refine .ite (fun _ => ih s) fun _ => .ite (fun _ => .pure fun _ hw => hw) fun _ => ?_
    refine (unwatched _ hssts _).bind fun ssts => .ite (fun _ => ih s) fun _ => ?_
    refine (unwatched _ (skippedSig_unwatched _) _).bind fun skipped => .ite (fun _ => ih s) fun _ => ?_
    have hregister := ahciRegisterPort_watched hdistinct {s with portsConsidered := s.portsConsidered + 1}
    exact (hregister _ _).bind fun x => ih x.2

theorem ahciProbeHba_watched (hdistinct : Distinct address) (s : Scanner) (bar5 : UInt32) :
    (portMonitor address).Watched (Orderly address s) (ahciProbeHba s bar5) (Orderly address) := by
  have hload (abar : UInt64) (reg : HbaMemReg) : (loadHba abar reg).Emits Unwatched := .ask fun _ => trivial
  have hstore (abar : UInt64) (value : UInt32) : (storeHba abar .ghc value).Emits Unwatched :=
    .tell (P := Unwatched) (r := .storeHba abar .ghc value) trivial
  exact .ite (fun _ => .pure fun _ hw => hw) fun _ => (unwatched _ (hload _ _) _).bind fun _ =>
    (unwatched _ (hstore _ _) _).bind fun _ => (unwatched _ (hload _ _) _).bind fun _ =>
      ahciProbePorts_watched hdistinct _ _ _ s

theorem pciRead32_unwatched (f : PciFunction) (offset : UInt8) : (pciRead32 f offset).Emits Unwatched :=
  (Metered.Emits.tell (P := Unwatched) (r := .outl pciConfigAddress (f.address offset)) trivial).bind fun _ =>
    .ask fun _ => trivial

theorem pciWrite32_unwatched (f : PciFunction) (offset : UInt8) (value : UInt32) :
    (pciWrite32 f offset value).Emits Unwatched := by
  have houtl (port : UInt16) (value : UInt32) : (outl port value).Emits Unwatched :=
    .tell (P := Unwatched) (r := .outl port value) trivial
  exact (houtl _ _).bind fun _ => houtl _ _

theorem ahciProbeController_watched (hdistinct : Distinct address) (s : Scanner) (f : PciFunction) (probeMode : Int) :
    (portMonitor address).Watched (Orderly address s) (ahciProbeController s f probeMode) (Orderly address) := by
  have hread (offset : UInt8) (s : Scanner) := unwatched address (pciRead32_unwatched f offset) (Orderly address s)
  have hwrite (offset : UInt8) (value : UInt32) :=
    unwatched address (pciWrite32_unwatched f offset value) (Orderly address s)
  refine (hread _ s).bind fun id => .ite (fun _ => .pure fun _ hw => hw) fun _ => (hread _ s).bind fun classReg =>
    .ite (fun _ => .pure fun _ hw => hw) fun _ => (hread _ s).bind fun command => (hwrite _ _).bind fun _ =>
    (hread _ s).bind fun bar5 => .ite (fun _ => .pure fun _ hw => hw) fun _ => ?_
  have hhba := ahciProbeHba_watched hdistinct {s with controllersSeen := s.controllersSeen + 1} bar5
  exact .ite (fun _ => (hread _ s).bind fun high => .ite (fun _ => .pure fun _ hw => hw) fun _ => hhba) fun _ => hhba

theorem ahciScanControllers_watched (hdistinct : Distinct address) (s : Scanner) (haddress : s.address = address) :
    (portMonitor address).Watched (fun w => w = .start) (ahciScanControllers s) (Orderly address) := by
  have hprobe := ahciProbeController_watched hdistinct
  have hsearch := Monitor.Watched.foldlM (fun a f => hprobe a f 1) pciFunctions
  refine Monitor.Watched.bind (Monitor.Watched.mono (hsearch _) (fun w hw => ?_) fun _ _ hw => hw) fun a => ?_
  · exact hw ▸ ⟨haddress, fun _ _ => rfl⟩
  · exact .ite (fun _ => (hprobe _ _ _).bind fun _ => (hprobe _ _ _).bind fun _ => hprobe _ _ _)
      fun _ => .pure fun _ hw => hw

end Scan

theorem scanPci_watched (s : Scanner) (hdistinct : Distinct s.address) :
    (portMonitor s.address).Watched (fun w => w = .start) (scanPci s) fun _ _ => True := by
  have hread (f : PciFunction) (offset : UInt8) :=
    unwatched s.address (pciRead32_unwatched f offset) fun w => w = .start
  have hsearch (s' : Scanner) (haddress : s'.address = s.address) (c : Prop) [Decidable c] :
      (portMonitor s.address).Watched (fun w => w = .start) (if c then ahciScanControllers s' else pure s')
        fun _ _ => True :=
    .ite (fun _ => (ahciScanControllers_watched hdistinct s' haddress).imp fun _ _ _ => trivial)
      fun _ => .pure fun _ _ => trivial
  have hend (x : Int × Scanner) : (portMonitor s.address).Watched (fun _ => True) (pure x) fun _ _ => True :=
    .pure fun _ _ => trivial
  refine (hread _ _).bind fun hostId => (hread _ _).bind fun id => (hread _ _).bind fun classReg =>
    (hread _ _).bind fun bar5 => (hsearch _ ?_ _).bind fun s' => hend _
  rfl

/-- **Ports are started with care.** In any scan, from whatever state and whatever is answered, the addresses of a
port are set only while it is at rest after it was told to stop; it is let run only once they are those of one
context, below 4 GB; and no two ports are let run with the same one. -/
theorem ataScan_programs (s : Scanner) (hdistinct : Distinct s.address) :
    (portMonitor s.address).Watched (fun w => w = .start) (ataScan s) fun _ _ => True := by
  refine (unwatched _ (onDevice_unwatched _) _).bind fun driver => ?_
  exact scanPci_watched {s with toDriver := driver, selected := -1} hdistinct

/-- Contexts one behind the other, as in an array. -/
def contexts (i : Fin 8) : CtxAddress :=
  { clb := 0x200000 + 0x800 * UInt64.ofNat i.val
    fb := 0x200400 + 0x800 * UInt64.ofNat i.val
    identify := 0x200600 + 0x800 * UInt64.ofNat i.val }

theorem ataScan_programs_contexts : (portMonitor contexts).Watched (fun w => w = .start)
    (ataScan (.initial contexts fun i => 0x200500 + 0x800 * UInt64.ofNat i.val)) fun _ _ => True :=
  ataScan_programs (.initial contexts _) (by unfold Distinct; decide)

end FurOS.Ata
