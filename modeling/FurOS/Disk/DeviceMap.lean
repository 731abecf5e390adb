import FurOS.Foundation.Monitor
import FurOS.Disk.Discovery

/-! The device map over any run of the driver.

A scan makes the map anew, a request goes to the selected entry, and both can be called in any order, with any
device or none behind the ports. In every state that is reached the entries are the IDE devices that are
present and then the AHCI devices, in the order of their numbers (`history_mapped`). So an entry's
device is there when a request comes to it, and a failed request names what the device did
(`request_concluded`). -/
namespace FurOS.Ata
open Foundation (Metered Gives)

/-! ### What a request reports -/

/-- The messages for what a device did, or did not do in time, and for memory it cannot reach. -/
def deviceMessages : List String :=
  ["IDE ready wait error", "IDE ready timeout", "IDE DRQ error", "IDE device fault", "IDE DRQ timeout",
    "IDE completion error", "IDE completion timeout", "AHCI slot busy timeout", "AHCI port busy timeout",
    "AHCI DMA buffer above 4G", "AHCI command table above 4G", "AHCI task file error", "AHCI command timeout"]

def Blames (message : CStr) : Prop := ∃ text ∈ deviceMessages, message = .ofLit text

theorem blames (text : String) (h : text ∈ deviceMessages := by decide) : Blames (.ofLit text) := ⟨text, h, rfl⟩

/-- The status and the last error after a request that got to its device. -/
def Concluded (status : Int) (s : Driver) : Prop :=
  (status = 0 ∧ s.lastError = .ofLit "ok" ∧ s.lastStatus = 0 ∧ s.lastErrorReg = 0) ∨
    (status = -1 ∧ Blames s.lastError)

/-- A request to an IDE device: only the last error is another. -/
structure Driver.Answered (s : Driver) (status : Int) (s' : Driver) : Prop where
  ide : s'.ide = s.ide
  devices : s'.devices = s.devices
  concluded : Concluded status s'

theorem Driver.answered_ok (s : Driver) : s.Answered 0 s.errorOk := ⟨rfl, rfl, .inl ⟨rfl, rfl, rfl, rfl⟩⟩

theorem Driver.answered_error (s : Driver) {e : IdeError} (h : Blames e.message) : s.Answered (-1) (s.errorIde e) :=
  ⟨rfl, rfl, .inr ⟨rfl, h⟩⟩

/-- A request to the selected device. -/
structure State.Answered (s : State) (status : Int) (s' : State) : Prop where
  ide : s'.ide = s.ide
  devices : s'.devices = s.devices
  ahci : s'.ahci = s.ahci
  selected : s'.selected = s.selected
  concluded : Concluded status s'.toDriver

theorem State.Answered.ofDriver {s : State} {status : Int} {driver : Driver} (h : s.toDriver.Answered status driver) :
    s.Answered status {s with toDriver := driver} := ⟨h.ide, h.devices, rfl, rfl, h.concluded⟩

/-! ### IDE -/

theorem idePoll_gives {verdict : UInt8 → Verdict} {timeout : CStr} {P : CStr → Prop} (htimeout : P timeout)
    (hfailed : ∀ status message, verdict status = .failed message → P message) (ioBase : UInt16) (status : UInt8)
    (attempts : Nat) : Gives (idePoll verdict timeout ioBase status attempts) fun e => ∀ x ∈ e, P x.message := by
  have herror (message : CStr) (h : P message) (status : UInt8) :
      Gives (errorIde message ioBase status >>= fun e => pure (some e)) fun e => ∀ x ∈ e, P x.message := by
    refine Gives.bind (Q := fun e => P e.message) (.then_ fun register => .pure h) fun e he => .pure ?_
    rintro x ⟨⟩
    exact he
  induction attempts generalizing status with
  | zero => exact herror timeout htimeout status
  | succ attempts ih =>
    refine .then_ fun status => ?_
    cases hverdict : verdict status with
    | again => exact .then_ fun _ => ih status
    | done => exact .pure nofun
    | failed message => exact herror message (hfailed status message hverdict) status

theorem idleVerdict_failed {message m : CStr} {status : UInt8} (h : idleVerdict message status = .failed m) :
    m = message := by
  unfold idleVerdict at h
  split at h
  · split at h
    · exact (Verdict.failed.inj h).symm
    · cases h
  · cases h

theorem drqVerdict_failed {m : CStr} {status : UInt8} (h : drqVerdict status = .failed m) : Blames m := by
  unfold drqVerdict at h
  split at h
  · exact Verdict.failed.inj h ▸ blames "IDE DRQ error"
  · split at h
    · exact Verdict.failed.inj h ▸ blames "IDE device fault"
    · split at h <;> cases h

/-- Whatever a wait ends with is the device's doing. -/
def WaitBlames (p : Io (Option IdeError)) : Prop := Gives p fun e => ∀ x ∈ e, Blames x.message

theorem ideWait_blames {verdict : UInt8 → Verdict} {timeout : CStr} (htimeout : Blames timeout)
    (hfailed : ∀ status message, verdict status = .failed message → Blames message) (ioBase : UInt16) :
    WaitBlames (ideWait verdict timeout ioBase) :=
  .then_ fun _ => idePoll_gives htimeout hfailed ioBase 0 ataPollAttempts

theorem ideWaitReady_blames (ioBase : UInt16) : WaitBlames (ideWaitReady ioBase) :=
  ideWait_blames (blames "IDE ready timeout") (fun _ _ h => idleVerdict_failed h ▸ blames "IDE ready wait error") ioBase

theorem ideWaitDrq_blames (ioBase : UInt16) : WaitBlames (ideWaitDrq ioBase) :=
  ideWait_blames (blames "IDE DRQ timeout") (fun _ _ => drqVerdict_failed) ioBase

theorem ideWaitNotBusy_blames (ioBase : UInt16) : WaitBlames (ideWaitNotBusy ioBase) :=
  ideWait_blames (blames "IDE completion timeout")
    (fun _ _ h => idleVerdict_failed h ▸ blames "IDE completion error") ioBase

section Ide
variable {s : Driver} {i : Fin 4}

theorem ideRequest_there (h : (s.ide i).present = true) {address : UInt64} (haddress : address ≠ 0) (invalid : CStr) :
    ideRequest s i.val address invalid = .ok i := by
  unfold ideRequest
  rw [ideIndex_ofNat]
  simp [haddress, h]

theorem ideReadSector_gives (h : (s.ide i).present = true) (lba : UInt32) {address : UInt64} (haddress : address ≠ 0)
    (buffer : Sector) : Gives (ideReadSector s i.val lba address buffer) fun x => s.Answered x.1 x.2.2 := by
  unfold ideReadSector
  rw [ideRequest_there h haddress]
  refine (ideWaitReady_blames _).bind fun e he => ?_
  cases e with
  | some e => exact .pure (s.answered_error (he e rfl))
  | none =>
    refine .then_ fun _ => (ideWaitDrq_blames _).bind fun e he => ?_
    cases e with
    | some e => exact .pure (s.answered_error (he e rfl))
    | none => exact .then_ fun _ => .pure s.answered_ok

theorem ideWriteSector_gives (h : (s.ide i).present = true) (lba : UInt32) {address : UInt64}
    (haddress : address ≠ 0) (buffer : Sector) :
    Gives (ideWriteSector s i.val lba address buffer) fun x => s.Answered x.1 x.2 := by
  unfold ideWriteSector
  rw [ideRequest_there h haddress]
  refine (ideWaitReady_blames _).bind fun e he => ?_
  cases e with
  | some e => exact .pure (s.answered_error (he e rfl))
  | none =>
    refine .then_ fun _ => (ideWaitDrq_blames _).bind fun e he => ?_
    cases e with
    | some e => exact .pure (s.answered_error (he e rfl))
    | none =>
      refine .then_ fun _ => (ideWaitNotBusy_blames _).bind fun e he => ?_
      cases e with
      | some e => exact .pure (s.answered_error (he e rfl))
      | none => exact .pure s.answered_ok

theorem ideFlushCache_gives (h : (s.ide i).present = true) :
    Gives (ideFlushCache s i.val) fun x => s.Answered x.1 x.2 := by
  unfold ideFlushCache
  rw [ideIndex_ofNat]
  simp only [h, Bool.not_true, Bool.false_eq_true, if_false]
  refine (ideWaitReady_blames _).bind fun e he => ?_
  cases e with
  | some e => exact .pure (s.answered_error (he e rfl))
  | none =>
    refine .then_ fun _ => .then_ fun _ => .then_ fun _ => (ideWaitNotBusy_blames _).bind fun e he => ?_
    cases e with
    | some e => exact .pure (s.answered_error (he e rfl))
    | none => exact .pure s.answered_ok

end Ide

/-! ### AHCI -/

section Ahci
variable {s s' : State} {index : Fin 8}

theorem errorAhci_gives (s : State) {message : CStr} (h : Blames message) (port : UInt64) :
    Gives (errorAhci s message port) fun x => s.Answered x.1 x.2 :=
  .then_ fun _ => .then_ fun _ => .pure ⟨rfl, rfl, rfl, rfl, .inr ⟨rfl, h⟩⟩

/-- A command that was put together is no part of what is kept. -/
theorem State.Answered.ofCommand {status : Int} {header : HbaCmdHeader} {table : HbaCmdTbl}
    (h : (s.setCommand index header table).Answered status s') : s.Answered status s' :=
  ⟨h.ide, h.devices, h.ahci, h.selected, h.concluded⟩

theorem ahciRun_gives (header : HbaCmdHeader) (table : HbaCmdTbl) (port : UInt64) :
    Gives (ahciRun (s.setCommand index header table) port) fun x => s.Answered x.1 x.2 := by
  refine .then_ fun _ => .then_ fun _ => .then_ fun completion => ?_
  cases completion with
  | done => exact .pure ⟨rfl, rfl, rfl, rfl, .inl ⟨rfl, rfl, rfl, rfl⟩⟩
  | taskFileError => exact (errorAhci_gives _ (blames "AHCI task file error") port).imp fun _ => .ofCommand
  | timeout => exact (errorAhci_gives _ (blames "AHCI command timeout") port).imp fun _ => .ofCommand

theorem ahciIssue_gives (h : (s.ahci index).present = true) (command : UInt8) (lba : UInt32) {transferCount : UInt16}
    (hcount : transferCount ≠ 0) (fisCount : UInt16) (write : Bool) (deviceReg : UInt8) {buffer : UInt64}
    (hbuffer : buffer ≠ 0) : Gives (ahciIssue s index command lba transferCount fisCount write deviceReg buffer)
      fun x => s.Answered x.1 x.2 := by
  unfold ahciIssue
  simp only [h, Bool.not_true, Bool.false_eq_true, if_false, hbuffer, hcount, or_self]
  refine .then_ fun free => .ite (fun _ => ?_) fun _ => .then_ fun _ => .then_ fun tfd => ?_
  · exact errorAhci_gives s (blames "AHCI slot busy timeout") _
  refine .ite (fun _ => ?_) fun _ => .ite (fun _ => ?_) fun _ => .ite (fun _ => ?_) fun _ => ?_
  · exact errorAhci_gives s (blames "AHCI port busy timeout") _
  · exact (errorAhci_gives _ (blames "AHCI DMA buffer above 4G") _).imp fun _ => .ofCommand
  · exact (errorAhci_gives _ (blames "AHCI command table above 4G") _).imp fun _ => .ofCommand
  · exact ahciRun_gives _ _ _

end Ahci

/-! ### The IDE half of a scan -/

/-- The entry of an IDE device. -/
def ideEntry (s : Driver) (i : Fin 4) : DeviceMap :=
  { source := .ide i
    ioBase := ideBase i
    slave := slaveBit i
    sectors28 := (s.ide i).sectors28
    model := kstrcpy (fun _ => 0) (cstr (s.ide i).model) }

/-- Those of the devices that are present, in order. -/
def ideEntries (s : Driver) (l : List (Fin 4)) : List DeviceMap :=
  (l.filter fun i => (s.ide i).present).map (ideEntry s)

theorem ideEntries_congr {s s' : Driver} {l : List (Fin 4)} (h : ∀ i ∈ l, s'.ide i = s.ide i) :
    ideEntries s' l = ideEntries s l := by
  unfold ideEntries
  rw [List.filter_congr fun i hi => by rw [h i hi]]
  refine List.map_congr_left fun i hi => ?_
  simp only [ideEntry, h i (List.mem_of_mem_filter hi)]

theorem length_ideEntries (s : Driver) (l : List (Fin 4)) : (ideEntries s l).length ≤ l.length := by
  rw [ideEntries, List.length_map]
  exact List.length_filter_le ..

/-- What a probe does to the variables. -/
structure Probed (s : Driver) (i : Fin 4) (x : Int × Driver) : Prop where
  others : ∀ j ≠ i, x.2.ide j = s.ide j
  devices : x.2.devices = s.devices
  present : x.1 = 0 ↔ (x.2.ide i).present = true

theorem setIde_ide_of_ne (s : Driver) {i j : Fin 4} (h : j ≠ i) (dev : IdeDevice) : (s.setIde i dev).ide j = s.ide j :=
  Function.update_of_ne h ..

theorem setIde_ide_self (s : Driver) (i : Fin 4) (dev : IdeDevice) : (s.setIde i dev).ide i = dev :=
  Function.update_self ..

theorem probed_absent (s : Driver) (i : Fin 4) : Probed s i (-1, s.setIde i .absent) where
  others j hj := setIde_ide_of_ne s hj _
  devices := rfl
  present := by
    rw [setIde_ide_self]
    exact iff_of_false (by simp) (by decide)

theorem ideIdentify_gives (s : Driver) (i : Fin 4) : Gives (ideIdentify (s.setIde i .absent) i) (Probed s i) := by
  refine .then_ fun e => ?_
  cases e with
  | some e =>
    have habsent := probed_absent s i
    exact .pure ⟨habsent.others, habsent.devices, habsent.present⟩
  | none =>
    refine .then_ fun identify => .pure ⟨fun j hj => ?_, rfl, ?_⟩
    · rw [setIde_ide_of_ne _ hj, setIde_ide_of_ne s hj]
    · simp [setIde_ide_self]

theorem ideProbeDevice_gives (s : Driver) (i : Fin 4) : Gives (ideProbeDevice s i.val) (Probed s i) := by
  unfold ideProbeDevice
  rw [ideIndex_ofNat]
  refine .then_ fun _ => .then_ fun _ => .then_ fun _ => .then_ fun _ => .then_ fun _ => .then_ fun _ =>
    .then_ fun _ => .then_ fun status => .ite (fun _ => .pure (probed_absent s i)) fun _ => ?_
  refine .then_ fun _ => .then_ fun lba1 => .then_ fun lba2 => .ite (fun _ => .pure (probed_absent s i)) fun _ => ?_
  exact ideIdentify_gives s i

/-- The entries so far are those of the devices so far. -/
def Listed (l : List (Fin 4)) (s : Driver) : Prop := s.devices = ideEntries s l

theorem scanIdeDevice_gives {l : List (Fin 4)} {i : Fin 4} (hl : l.length < 16) (hi : i ∉ l) (s : Driver)
    (h : Listed l s) : Gives (scanIdeDevice s i) (Listed (l ++ [i])) := by
  refine (ideProbeDevice_gives s i).bind fun x hx => ?_
  have hold : x.2.devices = ideEntries x.2 l := by
    rw [hx.devices, h]
    exact (ideEntries_congr fun j hj => hx.others j fun hji => hi (hji ▸ hj)).symm
  have hroom : ¬ x.2.devices.length ≥ 16 := by
    have := length_ideEntries x.2 l
    rw [hold]
    omega
  have happend : ideEntries x.2 (l ++ [i]) = ideEntries x.2 l ++ ideEntries x.2 [i] := by
    unfold ideEntries
    rw [List.filter_append, List.map_append]
  refine .ite (fun hpresent => .pure ?_) fun habsent => .pure ?_
  · rw [addDeviceMap, if_neg hroom]
    show x.2.devices ++ [ideEntry x.2 i] = ideEntries x.2 (l ++ [i])
    rw [happend, ← hold]
    simp [ideEntries, hpresent.2]
  · have hgone : ¬ (x.2.ide i).present = true := fun hp => habsent ⟨hx.present.mpr hp, hp⟩
    show x.2.devices = ideEntries x.2 (l ++ [i])
    rw [happend, ← hold]
    simp [ideEntries, hgone]

theorem scanIde_gives (s : Driver) : Gives (scanIde s) (Listed (List.finRange 4)) := by
  refine Gives.foldlM_split (List.finRange 4) (fun front i back hsplit s h => ?_) _ rfl
  have hnodup := List.nodup_finRange 4
  rw [hsplit] at hnodup
  have hi : i ∉ front := fun hi => (List.nodup_append.mp hnodup).2.2 i hi i List.mem_cons_self rfl
  have hlength : (front ++ i :: back).length = 4 := by rw [← hsplit, List.length_finRange]
  rw [List.length_append] at hlength
  exact scanIdeDevice_gives (by omega) hi s h

/-! ### The AHCI half -/

namespace Scanner

/-- What the search for controllers leaves alone. -/
structure Kept (s s' : Scanner) : Prop where
  ide : s'.ide = s.ide
  devices : s'.devices = s.devices
  selected : s'.selected = s.selected
  address : s'.address = s.address

/-- And the variables for AHCI. -/
structure Same (s s' : Scanner) : Prop extends Kept s s' where
  ahci : s'.ahci = s.ahci
  info : s'.info = s.info
  ahciCount : s'.ahciCount = s.ahciCount

theorem Kept.refl (s : Scanner) : s.Kept s := ⟨rfl, rfl, rfl, rfl⟩

theorem Kept.trans {s s' s'' : Scanner} (h : s.Kept s') (h' : s'.Kept s'') : s.Kept s'' :=
  ⟨h'.ide.trans h.ide, h'.devices.trans h.devices, h'.selected.trans h.selected, h'.address.trans h.address⟩

theorem Same.refl (s : Scanner) : s.Same s := ⟨.refl s, rfl, rfl, rfl⟩

theorem Same.trans {s s' s'' : Scanner} (h : s.Same s') (h' : s'.Same s'') : s.Same s'' :=
  ⟨h.toKept.trans h'.toKept, h'.ahci.trans h.ahci, h'.info.trans h.info, h'.ahciCount.trans h.ahciCount⟩

end Scanner

/-- A device that did not identify itself. -/
def ahciDiskInfo (portNo : UInt8) : AhciInfo :=
  { portNo := portNo
    sectors28 := 0x0FFFFFFF
    model := kstrcpy (fun _ => 0) (lit "AHCI Disk") }

/-- The AHCI devices so far. -/
structure Found (s : Scanner) : Prop where
  count : s.ahciCount ≤ 8
  present : ∀ i : Fin 8, i.val < s.ahciCount → (s.ahci i).present = true
  info : ∀ i : Fin 8, i.val < s.ahciCount → s.info i = ahciDiskInfo (s.info i).portNo

theorem Found.same {s s' : Scanner} (h : Found s) (hsame : s.Same s') : Found s' := by
  constructor
  · rw [hsame.ahciCount]
    exact h.count
  · rw [hsame.ahciCount, hsame.ahci]
    exact h.present
  · rw [hsame.ahciCount, hsame.info]
    exact h.info

section Port
variable (s : Scanner) (port : UInt64)

theorem errorPort_gives (message : CStr) : Gives (errorPort s message port) fun x => x.1 = -1 ∧ s.Same x.2 := by
  refine Gives.bind (Q := fun x : Int × State => x.1 = -1 ∧ x.2.ide = s.ide ∧ x.2.devices = s.devices ∧
    x.2.selected = s.selected ∧ x.2.ahci = s.ahci) (.within _ (.then_ fun _ => .then_ fun _ => .pure ?_)) ?_
  · exact ⟨rfl, rfl, rfl, rfl, rfl⟩
  · rintro x ⟨hstatus, hide, hdevices, hselected, hahci⟩
    exact .pure ⟨hstatus, ⟨hide, hdevices, hselected, rfl⟩, hahci, rfl, rfl⟩

theorem ahciStopPort_gives : Gives (ahciStopPort s port) fun x => s.Same x.2 :=
  .then_ fun _ => .then_ fun _ => .then_ fun _ =>
    .ite (fun _ => .pure (.refl s)) fun _ => (errorPort_gives s port _).imp fun _ h => h.2

theorem ahciStartPort_gives : Gives (ahciStartPort s port) fun x => s.Same x.2 :=
  .then_ fun _ => .then_ fun _ =>
    .ite (fun _ => (errorPort_gives s port _).imp fun _ h => h.2) fun _ =>
      .then_ fun _ => .then_ fun _ => .pure (.refl s)

theorem ahciSetupPort_gives (index : Fin 8) : Gives (ahciSetupPort s index) fun x => s.Same x.2 := by
  refine (ahciStopPort_gives s _).bind fun x hx => .ite (fun _ => .pure hx) fun _ => ?_
  have hcommand : s.Same {x.2 with toState := x.2.toState.setCommand index ⟨0, 0, 0, 0⟩ .zero} :=
    hx.trans ⟨⟨rfl, rfl, rfl, rfl⟩, rfl, rfl, rfl⟩
  refine .ite (fun _ => (errorPort_gives _ _ _).imp fun _ h => hcommand.trans h.2) fun _ => .then_ fun _ => ?_
  exact (ahciStartPort_gives _ _).bind fun y hy =>
    .ite (fun _ => .pure (hcommand.trans hy)) fun _ => .pure (hcommand.trans hy)

/-- `ahci_identify` asks for a command to a device that is not marked as present yet: there is none. -/
theorem ahciIdentify_absent {index : Fin 8} (h : (s.ahci index).present = false) :
    ahciIdentify s index = pure (-1, {s with toState := s.toState.fail (.ofLit "AHCI device missing")}) := by
  have hissue : ahciIssue s.toState index ataCmdIdentify 0 1 0 false 0 (s.address index).identify =
      pure (-1, s.toState.fail (.ofLit "AHCI device missing")) := by
    unfold ahciIssue
    simp only [h, Bool.not_false, if_true]
  unfold ahciIdentify onDevice
  rw [hissue, Metered.within_pure, pure_bind]
  rfl

end Port

/-- What the end of a registration makes of a claimed entry that is the next. -/
theorem Found.registered {s : Scanner} (h : Found s) {index : Fin 8} (hindex : index.val = s.ahciCount) {portNo : UInt8}
    (hinfo : s.info index = {AhciInfo.zero with portNo := portNo}) : Found (ahciRegistered s index false) := by
  have hsplit (i : Fin 8) (hi : i.val < s.ahciCount + 1) : i = index ∨ (i ≠ index ∧ i.val < s.ahciCount) := by
    by_cases heq : i = index
    · exact .inl heq
    · have hne := Fin.val_ne_of_ne heq
      exact .inr ⟨heq, by omega⟩
  refine ⟨?_, fun i hi => ?_, fun i hi => ?_⟩
  · show s.ahciCount + 1 ≤ 8
    have := index.isLt
    omega
  · rcases hsplit i hi with rfl | ⟨hne, hlt⟩
    · simp [ahciRegistered, Scanner.setAhci]
    · simp only [ahciRegistered, Scanner.setAhci, Function.update_of_ne hne]
      exact h.present i hlt
  · rcases hsplit i hi with rfl | ⟨hne, hlt⟩
    · simp [ahciRegistered, Scanner.setAhci, hinfo, ahciDiskInfo, AhciInfo.zero]
    · simp only [ahciRegistered, Scanner.setAhci, Function.update_of_ne hne]
      exact h.info i hlt

theorem Found.claimed {s : Scanner} (h : Found s) {index : Fin 8} (hindex : index.val = s.ahciCount) (port : UInt64)
    (portNo : UInt8) : Found (claimAhci s index port portNo) := by
  have hne (i : Fin 8) (hi : i.val < s.ahciCount) : i ≠ index := fun heq => by
    rw [heq, hindex] at hi
    exact Nat.lt_irrefl _ hi
  refine ⟨h.count, fun i hi => ?_, fun i hi => ?_⟩
  · simp only [claimAhci, Scanner.setAhci, Function.update_of_ne (hne i hi)]
    exact h.present i hi
  · simp only [claimAhci, Scanner.setAhci, Function.update_of_ne (hne i hi)]
    exact h.info i hi

theorem ahciRegisterPort_gives {s : Scanner} (h : Found s) (port : UInt64) (portNo : UInt8) :
    Gives (ahciRegisterPort s port portNo) fun x => Found x.2 ∧ s.Kept x.2 := by
  unfold ahciRegisterPort
  split
  · rename_i hcount
    generalize hindex : (⟨s.ahciCount, hcount⟩ : Fin 8) = index
    have hval : index.val = s.ahciCount := hindex ▸ rfl
    have hfound := h.claimed hval port portNo
    refine (ahciSetupPort_gives _ index).bind fun x hx => .ite (fun _ => .pure ?_) fun _ => ?_
    · exact ⟨hfound.same hx, hx.ide, hx.devices, hx.selected, hx.address⟩
    · have habsent : (x.2.ahci index).present = false := by
        rw [hx.ahci]
        simp [claimAhci, Scanner.setAhci]
      have hinfo : x.2.info index = {AhciInfo.zero with portNo := portNo} := by
        rw [hx.info]
        simp [claimAhci, Scanner.setAhci]
      rw [ahciIdentify_absent _ habsent, pure_bind]
      have hnext := (hfound.same hx).registered (hval.trans hx.ahciCount.symm) hinfo
      exact .pure ⟨⟨hnext.count, hnext.present, hnext.info⟩, hx.ide, hx.devices, hx.selected, hx.address⟩
  · exact .pure ⟨h, .refl s⟩

/-- What the search for controllers keeps, from a state on. -/
def Searched (s s' : Scanner) : Prop := Found s' ∧ s.Kept s'

theorem Searched.step {s s' s'' : Scanner} (h : Searched s s') (h' : Searched s' s'') : Searched s s'' :=
  ⟨h'.1, h.2.trans h'.2⟩

theorem ahciProbePorts_gives (abar : UInt64) (ports : UInt32) (l : List (Fin 32)) {s : Scanner} (h : Found s) :
    Gives (ahciProbePorts abar ports l s) (Searched s) := by
  induction l generalizing s with
  | nil => exact .pure ⟨h, .refl s⟩
  | cons portNo l ih =>
    unfold ahciProbePorts
    refine .ite (fun _ => ih h) fun _ => .ite (fun _ => .pure ⟨h, .refl s⟩) fun _ => .then_ fun ssts =>
      .ite (fun _ => ih h) fun _ => .then_ fun skipped => .ite (fun _ => ih h) fun _ => ?_
    have hconsidered : Found {s with portsConsidered := s.portsConsidered + 1} := ⟨h.count, h.present, h.info⟩
    refine (ahciRegisterPort_gives hconsidered _ _).bind fun x hx => ?_
    exact (ih hx.1).imp fun s' hs' =>
      ⟨hs'.1, Scanner.Kept.trans ⟨hx.2.ide, hx.2.devices, hx.2.selected, hx.2.address⟩ hs'.2⟩

theorem ahciProbeHba_gives {s : Scanner} (h : Found s) (bar5 : UInt32) : Gives (ahciProbeHba s bar5) (Searched s) :=
  .ite (fun _ => .pure ⟨h, .refl s⟩) fun _ =>
    .then_ fun _ => .then_ fun _ => .then_ fun _ => ahciProbePorts_gives _ _ _ h

theorem ahciProbeController_gives {s : Scanner} (h : Found s) (f : PciFunction) (probeMode : Int) :
    Gives (ahciProbeController s f probeMode) (Searched s) := by
  have hseen : Found {s with controllersSeen := s.controllersSeen + 1} := ⟨h.count, h.present, h.info⟩
  have hhba (bar5 : UInt32) :
      Gives (ahciProbeHba {s with controllersSeen := s.controllersSeen + 1} bar5) (Searched s) :=
    (ahciProbeHba_gives hseen bar5).imp fun _ hs' => ⟨hs'.1, hs'.2.ide, hs'.2.devices, hs'.2.selected, hs'.2.address⟩
  refine .then_ fun id => .ite (fun _ => .pure ⟨h, .refl s⟩) fun _ => .then_ fun classReg =>
    .ite (fun _ => .pure ⟨h, .refl s⟩) fun _ => .then_ fun command => .then_ fun _ => .then_ fun bar5 => ?_
  refine .ite (fun _ => .pure ⟨hseen, rfl, rfl, rfl, rfl⟩) fun _ => ?_
  refine .ite (fun _ => .then_ fun high => ?_) fun _ => hhba bar5
  exact .ite (fun _ => .pure ⟨⟨h.count, h.present, h.info⟩, rfl, rfl, rfl, rfl⟩) fun _ => hhba bar5

theorem ahciScanControllers_gives (s : Scanner) : Gives (ahciScanControllers s) (Searched s) := by
  let start : Scanner := {s with
    ahci := fun _ => ⟨false, 0⟩
    info := fun _ => .zero
    ahciCount := 0
    controllersSeen := 0
    bar64Rejected := 0
    portsConsidered := 0}
  have hstart : Searched s start :=
    ⟨⟨Nat.zero_le 8, fun _ hi => absurd hi (Nat.not_lt_zero _), fun _ hi => absurd hi (Nat.not_lt_zero _)⟩,
      rfl, rfl, rfl, rfl⟩
  have hprobe (f : PciFunction) (probeMode : Int) (a : Scanner) (ha : Searched s a) :
      Gives (ahciProbeController a f probeMode) (Searched s) :=
    (ahciProbeController_gives ha.1 f probeMode).imp fun _ => ha.step
  refine (Gives.foldlM (fun a f ha => hprobe f 1 a ha) pciFunctions start hstart).bind fun a ha => ?_
  exact .ite (fun _ => (hprobe _ _ a ha).bind fun a ha => (hprobe _ _ a ha).bind fun a ha => hprobe _ _ a ha)
    fun _ => .pure ha

/-! ### The map -/

/-- The entry of an AHCI device. -/
def ahciEntry (s : Scanner) (i : Fin 8) : DeviceMap :=
  { source := .ahci i
    ioBase := 0
    slave := 0
    sectors28 := (s.info i).sectors28
    model := kstrcpy (fun _ => 0) (cstr (s.info i).model) }

def ahciEntries (s : Scanner) (l : List (Fin 8)) : List DeviceMap :=
  (l.filter fun i => i.val < s.ahciCount).map (ahciEntry s)

/-- The device map in a state between two calls. -/
structure Mapped (s : Scanner) : Prop where
  found : Found s
  /-- The IDE devices that are present, and then the AHCI devices. -/
  devices : s.devices = ideEntries s.toDriver (List.finRange 4) ++ ahciEntries s (List.finRange 8)
  selected : if s.devices = [] then s.selected = -1 else 0 ≤ s.selected ∧ s.selected < s.devices.length

/-- The last loop of `ata_scan`, over the first of the AHCI devices. -/
theorem foldl_addAhciDevice {s : Scanner} (h : Found s) (hroom : s.devices.length ≤ 4) (l : List (Fin 8))
    (hl : l.length ≤ 8) : l.foldl addAhciDevice s =
      {s with toDriver := {s.toDriver with devices := s.devices ++ ahciEntries s l}} := by
  induction l using List.reverseRecOn with
  | nil =>
    simp only [List.foldl_nil, ahciEntries, List.filter_nil, List.map_nil, List.append_nil]
  | append_singleton l i ih =>
    rw [List.length_append, List.length_singleton] at hl
    have happend : ahciEntries s (l ++ [i]) = ahciEntries s l ++ ahciEntries s [i] := by
      unfold ahciEntries
      rw [List.filter_append, List.map_append]
    have hlength : (ahciEntries s l).length ≤ l.length := by
      rw [ahciEntries, List.length_map]
      exact List.length_filter_le ..
    rw [List.foldl_append, ih (by omega), List.foldl_cons, List.foldl_nil, addAhciDevice, happend]
    by_cases hi : i.val < s.ahciCount
    · have hpresent := h.present i hi
      have hfits : ¬ s.devices.length + (ahciEntries s l).length ≥ 16 := by omega
      have hone : ahciEntries s [i] = [ahciEntry s i] := by simp [ahciEntries, hi]
      simp only [hi, hpresent, and_self, if_true, addDeviceMap, List.length_append, hfits, if_false, hone,
        List.append_assoc]
      rfl
    · have hnone : ahciEntries s [i] = [] := by simp [ahciEntries, hi]
      simp [hi, hnone]

theorem scanVerdict_mapped {s : Scanner} (hfound : Found s)
    (hdevices : s.devices = ideEntries s.toDriver (List.finRange 4) ++ ahciEntries s (List.finRange 8))
    (hselected : s.selected = -1) (pciHostId : UInt32) : Mapped (scanVerdict s pciHostId) := by
  unfold scanVerdict
  by_cases hany : s.devices.length > 0
  · rw [if_pos hany]
    refine ⟨⟨hfound.count, hfound.present, hfound.info⟩, hdevices, ?_⟩
    show if s.devices = [] then (0 : Int) = -1 else (0 : Int) ≤ 0 ∧ (0 : Int) < s.devices.length
    rw [if_neg (List.ne_nil_of_length_pos hany)]
    exact ⟨Int.le_refl 0, by exact_mod_cast hany⟩
  · rw [if_neg hany]
    have hnone : s.devices = [] := List.eq_nil_of_length_eq_zero (by omega)
    refine ⟨⟨hfound.count, hfound.present, hfound.info⟩, hdevices, ?_⟩
    show if s.devices = [] then s.selected = -1 else _
    rw [if_pos hnone]
    exact hselected

theorem gives_counted {s : Scanner} (h : Mapped s) :
    Gives (pure ((s.devices.length : Int), s) : ScanIo (Int × Scanner)) fun x =>
      x.1 = x.2.devices.length ∧ Mapped x.2 := .pure ⟨rfl, h⟩

/-- The search does not touch what the IDE half left. -/
theorem scanPci_gives {s : Scanner} (hfound : Found s) (hlisted : Listed (List.finRange 4) s.toDriver)
    (hselected : s.selected = -1) : Gives (scanPci s) fun x => x.1 = x.2.devices.length ∧ Mapped x.2 := by
  refine .then_ fun hostId => .then_ fun slot13Id => .then_ fun slot13Class => .then_ fun slot13Bar5 => ?_
  refine Gives.bind (Q := Searched s) (.ite (fun _ => ?_) fun _ => ?_) fun s' hs' => gives_counted ?_
  · exact (ahciScanControllers_gives _).imp fun s' hs' =>
      ⟨hs'.1, hs'.2.ide, hs'.2.devices, hs'.2.selected, hs'.2.address⟩
  · exact .pure ⟨⟨hfound.count, hfound.present, hfound.info⟩, rfl, rfl, rfl, rfl⟩
  · have hide : s'.devices = ideEntries s'.toDriver (List.finRange 4) := by
      rw [hs'.2.devices, hlisted]
      exact (ideEntries_congr fun i _ => congrFun hs'.2.ide i).symm
    have hroom : s'.devices.length ≤ 4 := by
      rw [hide]
      exact (length_ideEntries ..).trans_eq List.length_finRange
    rw [foldl_addAhciDevice hs'.1 hroom _ (Nat.le_of_eq List.length_finRange)]
    have hfull : Found {s' with
        toDriver := {s'.toDriver with devices := s'.devices ++ ahciEntries s' (List.finRange 8)}} :=
      ⟨hs'.1.count, hs'.1.present, hs'.1.info⟩
    exact scanVerdict_mapped hfull (congrArg (· ++ ahciEntries s' (List.finRange 8)) hide)
      (hs'.2.selected.trans hselected) hostId

theorem ataScan_gives {s : Scanner} (hfound : Found s) :
    Gives (ataScan s) fun x => x.1 = x.2.devices.length ∧ Mapped x.2 := by
  refine (Gives.within _ (scanIde_gives s.toDriver)).bind fun driver hlisted => ?_
  have hstart : Found {s with toDriver := driver, selected := -1} := ⟨hfound.count, hfound.present, hfound.info⟩
  exact scanPci_gives hstart hlisted rfl

/-! ### Requests in a mapped state -/

theorem Mapped.initial (address : Fin 8 → CtxAddress) (ctba : Fin 8 → UInt64) :
    Mapped (Scanner.initial address ctba) where
  found := ⟨Nat.zero_le 8, fun _ hi => absurd hi (Nat.not_lt_zero _), fun _ hi => absurd hi (Nat.not_lt_zero _)⟩
  devices := by rfl
  selected := rfl

/-- What a request leaves is mapped as before. -/
theorem Mapped.answered {s : Scanner} (h : Mapped s) {status : Int} {s' : State}
    (ha : s.toState.Answered status s') : Mapped {s with toState := s'} := by
  refine ⟨⟨h.found.count, fun i hi => ?_, h.found.info⟩, ?_, ?_⟩
  · show (s'.ahci i).present = true
    rw [ha.ahci]
    exact h.found.present i hi
  · show s'.devices = ideEntries s'.toDriver (List.finRange 4) ++ ahciEntries s (List.finRange 8)
    rw [ha.devices, ideEntries_congr (s := s.toDriver) fun i _ => congrFun ha.ide i]
    exact h.devices
  · show if s'.devices = [] then s'.selected = -1 else 0 ≤ s'.selected ∧ s'.selected < s'.devices.length
    rw [ha.devices, ha.selected]
    exact h.selected

/-- An entry's device is there. -/
def Source.There (s : State) : Source → Prop
  | ide i => (s.ide i).present = true
  | ahci i => (s.ahci i).present = true

theorem Mapped.there {s : Scanner} (h : Mapped s) {entry : DeviceMap} (he : entry ∈ s.devices) :
    entry.source.There s.toState := by
  rw [h.devices, List.mem_append] at he
  rcases he with he | he
  · obtain ⟨i, hi, rfl⟩ := List.mem_map.mp he
    exact (List.mem_filter.mp hi).2
  · obtain ⟨i, hi, rfl⟩ := List.mem_map.mp he
    exact h.found.present i (by simpa using (List.mem_filter.mp hi).2)

/-- A device is selected where there is one. -/
theorem Mapped.entry {s : Scanner} (h : Mapped s) :
    (s.devices = [] ∧ s.entry = none) ∨ ∃ entry ∈ s.devices, s.entry = some entry := by
  have hselected := h.selected
  unfold State.entry
  by_cases hany : s.devices = []
  · rw [if_pos hany] at hselected
    exact .inl ⟨hany, by rw [if_pos (by omega)]⟩
  · rw [if_neg hany] at hselected
    have hlt : s.selected.toNat < s.devices.length := by omega
    refine .inr ⟨s.devices[s.selected.toNat], List.getElem_mem hlt, ?_⟩
    rw [if_neg (by omega), List.getElem?_eq_getElem hlt]

/-- The outcome of a request in a mapped state: there is no device, there is one but no buffer, or there are both
and the device answers. -/
inductive Request (s : State) (address : UInt64) (status : Int) (s' : State) : Prop where
  | noDevice (hnone : s.devices = []) (hstatus : status = -1) (hs : s' = s.fail (.ofLit "no selected disk"))
  | noBuffer (hdevices : s.devices ≠ []) (haddress : address = 0) (hstatus : status = -1)
      (hs : ∃ message ∈ ["IDE invalid read request", "IDE invalid write request", "AHCI invalid request"],
        s' = s.fail (.ofLit message))
  | answered (hdevices : s.devices ≠ []) (haddress : address ≠ 0) (h : s.Answered status s')

theorem Request.mapped {s : Scanner} (h : Mapped s) {address : UInt64} {status : Int} {s' : State}
    (hr : Request s.toState address status s') : Mapped {s with toState := s'} := by
  cases hr with
  | noDevice hnone hstatus hs =>
    subst hs
    exact ⟨⟨h.found.count, h.found.present, h.found.info⟩, h.devices, h.selected⟩
  | noBuffer hdevices haddress hstatus hs =>
    obtain ⟨message, _, rfl⟩ := hs
    exact ⟨⟨h.found.count, h.found.present, h.found.info⟩, h.devices, h.selected⟩
  | answered hdevices haddress ha => exact h.answered ha

section Requests
variable {s : Scanner} (lba : UInt32) (address : UInt64) (buffer : Sector)

theorem ataReadSector_gives (h : Mapped s) : Gives (ataReadSector s.toState lba address buffer) fun x =>
    Request s.toState address x.1 x.2.2 := by
  unfold ataReadSector
  rcases h.entry with ⟨hnone, hentry⟩ | ⟨entry, he, hentry⟩
  · rw [hentry]
    exact .pure (.noDevice hnone rfl rfl)
  · rw [hentry]
    have hthere := h.there he
    have hany := List.ne_nil_of_mem he
    dsimp only
    cases hsource : entry.source with
    | ide i =>
      rw [hsource] at hthere
      by_cases haddress : address = 0
      · have hread : ideReadSector s.toDriver i.val lba address buffer =
            pure (-1, buffer, {s.toDriver with lastError := .ofLit "IDE invalid read request"}) := by
          simp [ideReadSector, ideRequest, ideIndex_ofNat, haddress]
        dsimp only
        rw [hread, pure_bind]
        exact .pure (.noBuffer hany haddress rfl ⟨_, List.mem_cons_self, rfl⟩)
      · exact (ideReadSector_gives hthere lba haddress buffer).bind fun x hx => .pure (.answered hany haddress (.ofDriver hx))
    | ahci i =>
      rw [hsource] at hthere
      by_cases haddress : address = 0
      · have hissue : ahciIssue s.toState i ataCmdReadDmaExt lba 1 1 false ataDevLba address =
            pure (-1, s.toState.fail (.ofLit "AHCI invalid request")) := by
          have hpresent : (s.ahci i).present = true := hthere
          simp [ahciIssue, hpresent, haddress]
        dsimp only
        rw [hissue, pure_bind]
        exact .pure (.noBuffer hany haddress rfl ⟨"AHCI invalid request", by simp, rfl⟩)
      · exact (ahciIssue_gives hthere _ lba (by decide) 1 false _ haddress).bind fun x hx =>
          .pure (.answered hany haddress hx)

theorem ataWriteSector_gives (h : Mapped s) : Gives (ataWriteSector s.toState lba address buffer) fun x =>
    Request s.toState address x.1 x.2 := by
  unfold ataWriteSector
  rcases h.entry with ⟨hnone, hentry⟩ | ⟨entry, he, hentry⟩
  · rw [hentry]
    exact .pure (.noDevice hnone rfl rfl)
  · rw [hentry]
    have hthere := h.there he
    have hany := List.ne_nil_of_mem he
    dsimp only
    cases hsource : entry.source with
    | ide i =>
      rw [hsource] at hthere
      by_cases haddress : address = 0
      · have hwrite : ideWriteSector s.toDriver i.val lba address buffer =
            pure (-1, {s.toDriver with lastError := .ofLit "IDE invalid write request"}) := by
          simp [ideWriteSector, ideRequest, ideIndex_ofNat, haddress]
        dsimp only
        rw [hwrite, pure_bind]
        exact .pure (.noBuffer hany haddress rfl ⟨"IDE invalid write request", by simp, rfl⟩)
      · exact (ideWriteSector_gives hthere lba haddress buffer).bind fun x hx => .pure (.answered hany haddress (.ofDriver hx))
    | ahci i =>
      rw [hsource] at hthere
      by_cases haddress : address = 0
      · have hissue : ahciIssue s.toState i ataCmdWriteDmaExt lba 1 1 true ataDevLba address =
            pure (-1, s.toState.fail (.ofLit "AHCI invalid request")) := by
          have hpresent : (s.ahci i).present = true := hthere
          simp [ahciIssue, hpresent, haddress]
        dsimp only
        rw [hissue]
        exact .pure (.noBuffer hany haddress rfl ⟨"AHCI invalid request", by simp, rfl⟩)
      · exact (ahciIssue_gives hthere _ lba (by decide) 1 true _ haddress).imp fun x hx =>
          .answered hany haddress hx

theorem ataFlush_gives (h : Mapped s) (haddress : address ≠ 0) :
    Gives (ataFlush s.toState) fun x => Request s.toState address x.1 x.2 := by
  unfold ataFlush
  rcases h.entry with ⟨hnone, hentry⟩ | ⟨entry, he, hentry⟩
  · rw [hentry]
    exact .pure (.noDevice hnone rfl rfl)
  · rw [hentry]
    have hthere := h.there he
    have hany := List.ne_nil_of_mem he
    dsimp only
    cases hsource : entry.source with
    | ide i =>
      rw [hsource] at hthere
      exact (ideFlushCache_gives hthere).bind fun x hx => .pure (.answered hany haddress (.ofDriver hx))
    | ahci i => exact .pure (.answered hany haddress ⟨rfl, rfl, rfl, rfl, .inl ⟨rfl, rfl, rfl, rfl⟩⟩)

end Requests

/-! ### Histories -/

/-- A call of the driver; a buffer is at an address and has contents. -/
inductive AtaCall where
  | scan
  | select (index : Int)
  | read (lba : UInt32) (address : UInt64) (buffer : Sector)
  | write (lba : UInt32) (address : UInt64) (buffer : Sector)
  | flush

namespace AtaCall

/-- The status of a call, and what it leaves; what a read leaves in its buffer is not looked at. -/
def run (s : Scanner) : AtaCall → ScanIo (Int × Scanner)
  | scan => ataScan s
  | select index => return ataSelectDevice s index
  | read lba address buffer => do
    let x ← onDevice (ataReadSector s.toState lba address buffer)
    return (x.1, {s with toState := x.2.2})
  | write lba address buffer => do
    let x ← onDevice (ataWriteSector s.toState lba address buffer)
    return (x.1, {s with toState := x.2})
  | flush => do
    let x ← onDevice (ataFlush s.toState)
    return (x.1, {s with toState := x.2})

/-- The address of the buffer; a flush has none to be refused for. -/
def bufferAddress : AtaCall → UInt64
  | read _ address _ => address
  | write _ address _ => address
  | _ => 1

def isRequest : AtaCall → Bool
  | scan => false
  | select _ => false
  | _ => true

/-- A request alone changes only what `Ahci.State` has. -/
theorem request_gives {s : Scanner} (h : Mapped s) {c : AtaCall} (hc : c.isRequest = true) : Gives (c.run s) fun x =>
    Request s.toState c.bufferAddress x.1 x.2.toState ∧ Mapped x.2 := by
  have hend (p : Io (Int × State)) (hp : Gives p fun x => Request s.toState c.bufferAddress x.1 x.2) :
      Gives (onDevice p >>= fun x => pure (x.1, {s with toState := x.2})) fun x =>
        Request s.toState c.bufferAddress x.1 x.2.toState ∧ Mapped x.2 :=
    (Gives.within _ hp).bind fun x hx => .pure ⟨hx, hx.mapped h⟩
  cases c with
  | scan => cases hc
  | select index => cases hc
  | read lba address buffer =>
    exact (Gives.within _ (ataReadSector_gives lba address buffer h)).bind fun x hx => .pure ⟨hx, hx.mapped h⟩
  | write lba address buffer => exact hend _ (ataWriteSector_gives lba address buffer h)
  | flush => exact hend _ (ataFlush_gives _ h (by decide))

theorem run_mapped {s : Scanner} (h : Mapped s) (c : AtaCall) : Gives (c.run s) fun x => Mapped x.2 := by
  cases c with
  | scan => exact (ataScan_gives h.found).imp fun _ hx => hx.2
  | select index =>
    refine .pure ?_
    unfold ataSelectDevice
    split
    · exact h
    · rename_i hindex
      refine ⟨⟨h.found.count, h.found.present, h.found.info⟩, h.devices, ?_⟩
      show if s.devices = [] then index = -1 else 0 ≤ index ∧ index < s.devices.length
      have hany : s.devices ≠ [] := by
        rintro hnone
        rw [hnone, List.length_nil] at hindex
        omega
      rw [if_neg hany]
      omega
  | read lba address buffer => exact (request_gives h rfl).imp fun _ hx => hx.2
  | write lba address buffer => exact (request_gives h rfl).imp fun _ hx => hx.2
  | flush => exact (request_gives h rfl).imp fun _ hx => hx.2

end AtaCall

/-- Calls one after the other, from the variables as they are at first. -/
def afterCalls (address : Fin 8 → CtxAddress) (ctba : Fin 8 → UInt64) (history : List AtaCall) : ScanIo Scanner :=
  history.foldlM (fun s c => do
    let x ← c.run s
    return x.2) (Scanner.initial address ctba)

theorem afterCalls_mapped (address : Fin 8 → CtxAddress) (ctba : Fin 8 → UInt64) (history : List AtaCall) :
    Gives (afterCalls address ctba history) Mapped := by
  have hstep (s : Scanner) (c : AtaCall) (h : Mapped s) :
      Gives (c.run s >>= fun x => pure x.2) Mapped := (AtaCall.run_mapped h c).bind fun _ hx => .pure hx
  exact Gives.foldlM hstep history _ (.initial address ctba)

/-- **The device map in every state that is reached**: whatever is called, in any order, and whatever the ports
and the registers return, it has the IDE devices that are present and then the AHCI devices, in the order of
their numbers; a device is selected where there is one; and every AHCI device goes by the name and the
size that one is given which did not identify itself. -/
theorem history_mapped (address : Fin 8 → CtxAddress) (ctba : Fin 8 → UInt64) (history : List AtaCall) :
    Gives (afterCalls address ctba history) fun s =>
      s.devices = ideEntries s.toDriver (List.finRange 4) ++ ahciEntries s (List.finRange 8) ∧
      s.devices.length ≤ 12 ∧
      (if s.devices = [] then s.selected = -1 else 0 ≤ s.selected ∧ s.selected < s.devices.length) ∧
      (∀ entry ∈ s.devices, entry.source.There s.toState) ∧
      ∀ entry ∈ s.devices, entry.source.isAhci = true →
        entry.sectors28 = 0x0FFFFFFF ∧ cstr entry.model = lit "AHCI Disk" := by
  refine (afterCalls_mapped address ctba history).imp fun s h => ⟨h.devices, ?_, h.selected, fun _ => h.there, ?_⟩
  · have hide := length_ideEntries s.toDriver (List.finRange 4)
    have hahci : (ahciEntries s (List.finRange 8)).length ≤ (List.finRange 8).length := by
      rw [ahciEntries, List.length_map]
      exact List.length_filter_le ..
    rw [List.length_finRange] at hide hahci
    rw [h.devices, List.length_append]
    omega
  · intro entry he hahci
    rw [h.devices, List.mem_append] at he
    rcases he with he | he
    · obtain ⟨i, _, rfl⟩ := List.mem_map.mp he
      cases hahci
    · obtain ⟨i, hi, rfl⟩ := List.mem_map.mp he
      have hinfo := h.found.info i (by simpa using (List.mem_filter.mp hi).2)
      have hname : cstr (s.info i).model = lit "AHCI Disk" := by
        rw [hinfo]
        exact cstr_kstrcpy _ _ (by decide) (by decide)
      refine ⟨?_, ?_⟩
      · show (s.info i).sectors28 = _
        rw [hinfo]
        rfl
      · show cstr (kstrcpy _ (cstr (s.info i).model)) = _
        rw [hname]
        exact cstr_kstrcpy _ _ (by decide) (by decide)

end FurOS.Ata
