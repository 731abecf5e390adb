import FurOS.Disk.Ide

/-! An error on one drive stops its channel.

`ide_read_sector`, `ide_write_sector` and `ide_flush_cache` wait for the status port
before they select their drive, and take an error they see there for one of their
own. So they answer to the drive that was selected before (`ideReadSector_iff`,
`ideWriteSector_iff`): a drive that would do as it is told is not asked, as long as the
last command on the channel is one that failed (`ide_wedged_iff`). Nothing but a probe
ends that (`stuck_history`). -/
namespace FurOS

/-! ### Polling -/

@[simp] theorem IdeChannel.current_wait (n : Nat) (ch : IdeChannel) : (ch.wait n).current = ch.current.wait n := rfl

@[simp] theorem IdeDrive.rest_wait (n : Nat) (d : IdeDrive) : (d.wait n).rest = d.rest := rfl

@[simp] theorem IdeDrive.busy_wait (n : Nat) (d : IdeDrive) : (d.wait n).busy = d.busy - n := rfl

theorem IdeChannel.wait_wait (m n : Nat) (ch : IdeChannel) : (ch.wait m).wait n = ch.wait (m + n) := by
  unfold IdeChannel.wait IdeDrive.wait
  simp only [Nat.sub_sub]

theorem ideDelay400ns_eq (ch : IdeChannel) : ideDelay400ns ch = ch.wait 4 := by
  unfold ideDelay400ns IdeChannel.inbStatus
  simp only [IdeChannel.wait_wait]

/-- A wait that goes on while the drive is busy ends well when the drive gets ready in time, with a
status that is waited for. -/
theorem idePoll_eq_none_iff {verdict : UInt8 → Verdict} (hbusy : verdict ataSrBsy = .again) (timeout : CStr)
    (ch : IdeChannel) (status : UInt8) (attempts : Nat) :
    (idePoll verdict timeout ch status attempts).1 = none ↔
      ch.current.busy < attempts ∧ verdict ch.current.rest = .done := by
  induction attempts generalizing ch status with
  | zero => simp [idePoll]
  | succ attempts ih =>
    simp only [idePoll, IdeChannel.inbStatus, IdeDrive.status]
    by_cases hb : ch.current.busy > 0
    · rw [if_pos hb, hbusy]
      dsimp only
      rw [ih, IdeChannel.current_wait, IdeDrive.rest_wait, IdeDrive.busy_wait]
      exact and_congr_left fun _ => by omega
    · rw [if_neg hb]
      cases hv : verdict ch.current.rest with
      | again =>
        dsimp only
        rw [ih, IdeChannel.current_wait, IdeDrive.rest_wait, hv]
        simp
      | done => simp; omega
      | failed message => simp

/-- However a wait ends, only time has passed. -/
theorem idePoll_wait (verdict : UInt8 → Verdict) (timeout : CStr) (ch : IdeChannel) (status : UInt8)
    (attempts : Nat) : ∃ n, (idePoll verdict timeout ch status attempts).2 = ch.wait n := by
  induction attempts generalizing ch status with
  | zero => exact ⟨0, rfl⟩
  | succ attempts ih =>
    simp only [idePoll, IdeChannel.inbStatus]
    split
    · obtain ⟨n, hn⟩ := ih (ch.wait 1) ch.current.status
      exact ⟨1 + n, by rw [hn, IdeChannel.wait_wait]⟩
    · exact ⟨1, rfl⟩
    · exact ⟨1, rfl⟩

/-- A wait that succeeded exactly when `P`, or not; only time has passed. -/
def Waited (ch : IdeChannel) (P : Prop) (x : Option IdeError × IdeChannel) : Prop :=
  ∃ o n, x = (o, ch.wait n) ∧ (o = none ↔ P)

theorem ideWait_waited {verdict : UInt8 → Verdict} (hbusy : verdict ataSrBsy = .again) (timeout : CStr)
    (ch : IdeChannel) {P : UInt8 → Prop} (hdone : ∀ flags, verdict (flags &&& 0x7F) = .done ↔ P (flags &&& 0x7F)) :
    Waited ch (ch.current.busy < ataPollAttempts + 4 ∧ P ch.current.rest) (ideWait verdict timeout ch) := by
  have hpos : 0 < ataPollAttempts := by decide
  obtain ⟨n, hn⟩ := idePoll_wait verdict timeout (ideDelay400ns ch) 0 ataPollAttempts
  have hnone := idePoll_eq_none_iff hbusy timeout (ideDelay400ns ch) 0 ataPollAttempts
  rw [ideDelay400ns_eq, IdeChannel.wait_wait] at hn
  rw [ideDelay400ns_eq, IdeChannel.current_wait, IdeDrive.busy_wait, IdeDrive.rest_wait] at hnone
  unfold ideWait
  rw [ideDelay400ns_eq]
  refine ⟨_, 4 + n, Prod.ext rfl hn, hnone.trans ?_⟩
  have hlast : verdict ch.current.rest = .done ↔ P ch.current.rest := hdone _
  rw [hlast]
  exact and_congr_left fun _ => by omega

/-! ### What is waited for -/

/-- No error shows in the status. -/
def NoError (status : UInt8) : Prop := status &&& (ataSrErr ||| ataSrDf) = 0

instance (status : UInt8) : Decidable (NoError status) := inferInstanceAs (Decidable (_ = _))

/-- The data of a command can be transferred. -/
def Offers (status : UInt8) : Prop := NoError status ∧ status &&& ataSrDrq ≠ 0

instance (status : UInt8) : Decidable (Offers status) := inferInstanceAs (Decidable (_ ∧ _))

theorem not_busy_masked (flags : UInt8) : (flags &&& 0x7F) &&& ataSrBsy = 0 := by
  have hmask : (0x7F : UInt8) &&& ataSrBsy = 0 := by decide
  rw [UInt8.and_assoc, hmask, UInt8.and_zero]

theorem idleVerdict_done_iff (message : CStr) (flags : UInt8) :
    idleVerdict message (flags &&& 0x7F) = .done ↔ NoError (flags &&& 0x7F) := by
  unfold idleVerdict NoError
  rw [if_pos (not_busy_masked flags)]
  by_cases h : (flags &&& 0x7F) &&& (ataSrErr ||| ataSrDf) = 0
  · simp [h]
  · simp [h]

theorem noError_iff (status : UInt8) : NoError status ↔ status &&& ataSrErr = 0 ∧ status &&& ataSrDf = 0 := by
  have hsplit : status &&& (ataSrErr ||| ataSrDf) = status &&& ataSrErr ||| status &&& ataSrDf := by
    rw [← UInt8.toBitVec_inj]
    simp only [UInt8.toBitVec_and, UInt8.toBitVec_or]
    rw [BitVec.and_or_distrib_left]
  unfold NoError
  rw [hsplit, UInt8.or_eq_zero_iff]

theorem drqVerdict_done_iff (flags : UInt8) : drqVerdict (flags &&& 0x7F) = .done ↔ Offers (flags &&& 0x7F) := by
  unfold drqVerdict Offers
  rw [noError_iff]
  by_cases herr : (flags &&& 0x7F) &&& ataSrErr = 0
  · by_cases hdf : (flags &&& 0x7F) &&& ataSrDf = 0
    · by_cases hdrq : (flags &&& 0x7F) &&& ataSrDrq = 0
      · simp [herr, hdf, hdrq]
      · simp [herr, hdf, hdrq, not_busy_masked]
    · simp [herr, hdf]
  · simp [herr]

/-! ### Requests -/

/-- The selected drive gets ready in time and shows no error. -/
def ChannelReady (ch : IdeChannel) : Prop := ch.current.busy < ataPollAttempts + 4 ∧ NoError ch.current.rest

theorem ideWaitReady_waited (ch : IdeChannel) : Waited ch (ChannelReady ch) (ideWaitReady ch) :=
  ideWait_waited rfl _ ch (idleVerdict_done_iff _)

theorem ideWaitNotBusy_waited (ch : IdeChannel) : Waited ch (ChannelReady ch) (ideWaitNotBusy ch) :=
  ideWait_waited rfl _ ch (idleVerdict_done_iff _)

/-- The selected drive gets ready in time and offers its data. -/
def Offering (ch : IdeChannel) : Prop := ch.current.busy < ataPollAttempts + 4 ∧ Offers ch.current.rest

theorem ideWaitDrq_waited (ch : IdeChannel) : Waited ch (Offering ch) (ideWaitDrq ch) :=
  ideWait_waited rfl _ ch drqVerdict_done_iff

@[simp] theorem IdeChannel.current_modify (f : IdeDrive → IdeDrive) (ch : IdeChannel) :
    (ch.modify f).current = f ch.current := Function.update_self ..

/-- A drive that was selected and sent a command, whatever time has passed before. -/
theorem asked_current (ch : IdeChannel) (n : Nat) (slave : Bool) (c : IdeCommand) :
    ((ideDelay400ns ((ch.wait n).select slave)).command c).current = (ch.drive slave).command c := by
  unfold IdeChannel.command
  rw [IdeChannel.current_modify, ideDelay400ns_eq]
  rfl

theorem ideRequest_present {s : Ide} {i : Fin 4} (h : (s.device i).present = true) (invalid : CStr) :
    ideRequest s (i.val : Int) invalid = .ok i := by
  unfold ideRequest
  rw [ideIndex_ofNat]
  simp [h]

/-- What a drive does as it is told: it answers in time and offers its data. -/
def Obeys (a : IdeAnswer) : Prop := a.busy < ataPollAttempts + 8 ∧ Offers (a.ending &&& 0x7F)

/-- What reads and writes begin with: the wait, the selection, the command and the wait for data. -/
def ideAsk (ch : IdeChannel) (slave : Bool) (c : IdeCommand) : Option IdeError × IdeChannel :=
  match ideWaitReady ch with
  | (some e, ch) => (some e, ch)
  | (none, ch) => ideWaitDrq (ideDelay400ns ((ideDelay400ns (ch.select slave)).command c))

/-- **A drive is asked when the one selected before it is ready, without an error.** -/
theorem ideAsk_ok (ch : IdeChannel) (slave : Bool) (c : IdeCommand) :
    ∃ o ch', ideAsk ch slave c = (o, ch') ∧ (o = none ↔ ChannelReady ch ∧ Obeys (ch.drive slave).next) ∧
      (o = none → ∃ n, ch'.current = ((ch.drive slave).command c).wait n) := by
  obtain ⟨ready, n, hready, hreadyIff⟩ := ideWaitReady_waited ch
  unfold ideAsk
  rw [hready]
  cases ready with
  | some e =>
    have hno : ¬ ChannelReady ch := fun hyes => absurd (hreadyIff.mpr hyes) (by simp)
    exact ⟨some e, _, rfl, by simp [hno], by simp⟩
  | none =>
    have hyes := hreadyIff.mp rfl
    dsimp only
    have hcurrent := asked_current ch n slave c
    generalize (ideDelay400ns ((ch.wait n).select slave)).command c = asked at hcurrent
    obtain ⟨offer, m, hoffer, hofferIff⟩ := ideWaitDrq_waited (ideDelay400ns asked)
    rw [ideDelay400ns_eq] at hoffer hofferIff ⊢
    refine ⟨offer, _, hoffer, ?_, fun _ => ⟨4 + m, ?_⟩⟩
    · have hoffering : Offering (asked.wait 4) ↔ Obeys (ch.drive slave).next := by
        unfold Offering Obeys
        rw [IdeChannel.current_wait, hcurrent, IdeDrive.busy_wait, IdeDrive.rest_wait]
        exact and_congr_left fun _ => by simp only [IdeDrive.command]; omega
      rw [hofferIff, hoffering]
      exact ⟨fun h => ⟨hyes, h⟩, fun h => h.2⟩
    · rw [IdeChannel.wait_wait, IdeChannel.current_wait, hcurrent]

theorem ideRequest_ok {s : Ide} {index : Int} {invalid : CStr} {i : Fin 4}
    (h : ideRequest s index invalid = .ok i) :
    ideIndex index = some i ∧ (s.device i).present = true := by
  unfold ideRequest at h
  split at h
  · cases h
  · split at h
    · cases h
    · rename_i hi hpresent
      cases h
      exact ⟨hi, by simpa using hpresent⟩

section Present
variable {s : Ide} {i : Fin 4} (h : (s.device i).present = true)
include h

theorem ideReadSector_eq (lba : UInt32) (buffer : Sector) : ideReadSector s (i.val : Int) lba buffer =
    match ideAsk (s.channel (ideChannel i)) (ideSlave i) (.readSectors (lba28 lba)) with
    | (some e, ch) => (-1, buffer, (s.setChannel i ch).errorIde e)
    | (none, ch) => (0, ch.current.held, (s.setChannel i (ch.modify IdeDrive.taken)).errorOk) := by
  unfold ideReadSector ideAsk
  rw [ideRequest_present h]
  dsimp only
  cases ideWaitReady (s.channel (ideChannel i)) with
  | mk ready ch =>
    cases ready with
    | some e => rfl
    | none => rfl

theorem ideWriteSector_eq (lba : UInt32) (buffer : Sector) : ideWriteSector s (i.val : Int) lba buffer =
    match ideAsk (s.channel (ideChannel i)) (ideSlave i) (.writeSectors (lba28 lba)) with
    | (some e, ch) => (-1, (s.setChannel i ch).errorIde e)
    | (none, ch) =>
      match ideWaitNotBusy (ch.modify (IdeDrive.given buffer)) with
      | (some e, ch) => (-1, (s.setChannel i ch).errorIde e)
      | (none, ch) => (0, (s.setChannel i ch).errorOk) := by
  unfold ideWriteSector ideAsk
  rw [ideRequest_present h]
  dsimp only
  cases ideWaitReady (s.channel (ideChannel i)) with
  | mk ready ch =>
    cases ready with
    | some e => rfl
    | none => rfl

/-- A read returns 0 when its drive is asked and obeys. -/
theorem ideReadSector_iff (lba : UInt32) (buffer : Sector) :
    (ideReadSector s (i.val : Int) lba buffer).1 = 0 ↔
      ChannelReady (s.channel (ideChannel i)) ∧ Obeys (s.drive i).next := by
  obtain ⟨o, ch, hask, hiff, _⟩ := ideAsk_ok (s.channel (ideChannel i)) (ideSlave i) (.readSectors (lba28 lba))
  have hdrive : ChannelReady (s.channel (ideChannel i)) ∧ Obeys (s.drive i).next ↔ o = none := hiff.symm
  rw [ideReadSector_eq h, hask, hdrive]
  cases o with
  | some e => simp
  | none => simp

/-- What a drive does with the data of a write: it settles in time, without an error. -/
def Settles (a : IdeAnswer) : Prop := a.settle < ataPollAttempts + 4 ∧ NoError (a.settled &&& 0x7F)

/-- A write returns 0 when its drive is asked, obeys and settles. -/
theorem ideWriteSector_iff (lba : UInt32) (buffer : Sector) :
    (ideWriteSector s (i.val : Int) lba buffer).1 = 0 ↔
      ChannelReady (s.channel (ideChannel i)) ∧ Obeys (s.drive i).next ∧ Settles (s.drive i).next := by
  obtain ⟨o, ch, hask, hiff, hafter⟩ :=
    ideAsk_ok (s.channel (ideChannel i)) (ideSlave i) (.writeSectors (lba28 lba))
  have hdrive : ChannelReady (s.channel (ideChannel i)) ∧ Obeys (s.drive i).next ↔ o = none := hiff.symm
  rw [ideWriteSector_eq h, hask, ← and_assoc, hdrive]
  cases o with
  | some e => simp
  | none =>
    obtain ⟨n, hcurrent⟩ := hafter rfl
    obtain ⟨settled, m, hsettled, hsettledIff⟩ := ideWaitNotBusy_waited (ch.modify (IdeDrive.given buffer))
    have hready : ChannelReady (ch.modify (IdeDrive.given buffer)) ↔ Settles (s.drive i).next := by
      unfold ChannelReady
      rw [IdeChannel.current_modify, hcurrent]
      rfl
    dsimp only
    rw [hsettled, ← hready, ← hsettledIff]
    cases settled with
    | some e => simp
    | none => simp

end Present

/-! ### Histories -/

/-- What a history of calls leaves. -/
def ideAfter (s : Ide) (history : List IdeCall) : Ide := history.foldl IdeCall.run s

/-- An idle drive whose next command, a read, will end without an error. -/
def WouldRead (d : IdeDrive) : Prop := d.busy = 0 ∧ Offers (d.next.ending &&& 0x7F)

instance (d : IdeDrive) : Decidable (WouldRead d) := inferInstanceAs (Decidable (_ ∧ _))

/-- An idle drive whose next command, a write, will end without an error. -/
def WouldWrite (d : IdeDrive) : Prop := WouldRead d ∧ NoError (d.next.settled &&& 0x7F)

instance (d : IdeDrive) : Decidable (WouldWrite d) := inferInstanceAs (Decidable (_ ∧ _))

/-- **A drive that would do as it is told is read and written exactly when the drive selected before
it is ready and shows no error**, and it answers in time, after any history of calls. -/
theorem ide_wedged_iff (start : Ide) (history : List IdeCall) (i : Fin 4)
    (hpresent : ((ideAfter start history).device i).present = true)
    (hread : WouldRead ((ideAfter start history).drive i)) (lba : UInt32) (buffer : Sector) :
    ((ideReadSector (ideAfter start history) (i.val : Int) lba buffer).1 = 0 ↔
      ChannelReady ((ideAfter start history).channel (ideChannel i)) ∧
        ((ideAfter start history).drive i).next.busy < ataPollAttempts + 8) ∧
    (WouldWrite ((ideAfter start history).drive i) →
      ((ideWriteSector (ideAfter start history) (i.val : Int) lba buffer).1 = 0 ↔
        ChannelReady ((ideAfter start history).channel (ideChannel i)) ∧
          ((ideAfter start history).drive i).next.busy < ataPollAttempts + 8 ∧
          ((ideAfter start history).drive i).next.settle < ataPollAttempts + 4)) := by
  have hoffers := hread.2
  refine ⟨?_, fun hwrite => ?_⟩
  · rw [ideReadSector_iff hpresent]
    exact and_congr_right fun _ => and_iff_left hoffers
  · have hsettles := hwrite.2
    rw [ideWriteSector_iff hpresent]
    refine and_congr_right fun _ => and_congr ?_ ?_
    · exact and_iff_left hoffers
    · exact and_iff_left hsettles

/-- A drive that is never busy and fails these of its commands. -/
def promptDrive (fails : Nat → Bool) : IdeDrive where
  busy := 0
  flags := 0x50
  error := 0
  received := 0
  answer := fun n =>
    { busy := 0
      ending := if fails n then 0x51 else 0x58
      settle := 0
      settled := 0x50
      error := if fails n then 0x40 else 0 }
  doing := .identify
  signature := (0, 0)
  identity := fun _ => 0
  sectors := fun _ _ => 0

/-- Such drives, before any is looked for; the masters fail their second command. -/
def stumblingIde : Ide where
  device := fun _ => .absent
  channel := fun _ =>
    { selected := false
      drive := fun slave => promptDrive fun n => !slave && n = 1 }
  lastError := .ofLit "ok"
  lastStatus := 0
  lastErrorReg := 0

/-- Both drives of a channel found, and a sector of the first that could not be read. -/
def failedRead : List IdeCall := [.probe 0, .probe 1, .read 0 7 fun _ => 0]

/-- A drive that would be read and written, and is neither. -/
def Refused (s : Ide) (i : Fin 4) : Prop :=
  (s.device i).present = true ∧ WouldWrite (s.drive i) ∧
    (ideReadSector s (i.val : Int) 8 fun _ => 0).1 = -1 ∧ (ideWriteSector s (i.val : Int) 8 fun _ => 0).1 = -1

instance (s : Ide) (i : Fin 4) : Decidable (Refused s i) := inferInstanceAs (Decidable (_ ∧ _))

/-- After that neither the drive nor its neighbour is read or written. -/
theorem ide_wedged :
    Refused (ideAfter stumblingIde failedRead) 0 ∧ Refused (ideAfter stumblingIde failedRead) 1 := by
  decide

/-- Before it the neighbour is. -/
theorem ide_wedged_iff_probed :
    ((ideReadSector (ideAfter stumblingIde [.probe 0, .probe 1]) 1 8 fun _ => 0).1 = 0 ↔
      ChannelReady ((ideAfter stumblingIde [.probe 0, .probe 1]).channel 0) ∧
        ((ideAfter stumblingIde [.probe 0, .probe 1]).drive 1).next.busy < ataPollAttempts + 8) ∧
    (WouldWrite ((ideAfter stumblingIde [.probe 0, .probe 1]).drive 1) →
      ((ideWriteSector (ideAfter stumblingIde [.probe 0, .probe 1]) 1 8 fun _ => 0).1 = 0 ↔
        ChannelReady ((ideAfter stumblingIde [.probe 0, .probe 1]).channel 0) ∧
          ((ideAfter stumblingIde [.probe 0, .probe 1]).drive 1).next.busy < ataPollAttempts + 8 ∧
          ((ideAfter stumblingIde [.probe 0, .probe 1]).drive 1).next.settle < ataPollAttempts + 4)) :=
  ide_wedged_iff stumblingIde [.probe 0, .probe 1] 1 (by decide) (by decide) 8 fun _ => 0

/-! ### What ends it -/

/-- A call that probes a device of the channel. -/
def IdeCall.probes (k : Fin 2) : IdeCall → Prop
  | probe index => ∃ i, ideIndex index = some i ∧ ideChannel i = k
  | _ => False

/-- What a call returns. -/
def IdeCall.status (s : Ide) : IdeCall → Int
  | probe index => (ideProbeDevice s index).1
  | read index lba buffer => (ideReadSector s index lba buffer).1
  | write index lba buffer => (ideWriteSector s index lba buffer).1
  | flush index => (ideFlushCache s index).1

/-- The device a call is about. -/
def IdeCall.index : IdeCall → Int
  | probe index => index
  | read index _ _ => index
  | write index _ _ => index
  | flush index => index

theorem Ide.channel_setChannel {s : Ide} {i : Fin 4} {k : Fin 2} (hk : k ≠ ideChannel i) (ch : IdeChannel) :
    (s.setChannel i ch).channel k = s.channel k := Function.update_of_ne hk _ _

section Histories
variable {s : Ide} {k : Fin 2}

/-- A call touches the channel of its device only. -/
theorem IdeCall.run_other (c : IdeCall) (hk : ∀ i, ideIndex c.index = some i → k ≠ ideChannel i) :
    (c.run s).channel k = s.channel k := by
  cases c with
  | probe index =>
    show (ideProbeDevice s index).2.channel k = _
    unfold ideProbeDevice
    cases hi : ideIndex index with
    | none => rfl
    | some i =>
      have hki := hk i hi
      dsimp only
      split
      · exact Ide.channel_setChannel hki _
      split
      · exact Ide.channel_setChannel hki _
      unfold ideIdentify
      split
      · exact Ide.channel_setChannel hki _
      · exact Ide.channel_setChannel hki _
  | read index lba buffer =>
    show (ideReadSector s index lba buffer).2.2.channel k = _
    unfold ideReadSector
    split
    · rfl
    rename_i i hi
    have hki := hk i (ideRequest_ok hi).1
    split
    · exact Ide.channel_setChannel hki _
    dsimp only
    split
    · exact Ide.channel_setChannel hki _
    · exact Ide.channel_setChannel hki _
  | write index lba buffer =>
    show (ideWriteSector s index lba buffer).2.channel k = _
    unfold ideWriteSector
    split
    · rfl
    rename_i i hi
    have hki := hk i (ideRequest_ok hi).1
    split
    · exact Ide.channel_setChannel hki _
    dsimp only
    split
    · exact Ide.channel_setChannel hki _
    split
    · exact Ide.channel_setChannel hki _
    · exact Ide.channel_setChannel hki _
  | flush index =>
    show (ideFlushCache s index).2.channel k = _
    unfold ideFlushCache
    split
    · rfl
    rename_i i hi
    have hki := hk i (ideRequest_ok hi).1
    split
    · exact Ide.channel_setChannel hki _
    dsimp only
    split
    · exact Ide.channel_setChannel hki _
    · exact Ide.channel_setChannel hki _

/-- Where the selected drive is not ready, a call other than a probe fails and lets time pass. -/
theorem IdeCall.run_not_ready (c : IdeCall) (hc : ¬ c.probes k) (hno : ¬ ChannelReady (s.channel k)) {i : Fin 4}
    (hi : ideIndex c.index = some i) (hk : ideChannel i = k) :
    c.status s = -1 ∧ ∃ n, (c.run s).channel k = (s.channel k).wait n := by
  obtain ⟨o, n, hwait, hiff⟩ := ideWaitReady_waited (s.channel (ideChannel i))
  have hset : ∀ e, (((s.setChannel i ((s.channel (ideChannel i)).wait n)).errorIde e).channel k) =
      (s.channel k).wait n := fun e => by
    rw [← hk]
    exact Function.update_self ..
  rw [hk] at hiff
  cases o with
  | none => exact absurd (hiff.mp rfl) hno
  | some e =>
    have hsame : ∃ n, s.channel k = (s.channel k).wait n := ⟨0, rfl⟩
    cases c with
    | probe index => exact absurd ⟨i, hi, hk⟩ hc
    | read index lba buffer =>
      show (ideReadSector s index lba buffer).1 = -1 ∧ ∃ n, (ideReadSector s index lba buffer).2.2.channel k = _
      unfold ideReadSector
      split
      · exact ⟨rfl, hsame⟩
      · rename_i j hj
        have hij : j = i := Option.some.inj ((ideRequest_ok hj).1.symm.trans hi)
        rw [hij, hwait]
        exact ⟨rfl, n, hset e⟩
    | write index lba buffer =>
      show (ideWriteSector s index lba buffer).1 = -1 ∧ ∃ n, (ideWriteSector s index lba buffer).2.channel k = _
      unfold ideWriteSector
      split
      · exact ⟨rfl, hsame⟩
      · rename_i j hj
        have hij : j = i := Option.some.inj ((ideRequest_ok hj).1.symm.trans hi)
        rw [hij, hwait]
        exact ⟨rfl, n, hset e⟩
    | flush index =>
      show (ideFlushCache s index).1 = -1 ∧ ∃ n, (ideFlushCache s index).2.channel k = _
      unfold ideFlushCache
      split
      · exact ⟨rfl, hsame⟩
      · rename_i j hj
        have hij : j = i := Option.some.inj ((ideRequest_ok hj).1.symm.trans hi)
        rw [hij, hwait]
        exact ⟨rfl, n, hset e⟩

/-- An error in the status of the selected drive. -/
def Stuck (s : Ide) (k : Fin 2) : Prop := ¬ NoError (s.channel k).current.rest

theorem Stuck.not_ready (h : Stuck s k) : ¬ ChannelReady (s.channel k) := fun hready => h hready.2

/-- No call but a probe ends it. -/
theorem Stuck.run (h : Stuck s k) {c : IdeCall} (hc : ¬ c.probes k) : Stuck (c.run s) k := by
  by_cases hi : ∃ i, ideIndex c.index = some i ∧ ideChannel i = k
  · obtain ⟨i, hi, hk⟩ := hi
    obtain ⟨_, n, hn⟩ := c.run_not_ready hc h.not_ready hi hk
    unfold Stuck
    rw [hn]
    exact h
  · unfold Stuck
    rw [c.run_other fun i hi' hk => hi ⟨i, hi', hk.symm⟩]
    exact h

/-- **An error in the status of the selected drive stays there**, and every read, write and flush on
the channel fails, until one of its devices is probed. -/
theorem stuck_history (h : Stuck s k) (history : List IdeCall) (hno : ∀ c ∈ history, ¬ c.probes k) (c : IdeCall)
    (hc : ¬ c.probes k) {i : Fin 4} (hi : ideIndex c.index = some i) (hk : ideChannel i = k) :
    Stuck (ideAfter s history) k ∧ c.status (ideAfter s history) = -1 := by
  have hstuck : Stuck (ideAfter s history) k := by
    induction history generalizing s with
    | nil => exact h
    | cons first rest ih =>
      exact ih (h.run (hno first List.mem_cons_self)) fun c hc => hno c (List.mem_cons_of_mem _ hc)
  exact ⟨hstuck, (c.run_not_ready hc hstuck.not_ready hi hk).1⟩

end Histories

end FurOS
