import FurOS.Disk.Bus
import FurOS.Disk.DeviceMap
import FurOS.Disk.Layers
import FurOS.Disk.Persistence

/-! The disk layer on the ports of a drive.

A program of `Disk.Layers` can be run on the driver of `Disk.Ahci`, and that on the drives of `Disk.Bus`. For an
IDE disk that is selected each operation does what a drive of `Disk.Device` may do, and no other drive is written
(`program_driven`); so whatever is called of `disk.c`, in any order, is what it is on such a drive
(`history_driven`), and what was saved through the ports is loaded through them (`saved_then_loaded`). -/
namespace FurOS
open Foundation (Follows Program)

/-! ### What the drives hold -/

/-- What the drives of a channel hold. -/
def IdeChannel.sectors (ch : IdeChannel) (slave : Bool) : Nat → Sector := (ch.drive slave).sectors

@[simp] theorem sectors_wait (ch : IdeChannel) (n : Nat) : (ch.wait n).sectors = ch.sectors := rfl

@[simp] theorem sectors_select (ch : IdeChannel) (slave : Bool) : (ch.select slave).sectors = ch.sectors := rfl

theorem sectors_modify (ch : IdeChannel) (f : IdeDrive → IdeDrive) :
    (ch.modify f).sectors = Function.update ch.sectors ch.selected (f ch.current).sectors := by
  funext slave
  exact Function.apply_update (fun _ (d : IdeDrive) => d.sectors) ch.drive ch.selected (f ch.current) slave

/-- What a drive holds stays when what is done to it is not about that. -/
theorem sectors_modify_same (ch : IdeChannel) {f : IdeDrive → IdeDrive} (h : ∀ d, (f d).sectors = d.sectors) :
    (ch.modify f).sectors = ch.sectors := by
  rw [sectors_modify, h]
  exact Function.update_eq_self ..

@[simp] theorem sectors_command (ch : IdeChannel) (c : IdeCommand) : (ch.command c).sectors = ch.sectors :=
  sectors_modify_same ch fun _ => rfl

@[simp] theorem sectors_taken (ch : IdeChannel) : (ch.modify IdeDrive.taken).sectors = ch.sectors :=
  sectors_modify_same ch fun _ => rfl

@[simp] theorem sectors_delay (ch : IdeChannel) : (ideDelay400ns ch).sectors = ch.sectors := by
  rw [ideDelay400ns_eq, sectors_wait]

theorem Waited.sectors {ch : IdeChannel} {P : Prop} {x : Option IdeError × IdeChannel} (h : Waited ch P x) :
    x.2.sectors = ch.sectors := by
  obtain ⟨o, n, rfl, -⟩ := h
  rfl

theorem Waited.selected {ch : IdeChannel} {P : Prop} {x : Option IdeError × IdeChannel} (h : Waited ch P x) :
    x.2.selected = ch.selected := by
  obtain ⟨o, n, rfl, -⟩ := h
  rfl

/-- A request selects its drive and writes nothing yet. -/
theorem ideAsk_sectors (ch : IdeChannel) (slave : Bool) (c : IdeCommand) :
    (ideAsk ch slave c).2.sectors = ch.sectors ∧
      ((ideAsk ch slave c).1 = none → (ideAsk ch slave c).2.selected = slave) := by
  have hready := (ideWaitReady_waited ch).sectors
  unfold ideAsk
  generalize ideWaitReady ch = x at hready
  obtain ⟨e, ch'⟩ := x
  cases e with
  | some e => exact ⟨hready, fun h => absurd h (Option.some_ne_none e)⟩
  | none =>
    have hdrq := ideWaitDrq_waited (ideDelay400ns ((ideDelay400ns (ch'.select slave)).command c))
    refine ⟨?_, fun _ => hdrq.selected⟩
    rw [hdrq.sectors]
    simpa using hready

namespace Ide

/-- What each device holds. -/
def sectors (s : Ide) (i : Fin 4) : Nat → Sector := (s.drive i).sectors

theorem place_injective {i j : Fin 4} (hchannel : ideChannel i = ideChannel j) (hslave : ideSlave i = ideSlave j) :
    i = j := by
  revert i j
  decide

/-- A channel of which the drive of one device may hold something else. -/
theorem sectors_setChannel (s : Ide) (i : Fin 4) {ch : IdeChannel} {held : Nat → Sector}
    (h : ch.sectors = Function.update (s.channel (ideChannel i)).sectors (ideSlave i) held) :
    (s.setChannel i ch).sectors = Function.update s.sectors i held := by
  funext j
  by_cases hij : j = i
  · subst hij
    rw [Function.update_self]
    show (Function.update s.channel (ideChannel j) ch (ideChannel j)).sectors (ideSlave j) = held
    rw [Function.update_self, h, Function.update_self]
  · rw [Function.update_of_ne hij]
    show (Function.update s.channel (ideChannel i) ch (ideChannel j)).sectors (ideSlave j) = _
    by_cases hchannel : ideChannel j = ideChannel i
    · have hslave : ideSlave j ≠ ideSlave i := fun hslave => hij (place_injective hchannel hslave)
      rw [hchannel, Function.update_self, h, Function.update_of_ne hslave, ← hchannel]
      rfl
    · rw [Function.update_of_ne hchannel]
      rfl

theorem sectors_setChannel_same (s : Ide) (i : Fin 4) {ch : IdeChannel}
    (h : ch.sectors = (s.channel (ideChannel i)).sectors) : (s.setChannel i ch).sectors = s.sectors := by
  have hheld : ch.sectors = Function.update (s.channel (ideChannel i)).sectors (ideSlave i) (s.sectors i) := by
    rw [h]
    exact (Function.update_eq_self ..).symm
  rw [s.sectors_setChannel i hheld, Function.update_eq_self]

@[simp] theorem sectors_errorOk (s : Ide) : s.errorOk.sectors = s.sectors := rfl

@[simp] theorem sectors_errorIde (s : Ide) (e : IdeError) : (s.errorIde e).sectors = s.sectors := rfl

end Ide

section Requests
variable {s : Ide} {i : Fin 4} {lba : UInt32}

theorem lba28_small (hlba : lba.toNat < 2 ^ 28) : lba28 lba = lba.toNat := Nat.mod_eq_of_lt hlba

/-- A read that succeeds gives what the device holds, and no read changes what any holds. -/
theorem ideReadSector_sectors (h : (s.device i).present = true) (hlba : lba.toNat < 2 ^ 28) (buffer : Sector) :
    (ideReadSector s i.val lba buffer).2.2.sectors = s.sectors ∧
      ((ideReadSector s i.val lba buffer).1 = 0 →
        (ideReadSector s i.val lba buffer).2.1 = s.sectors i lba.toNat) := by
  obtain ⟨o, ch, hask, -, hcurrent⟩ :=
    ideAsk_ok (s.channel (ideChannel i)) (ideSlave i) (.readSectors (lba28 lba))
  have hsectors := (ideAsk_sectors (s.channel (ideChannel i)) (ideSlave i) (.readSectors (lba28 lba))).1
  rw [hask] at hsectors
  rw [ideReadSector_eq h, hask]
  cases o with
  | some e =>
    refine ⟨s.sectors_setChannel_same i hsectors, fun hzero => ?_⟩
    cases hzero
  | none =>
    obtain ⟨n, hcurrent⟩ := hcurrent rfl
    refine ⟨?_, fun _ => ?_⟩
    · exact s.sectors_setChannel_same i ((sectors_taken ch).trans hsectors)
    · show ch.current.held = _
      rw [hcurrent, lba28_small hlba]
      rfl

/-- The bits for errors are among those of a status at rest. -/
theorem noError_masked (flags : UInt8) : NoError (flags &&& 0x7F) ↔ flags &&& (ataSrErr ||| ataSrDf) = 0 := by
  have hmask : (0x7F : UInt8) &&& (ataSrErr ||| ataSrDf) = ataSrErr ||| ataSrDf := by decide
  unfold NoError
  rw [UInt8.and_assoc, hmask]

/-- A write leaves in its sector what it was given or what was there, and no other sector of any device changes;
when it succeeds it is what it was given. -/
theorem ideWriteSector_sectors (h : (s.device i).present = true) (hlba : lba.toNat < 2 ^ 28) (buffer : Sector) :
    ∃ held, (ideWriteSector s i.val lba buffer).2.sectors =
        Function.update s.sectors i (Function.update (s.sectors i) lba.toNat held) ∧
      (held = buffer ∨ held = s.sectors i lba.toNat) ∧
      ((ideWriteSector s i.val lba buffer).1 = 0 → held = buffer) := by
  obtain ⟨o, ch, hask, -, hcurrent⟩ :=
    ideAsk_ok (s.channel (ideChannel i)) (ideSlave i) (.writeSectors (lba28 lba))
  obtain ⟨hsectors, hselected⟩ := ideAsk_sectors (s.channel (ideChannel i)) (ideSlave i) (.writeSectors (lba28 lba))
  rw [hask] at hsectors hselected
  rw [ideWriteSector_eq h, hask]
  cases o with
  | some e =>
    refine ⟨s.sectors i lba.toNat, ?_, .inr rfl, fun hzero => ?_⟩
    · rw [Function.update_eq_self, Function.update_eq_self]
      exact s.sectors_setChannel_same i hsectors
    · cases hzero
  | none =>
    obtain ⟨n, hcurrent⟩ := hcurrent rfl
    let held : Sector := if (s.drive i).next.settled &&& (ataSrErr ||| ataSrDf) = 0 then buffer
      else s.sectors i lba.toNat
    have hgiven : (ch.modify (IdeDrive.given buffer)).sectors = Function.update (s.channel (ideChannel i)).sectors
        (ideSlave i) (Function.update (s.sectors i) lba.toNat held) := by
      rw [sectors_modify, hselected rfl, hsectors, hcurrent]
      congr 1
      show (if (s.drive i).next.settled &&& (ataSrErr ||| ataSrDf) = 0 then
        Function.update (s.drive i).sectors (lba28 lba) buffer else (s.drive i).sectors) = _
      rw [lba28_small hlba]
      by_cases hsettled : (s.drive i).next.settled &&& (ataSrErr ||| ataSrDf) = 0
      · simp only [held, if_pos hsettled]
        rfl
      · simp only [held, if_neg hsettled, Function.update_eq_self]
        rfl
    have hready : ChannelReady (ch.modify (IdeDrive.given buffer)) → held = buffer := by
      rintro ⟨-, hrest⟩
      rw [IdeChannel.current_modify, hcurrent] at hrest
      exact if_pos ((noError_masked _).mp hrest)
    have hwait := ideWaitNotBusy_waited (ch.modify (IdeDrive.given buffer))
    have hkept := hwait.sectors
    obtain ⟨e, m, hend, hiff⟩ := hwait
    dsimp only
    rw [hend] at hkept ⊢
    refine ⟨held, ?_, ?_, ?_⟩
    · cases e with
      | some e => exact s.sectors_setChannel i (hkept.trans hgiven)
      | none => exact s.sectors_setChannel i (hkept.trans hgiven)
    · simp only [held]
      split
      · exact .inl rfl
      · exact .inr rfl
    · cases e with
      | some e =>
        intro hzero
        cases hzero
      | none => exact fun _ => hready (hiff.mp rfl)

/-- A flush changes nothing that is held. -/
theorem ideFlushCache_sectors (h : (s.device i).present = true) :
    (ideFlushCache s i.val).2.sectors = s.sectors := by
  have hready := (ideWaitReady_waited (s.channel (ideChannel i))).sectors
  unfold ideFlushCache
  rw [ideRequest_present h]
  dsimp only
  generalize ideWaitReady (s.channel (ideChannel i)) = x at hready
  obtain ⟨e, ch⟩ := x
  cases e with
  | some e => exact s.sectors_setChannel_same i hready
  | none =>
    have hend := (ideWaitNotBusy_waited ((ideDelay400ns (ch.select (ideSlave i))).command .flushCache)).sectors
    dsimp only
    generalize ideWaitNotBusy ((ideDelay400ns (ch.select (ideSlave i))).command .flushCache) = y at hend
    obtain ⟨e, ch'⟩ := y
    simp only [sectors_command, sectors_delay, sectors_select] at hend
    cases e with
    | some e => exact s.sectors_setChannel_same i (hend.trans hready)
    | none => exact s.sectors_setChannel_same i (hend.trans hready)

end Requests

namespace Ata

/-! ### Operations on the ports -/

/-- An operation of `disk.c` as `ata.c` does it, with its buffer at an address. -/
def perform (address : DiskOp → UInt64) : ∀ op : DiskOp, State → Io (op.Answer × State)
  | .read lba buffer, s => do
    let x ← ataReadSector s (UInt32.ofNat lba) (address (.read lba buffer)) buffer
    return ((if x.1 ≠ 0 then some x.2.2.lastError else none, x.2.1), x.2.2)
  | .write lba buffer, s => do
    let x ← ataWriteSector s (UInt32.ofNat lba) (address (.write lba buffer)) buffer
    return (if x.1 ≠ 0 then some x.2.lastError else none, x.2)
  | .flush, s => do
    let x ← ataFlush s
    return ((), x.2)

/-- The variables of `ata.c` and the drives on the bus. -/
abbrev Machine := State × Bus

/-- What each IDE device holds. -/
def heldBy (s : State) (b : Bus) : Fin 4 → Nat → Sector := (s.toDriver.onBus b).sectors

/-- An IDE disk is selected and there. -/
structure Selects (s : State) (i : Fin 4) : Prop where
  entry : ∃ entry, s.entry = some entry ∧ entry.source = .ide i
  present : (s.ide i).present = true

/-- The selected disk holds these sectors, and the others theirs. -/
structure Driven (i : Fin 4) (others : Fin 4 → Nat → Sector) (s : State) (b : Bus) (sectors : Nat → Sector) : Prop where
  selects : Selects s i
  held : heldBy s b = Function.update others i sectors

theorem Selects.driven {s : State} {i : Fin 4} (h : Selects s i) (b : Bus) :
    Driven i (heldBy s b) s b (heldBy s b i) := ⟨h, (Function.update_eq_self ..).symm⟩

/-- A request leaves the selected disk selected. -/
theorem Selects.answered {s : State} {i : Fin 4} (h : Selects s i) {driver : Driver} {status : Int}
    (ha : s.toDriver.Answered status driver) : Selects {s with toDriver := driver} i where
  entry := by
    obtain ⟨entry, he, hsource⟩ := h.entry
    refine ⟨entry, ?_, hsource⟩
    rw [← he]
    unfold State.entry
    rw [ha.devices]
  present := by
    show (driver.ide i).present = true
    rw [ha.ide]
    exact h.present

section Steps
variable {i : Fin 4} {others : Fin 4 → Nat → Sector} {s : State} {b : Bus} {sectors : Nat → Sector}
  {address : DiskOp → UInt64}

theorem toNat_lba {lba : Nat} (h : lba < 2 ^ 28) : (UInt32.ofNat lba).toNat = lba :=
  UInt32.toNat_ofNat_of_lt (Nat.lt_trans h (by decide))

theorem Driven.own (h : Driven i others s b sectors) : heldBy s b i = sectors := by
  rw [h.held, Function.update_self]

/-- What a call leaves of the drives is what its operation leaves of the selected one. -/
theorem Driven.answered (h : Driven i others s b sectors) {driver : Driver} {b' : Bus} {status : Int}
    (ha : s.toDriver.Answered status driver) {held : Nat → Sector}
    (hheld : (driver.onBus b').sectors = Function.update (heldBy s b) i held) :
    Driven i others {s with toDriver := driver} b' held where
  selects := h.selects.answered ha
  held := by
    show (driver.onBus b').sectors = _
    rw [hheld, h.held, Function.update_idem]

variable (h : Driven i others s b sectors)
include h

theorem flush_follows : ∃ s' b', Follows Bus.respond (perform address .flush s) b ((), s') b' ∧
    Driven i others s' b' sectors := by
  obtain ⟨entry, hentry, hsource⟩ := h.selects.entry
  obtain ⟨driver, b', hfollows, hend⟩ := ideFlushCache_follows s.toDriver b i.val
  have hkept := hfollows.gives (ideFlushCache_gives h.selects.present)
  have hsectors := ideFlushCache_sectors (s := s.toDriver.onBus b) (i := i) h.selects.present
  refine ⟨{s with toDriver := driver}, b', ?_, h.answered hkept ?_⟩
  · unfold perform ataFlush
    simp only [hentry, hsource]
    exact Follows.bind (a := (_, {s with toDriver := driver})) (hfollows.bind (Follows.pure _ _)) (Follows.pure _ _)
  · rw [hend, hsectors, ← h.own]
    exact (Function.update_eq_self ..).symm

variable (haddress : ∀ op, address op ≠ 0)
include haddress

theorem read_follows (lba : Nat) (hlba : lba < 2 ^ 28) (buffer : Sector) : ∃ o s' b',
    Follows Bus.respond (perform address (.read lba buffer) s) b
      ((DiskOp.step o (.read lba buffer) sectors).1, s') b' ∧
      Driven i others s' b' (DiskOp.step o (.read lba buffer) sectors).2 := by
  obtain ⟨entry, hentry, hsource⟩ := h.selects.entry
  have hpresent : ((s.toDriver.onBus b).device i).present = true := h.selects.present
  have hnat := toNat_lba hlba
  obtain ⟨driver, b', hfollows, hend⟩ := ideReadSector_follows s.toDriver b i.val (UInt32.ofNat lba)
    (haddress (.read lba buffer)) buffer
  have hkept := hfollows.gives (ideReadSector_gives h.selects.present _ (haddress _) buffer)
  obtain ⟨hsectors, hread⟩ := ideReadSector_sectors hpresent (by rwa [hnat]) buffer
  rw [hnat, show (s.toDriver.onBus b).sectors i = sectors from h.own] at hread
  generalize FurOS.ideReadSector (s.toDriver.onBus b) i.val (UInt32.ofNat lba) buffer = x
    at hfollows hend hkept hsectors hread
  have hdriven : Driven i others {s with toDriver := driver} b' sectors := h.answered hkept (by
    rw [hend, hsectors, ← h.own]
    exact (Function.update_eq_self ..).symm)
  have hperform : Follows Bus.respond (perform address (.read lba buffer) s) b
      ((if x.1 ≠ 0 then some driver.lastError else none, x.2.1), {s with toDriver := driver}) b' := by
    unfold perform ataReadSector
    simp only [hentry, hsource]
    exact Follows.bind (a := (x.1, x.2.1, {s with toDriver := driver})) (hfollows.bind (Follows.pure _ _))
      (Follows.pure _ _)
  by_cases hstatus : x.1 = 0
  · rw [if_neg (not_not.mpr hstatus), hread hstatus] at hperform
    exact ⟨.ok, _, _, hperform, hdriven⟩
  · rw [if_pos hstatus] at hperform
    exact ⟨.failed driver.lastError (some x.2.1), _, _, hperform, hdriven⟩

theorem write_follows (lba : Nat) (hlba : lba < 2 ^ 28) (buffer : Sector) : ∃ o s' b',
    Follows Bus.respond (perform address (.write lba buffer) s) b
      ((DiskOp.step o (.write lba buffer) sectors).1, s') b' ∧
      Driven i others s' b' (DiskOp.step o (.write lba buffer) sectors).2 := by
  obtain ⟨entry, hentry, hsource⟩ := h.selects.entry
  have hpresent : ((s.toDriver.onBus b).device i).present = true := h.selects.present
  have hnat := toNat_lba hlba
  obtain ⟨driver, b', hfollows, hend⟩ := ideWriteSector_follows s.toDriver b i.val (UInt32.ofNat lba)
    (haddress (.write lba buffer)) buffer
  have hkept := hfollows.gives (ideWriteSector_gives h.selects.present _ (haddress _) buffer)
  obtain ⟨held, hsectors, -, hwritten⟩ := ideWriteSector_sectors hpresent (by rwa [hnat]) buffer
  rw [hnat, show (s.toDriver.onBus b).sectors i = sectors from h.own] at hsectors
  generalize FurOS.ideWriteSector (s.toDriver.onBus b) i.val (UInt32.ofNat lba) buffer = x
    at hfollows hend hkept hsectors hwritten
  have hdriven : Driven i others {s with toDriver := driver} b' (Function.update sectors lba held) :=
    h.answered hkept (hend ▸ hsectors)
  have hperform : Follows Bus.respond (perform address (.write lba buffer) s) b
      (if x.1 ≠ 0 then some driver.lastError else none, {s with toDriver := driver}) b' := by
    unfold perform ataWriteSector
    simp only [hentry, hsource]
    exact Follows.bind (a := (x.1, {s with toDriver := driver})) (hfollows.bind (Follows.pure _ _)) (Follows.pure _ _)
  by_cases hstatus : x.1 = 0
  · rw [if_neg (not_not.mpr hstatus)] at hperform
    rw [hwritten hstatus] at hdriven
    exact ⟨.ok, _, _, hperform, hdriven⟩
  · rw [if_pos hstatus] at hperform
    exact ⟨.failed driver.lastError (some held), _, _, hperform, hdriven⟩

end Steps

/-! ### Programs on the ports -/

theorem perform_step {i : Fin 4} {others : Fin 4 → Nat → Sector} {address : DiskOp → UInt64}
    (haddress : ∀ op, address op ≠ 0) (op : DiskOp) (hop : op.Below (2 ^ 28)) (s : State) (b : Bus)
    (sectors : Nat → Sector) (h : Driven i others s b sectors) : ∃ o s' b',
    Follows Bus.respond (perform address op s) b ((DiskOp.step o op sectors).1, s') b' ∧
      Driven i others s' b' (DiskOp.step o op sectors).2 := by
  cases op with
  | read lba buffer => exact read_follows h haddress lba hop buffer
  | write lba buffer => exact write_follows h haddress lba hop buffer
  | flush =>
    obtain ⟨s', b', hfollows, hdriven⟩ := flush_follows h
    exact ⟨.ok, s', b', hfollows, hdriven⟩

/-- A new drive with these sectors whose operations end as they are chosen to. -/
def choosing (outcome : Nat → Outcome) (sectors : Nat → Sector) : Drive :=
  { sectors := sectors, ops := 0, outcome := outcome }

instance : Nonempty Outcome := ⟨.ok⟩

/-- **A program of the disk layer cannot tell the ports from a drive**: with an IDE disk selected, it does what it
does on some drive with the same sectors, and leaves the disk the sectors of that drive. -/
theorem program_driven {α : Type} {p : DiskProgram α} (hp : OnDisk p) {address : DiskOp → UInt64}
    (haddress : ∀ op, address op ≠ 0) {i : Fin 4} {others : Fin 4 → Nat → Sector} {s : State} {b : Bus}
    {sectors : Nat → Sector} (h : Driven i others s b sectors) : ∃ outcome s' b',
    Follows Bus.respond (p.perform (perform address) s) b
      ((p.run Drive.handle (choosing outcome sectors)).1, s') b' ∧
      Driven i others s' b' (p.run Drive.handle (choosing outcome sectors)).2.sectors := by
  have hnear : p.Calls (DiskOp.Below (2 ^ 28)) := hp.imp (DiskOp.Below.imp (by decide))
  obtain ⟨outcome, s', b', hfollows, hdriven⟩ :=
    Program.perform_follows (perform_step haddress) p hnear s b sectors h
  have hdrive : (fun n => (choosing outcome sectors).outcome ((choosing outcome sectors).ops + n)) = outcome :=
    funext fun n => congrArg outcome (Nat.zero_add n)
  have hrun := run_handle p (choosing outcome sectors)
  rw [hdrive] at hrun
  rw [show (choosing outcome sectors).sectors = sectors from rfl] at hrun
  rw [← hrun.1] at hfollows
  rw [← hrun.2] at hdriven
  exact ⟨outcome, s', b', hfollows, hdriven⟩

/-- One IDE disk, that is selected. -/
def oneDisk : State :=
  let driver : Driver := Driver.initial.setIde 0 {IdeDevice.absent with present := true}
  { {driver with devices := [ideEntry driver 0]} with
    ahci := fun _ => ⟨false, 0⟩
    ctx := fun _ => ⟨⟨0, 0, 0, 0⟩, .zero, 0⟩
    selected := 0 }

theorem oneDisk_selects : Selects oneDisk 0 := ⟨⟨_, rfl, rfl⟩, rfl⟩

/-- The variables of `disk.c` when a disk is selected. -/
def oneVars : DiskVars := blankDisk.vars

/-- **The calls of `disk.c`, in any order, on the ports of an IDE disk are what they are on a drive**: they return
what they would, the disk then has the sectors of that drive, and every other disk those it had. -/
theorem history_driven (history : List DiskCall) (v : DiskVars) {address : DiskOp → UInt64}
    (haddress : ∀ op, address op ≠ 0) {i : Fin 4} {s : State} (h : Selects s i) (b : Bus) : ∃ outcome s' b',
    Follows Bus.respond ((historyProgram history v).perform (perform address) s) b
      (((diskHistory history (v.on (choosing outcome (heldBy s b i)))).1,
        (diskHistory history (v.on (choosing outcome (heldBy s b i)))).2.vars), s') b' ∧
      Selects s' i ∧ heldBy s' b' = Function.update (heldBy s b) i
        (diskHistory history (v.on (choosing outcome (heldBy s b i)))).2.drive.sectors := by
  obtain ⟨outcome, s', b', hfollows, hdriven⟩ :=
    program_driven (historyProgram_calls history v) haddress (h.driven b)
  rw [historyProgram_run] at hfollows hdriven
  exact ⟨outcome, s', b', hfollows, hdriven.selects, hdriven.held⟩

theorem history_driven_formatted : ∃ outcome s' b',
    Follows Bus.respond ((historyProgram [.format, .load privateRoot] oneVars).perform (perform fun _ => 0x100000)
      oneDisk) stumblingBus
      (((diskHistory [.format, .load privateRoot] (oneVars.on (choosing outcome (heldBy oneDisk stumblingBus 0)))).1,
        (diskHistory [.format, .load privateRoot]
          (oneVars.on (choosing outcome (heldBy oneDisk stumblingBus 0)))).2.vars), s') b' ∧
      Selects s' 0 ∧ heldBy s' b' = Function.update (heldBy oneDisk stumblingBus) 0
        (diskHistory [.format, .load privateRoot]
          (oneVars.on (choosing outcome (heldBy oneDisk stumblingBus 0)))).2.drive.sectors :=
  history_driven [.format, .load privateRoot] oneVars (fun _ => by decide) oneDisk_selects stumblingBus

end Ata

/-! ### What was saved -/

theorem Saved.congr {t : Nodes} {sectors sectors' : Nat → Sector} (h : Saved t sectors)
    (hkept : ∀ lba, imageArea lba → sectors' lba = sectors lba) : Saved t sectors' where
  header := by
    have hlba : imageArea 2048 := ⟨by decide, by decide⟩
    unfold storedHeader
    rw [hkept 2048 hlba]
    exact h.header
  image := fun x => by
    have hx := x.isLt
    have hlba : imageArea (2049 + x.val / 512) := ⟨by omega, by omega⟩
    unfold storedByte
    rw [hkept _ hlba]
    exact h.image x

/-- However its reads end, a load from where a table is saved gives that table or none. -/
theorem diskLoadFs_from_saved {t : Nodes} (ht : Savable t) {d : Disk} (h : Saved t d.drive.sectors) (t' : Nodes) :
    (diskLoadFs t' d).1 = 0 ∧ (diskLoadFs t' d).2.1 = resetRoot t ∨
      (diskLoadFs t' d).1 = -1 ∧ (diskLoadFs t' d).2.1 = t' := by
  by_cases hstored : ∃ (len : Nat) (image : Fin len → UInt8), StoredImage d image
  · obtain ⟨len, image, hstored⟩ := hstored
    have hlen := hstored.length
    rw [h.header, savedHeader_payloadSize] at hlen
    subst hlen
    have himage : image = fsImage t := funext fun x => (hstored.bytes x).trans (h.image x)
    obtain ⟨hstatus, htable⟩ := diskLoadFs_stored hstored t'
    rw [himage, fsDeserialize_fsImage ht] at hstatus htable
    exact .inl ⟨hstatus, htable⟩
  · exact .inr (diskLoadFs_unstored hstored t')

namespace DiskCall

/-- A call that does not write where tables are saved. -/
def Keeps : DiskCall → Prop
  | load _ => True
  | install _ _ => True
  | _ => False

theorem Keeps.run {c : DiskCall} (h : c.Keeps) (d : Disk) {lba : Nat} (hlba : imageArea lba) :
    (c.run d).2.drive.sectors lba = d.drive.sectors lba := by
  cases c with
  | load t => exact (diskLoadFs_within t d).1.kept lba id
  | save t => exact h.elim
  | format => exact h.elim
  | install l sectors28 =>
    refine (diskInstallSystem_within l sectors28 d).kept lba fun hboot => ?_
    exact absurd hlba.1 (Nat.not_le.mpr hboot)

end DiskCall

theorem diskHistory_kept {history : List DiskCall} (h : ∀ c ∈ history, c.Keeps) (d : Disk) {lba : Nat}
    (hlba : imageArea lba) : (diskHistory history d).2.drive.sectors lba = d.drive.sectors lba := by
  induction history generalizing d with
  | nil => rfl
  | cons c history ih =>
    rw [diskHistory]
    dsimp only
    rw [ih (fun c hc => h c (List.mem_cons_of_mem _ hc)), (h c List.mem_cons_self).run d hlba]

namespace Ata

/-- **What was saved through the ports is loaded through the ports**: after a save that returns 0, and loads and
installations however they end, a load finds the table that was saved or fails and changes nothing; also
from another start, where the disk may be another of those the scan finds. -/
theorem saved_then_loaded {t : Nodes} (ht : Savable t) {between : List DiskCall} (hbetween : ∀ c ∈ between, c.Keeps)
    (v : DiskVars) {address : DiskOp → UInt64} (haddress : ∀ op, address op ≠ 0) {i : Fin 4} {s : State}
    (h : Selects s i) (b : Bus) : ∃ status rest v' s' b',
    Follows Bus.respond ((historyProgram (.save t :: between) v).perform (perform address) s) b
      ((status :: rest, v'), s') b' ∧
    (status.1 = 0 → ∀ (j : Fin 4) (s₁ : State) (b₁ : Bus), Selects s₁ j → heldBy s₁ b₁ j = heldBy s' b' i →
      ∀ (t₁ : Nodes) (v₁ : DiskVars), ∃ x s₂ b₂,
        Follows Bus.respond ((loadProgram t₁ v₁).perform (perform address) s₁) b₁ (x, s₂) b₂ ∧
        (x.1 = 0 ∧ x.2.1 = resetRoot t ∨ x.1 = -1 ∧ x.2.1 = t₁)) := by
  obtain ⟨outcome, s', b', hfollows, -, hheld⟩ := history_driven (.save t :: between) v haddress h b
  refine ⟨_, _, _, s', b', hfollows, fun hstatus j s₁ b₁ hselects hsame t₁ v₁ => ?_⟩
  obtain ⟨hsel, hok⟩ := diskSaveFs_eq_zero hstatus
  have hsaved := (diskSaveFs_ok hsel hok t).2.2
  have hafter : Saved t (heldBy s₁ b₁ j) := by
    rw [hsame, hheld, Function.update_self]
    exact hsaved.congr fun lba hlba => diskHistory_kept hbetween _ hlba
  obtain ⟨outcome₁, s₂, b₂, hload, -⟩ :=
    program_driven (loadProgram_calls t₁ v₁) haddress (hselects.driven b₁)
  rw [loadProgram_run] at hload
  exact ⟨_, s₂, b₂, hload, diskLoadFs_from_saved ht hafter t₁⟩

theorem saved_then_loaded_fsInit : ∃ status rest v' s' b',
    Follows Bus.respond ((historyProgram [.save fsInit, .load privateRoot] oneVars).perform
      (perform fun _ => 0x100000) oneDisk) stumblingBus ((status :: rest, v'), s') b' ∧
    (status.1 = 0 → ∀ (j : Fin 4) (s₁ : State) (b₁ : Bus), Selects s₁ j → heldBy s₁ b₁ j = heldBy s' b' 0 →
      ∀ (t₁ : Nodes) (v₁ : DiskVars), ∃ x s₂ b₂,
        Follows Bus.respond ((loadProgram t₁ v₁).perform (perform fun _ => 0x100000) s₁) b₁ (x, s₂) b₂ ∧
        (x.1 = 0 ∧ x.2.1 = resetRoot fsInit ∨ x.1 = -1 ∧ x.2.1 = t₁)) :=
  saved_then_loaded fsInit_savable
    (fun c (hc : c ∈ [DiskCall.load privateRoot]) => by rw [List.mem_singleton.mp hc]; trivial) oneVars
    (fun _ => by decide) oneDisk_selects stumblingBus

end Ata

end FurOS
