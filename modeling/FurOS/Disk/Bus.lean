import FurOS.Foundation.Served
import FurOS.Foundation.Updates
import FurOS.Disk.Addressing
import FurOS.Disk.Wedge

/-! The ports of the drives.

`Disk.Ide` has the driver and its drives as one machine, and `Disk.Ports` the driver alone, down to its
accesses. Here are the drives alone, behind their ports: the registers are decoded, a write of the command
port is a command for what they hold, and the data of a command go through one port, a word at a time.
The driver of `Disk.Ports` on this bus is the machine of `Disk.Ide`, call by call and so over
any history (`history_follows`). -/
namespace FurOS.Ata
open Foundation (Metered Responder Follows)

/-! ### Registers -/

/-- The registers of a channel, with the one for both status and command and the one beside them. -/
inductive PortReg where
  | data
  | error
  | seccount
  | lba0
  | lba1
  | lba2
  | hddevsel
  | command
  | control
  deriving DecidableEq

namespace PortReg

/-- The place behind `io_base`. -/
def offset : PortReg → UInt16
  | data => 0
  | error => 1
  | seccount => 2
  | lba0 => 3
  | lba1 => 4
  | lba2 => 5
  | hddevsel => 6
  | command => 7
  | control => 0x206

def all : List PortReg := [data, error, seccount, lba0, lba1, lba2, hddevsel, command, control]

end PortReg

/-- `io_base` of the devices on a channel. -/
def channelBase (c : Fin 2) : UInt16 := if c.val = 0 then 0x1F0 else 0x170

/-- The channel and the register that a port is for. -/
def portReg (port : UInt16) : Option (Fin 2 × PortReg) :=
  (List.finRange 2).findSome? fun c =>
    (PortReg.all.find? fun reg => channelBase c + reg.offset = port).map fun reg => (c, reg)

theorem portReg_offset (i : Fin 4) (reg : PortReg) :
    portReg (ideBase i + reg.offset) = some (ideChannel i, reg) := by
  unfold ideBase ideChannel
  split <;> cases reg <;> rfl

theorem portReg_base (i : Fin 4) : portReg (ideBase i) = some (ideChannel i, .data) := by
  unfold ideBase ideChannel
  split <;> rfl

/-- What a command is for, by the registers when it is sent; reads and writes are for one sector. -/
def TaskFile.task (r : TaskFile) (command : UInt8) : Option IdeCommand :=
  if command = 0xEC then some .identify
  else if command = 0xE7 then some .flushCache
  else if r.seccount = 1 ∧ r.lbaMode then
    if command = 0x20 then some (.readSectors r.lba)
    else if command = 0x30 then some (.writeSectors r.lba)
    else none
  else none

/-! ### A channel -/

/-- A channel behind its ports: its drives, what its registers were last written, and the data that came
since the last command, with the number of words that were moved. -/
structure IdePorts where
  channel : IdeChannel
  file : TaskFile
  moved : Nat
  data : Sector

/-- The words that a drive has for a read of the data port. -/
def offered (d : IdeDrive) (k : Fin 256) : UInt16 :=
  match d.doing with
  | .identify => d.identity k
  | _ => wordAt d.held k

namespace IdePorts

/-- A byte read. A status takes time; `IDENTIFY` leaves a signature where the address was. -/
def inb (p : IdePorts) : PortReg → UInt8 × IdePorts
  | .command => (p.channel.current.status, {p with channel := p.channel.wait 1})
  | .control => (p.channel.current.status, {p with channel := p.channel.wait 1})
  | .error => (p.channel.current.error, p)
  | .seccount => (p.file.seccount, p)
  | .lba0 => (p.file.lba0, p)
  | .lba1 =>
    match p.channel.current.doing with
    | .identify => (p.channel.current.signature.1, p)
    | _ => (p.file.lba1, p)
  | .lba2 =>
    match p.channel.current.doing with
    | .identify => (p.channel.current.signature.2, p)
    | _ => (p.file.lba2, p)
  | .hddevsel => (p.file.hddevsel, p)
  | .data => (0xFF, p)

/-- A command as it is taken: its data are still to come. -/
def sent (p : IdePorts) (c : IdeCommand) : IdePorts := {p with channel := p.channel.command c, moved := 0}

/-- A write of the command port: nothing happens with a command that is none. -/
def send (p : IdePorts) (command : UInt8) : IdePorts :=
  match p.file.task command with
  | some c => p.sent c
  | none => p

/-- A byte written. -/
def outb (p : IdePorts) (value : UInt8) : PortReg → IdePorts
  | .seccount => {p with file := {p.file with seccount := value}}
  | .lba0 => {p with file := {p.file with lba0 := value}}
  | .lba1 => {p with file := {p.file with lba1 := value}}
  | .lba2 => {p with file := {p.file with lba2 := value}}
  | .hddevsel =>
    let file := {p.file with hddevsel := value}
    {p with file := file, channel := p.channel.select file.slave}
  | .command => p.send value
  | _ => p

/-- One word more; with the last of them the drive goes on. -/
def move (p : IdePorts) (done : IdeDrive → IdeDrive) : IdePorts :=
  {p with
    moved := p.moved + 1
    channel := if p.moved + 1 = 256 then p.channel.modify done else p.channel}

/-- A word read. -/
def inw (p : IdePorts) : UInt16 × IdePorts :=
  if h : p.moved < 256 then (offered p.channel.current ⟨p.moved, h⟩, p.move IdeDrive.taken) else (0xFFFF, p)

/-- A word written. -/
def outw (p : IdePorts) (value : UInt16) : IdePorts :=
  if h : p.moved < 256 then
    let data := putWord p.data ⟨p.moved, h⟩ value
    {p with data := data}.move (IdeDrive.given data)
  else p

end IdePorts

/-! ### Both channels -/

abbrev Bus := Fin 2 → IdePorts

namespace Bus

/-- What the drives answer, and what an access leaves of them. -/
def respond : Responder Access UInt32 Bus := fun b access =>
  match access with
  | .inb port =>
    match portReg port with
    | some (c, reg) => (((b c).inb reg).1.toUInt32, Function.update b c ((b c).inb reg).2)
    | none => (0xFF, b)
  | .outb port value =>
    match portReg port with
    | some (c, reg) => (0, Function.update b c ((b c).outb value reg))
    | none => (0, b)
  | .inw port =>
    match portReg port with
    | some (c, .data) => ((b c).inw.1.toUInt32, Function.update b c (b c).inw.2)
    | _ => (0xFFFF, b)
  | .outw port value =>
    match portReg port with
    | some (c, .data) => (0, Function.update b c ((b c).outw value))
    | _ => (0, b)
  | .load _ _ => (0, b)
  | .store _ _ _ => (0, b)

/-- The bus with the channel of a device as it is here. -/
def withPorts (b : Bus) (i : Fin 4) (p : IdePorts) : Bus := Function.update b (ideChannel i) p

theorem withPorts_self (b : Bus) (i : Fin 4) : b.withPorts i (b (ideChannel i)) = b := Function.update_eq_self ..

@[simp] theorem withPorts_channel (b : Bus) (i : Fin 4) (p : IdePorts) : b.withPorts i p (ideChannel i) = p :=
  Function.update_self ..

@[simp] theorem update_withPorts (b : Bus) (i : Fin 4) (p q : IdePorts) :
    Function.update (b.withPorts i p) (ideChannel i) q = b.withPorts i q := Function.update_idem ..

end Bus

/-! ### Accesses of the driver -/

section Accesses
variable (b : Bus) (i : Fin 4) (p : IdePorts)

theorem respond_inb (reg : PortReg) : Bus.respond (b.withPorts i p) (.inb (ideBase i + reg.offset)) =
    ((p.inb reg).1.toUInt32, b.withPorts i (p.inb reg).2) := by
  simp [Bus.respond, portReg_offset]

theorem inb_follows (reg : PortReg) : Follows Bus.respond (inb (ideBase i + reg.offset)) (b.withPorts i p)
    (p.inb reg).1 (b.withPorts i (p.inb reg).2) := by
  have hask : Follows Bus.respond (inb (ideBase i + reg.offset)) (b.withPorts i p) _ _ :=
    Follows.ask_pure _ _ UInt32.toUInt8
  rwa [respond_inb, UInt8.toUInt8_toUInt32] at hask

theorem outb_follows (reg : PortReg) (value : UInt8) :
    Follows Bus.respond (outb (ideBase i + reg.offset) value) (b.withPorts i p) ()
      (b.withPorts i (p.outb value reg)) := by
  have hrespond : (Bus.respond (b.withPorts i p) (.outb (ideBase i + reg.offset) value)).2 =
      b.withPorts i (p.outb value reg) := by
    simp [Bus.respond, portReg_offset]
  rw [← hrespond]
  exact Follows.tell _ _

theorem ioWait_follows : Follows Bus.respond ioWait b () b := Follows.tell _ b

theorem inw_follows : Follows Bus.respond (inw (ideBase i)) (b.withPorts i p) p.inw.1 (b.withPorts i p.inw.2) := by
  have hrespond : Bus.respond (b.withPorts i p) (.inw (ideBase i)) =
      (p.inw.1.toUInt32, b.withPorts i p.inw.2) := by
    simp [Bus.respond, portReg_base]
  have hask : Follows Bus.respond (inw (ideBase i)) (b.withPorts i p) _ _ :=
    Follows.ask_pure _ _ UInt32.toUInt16
  rwa [hrespond, UInt16.toUInt16_toUInt32] at hask

theorem outw_follows (value : UInt16) : Follows Bus.respond (outw (ideBase i) value) (b.withPorts i p) ()
    (b.withPorts i (p.outw value)) := by
  have hrespond : (Bus.respond (b.withPorts i p) (.outw (ideBase i) value)).2 = b.withPorts i (p.outw value) := by
    simp [Bus.respond, portReg_base]
  rw [← hrespond]
  exact Follows.tell _ _

end Accesses

/-! ### Waits -/

section Waits
variable (b : Bus) (i : Fin 4) (p : IdePorts)

/-- The ports with other drives. -/
def IdePorts.drives (p : IdePorts) (ch : IdeChannel) : IdePorts := {p with channel := ch}

theorem ideDelay400ns_follows : Follows Bus.respond (ideDelay400ns (ideBase i)) (b.withPorts i p) ()
    (b.withPorts i (p.drives (FurOS.ideDelay400ns p.channel))) := by
  have hinb (p : IdePorts) := inb_follows b i p .control
  exact (hinb p).bind ((hinb _).bind ((hinb _).bind ((hinb _).bind (Follows.pure () _))))

theorem errorIde_follows (message : CStr) (status : UInt8) :
    Follows Bus.respond (errorIde message (ideBase i) status) (b.withPorts i p)
      ⟨message, status, p.channel.current.error⟩ (b.withPorts i p) :=
  (inb_follows b i p .error).bind (Follows.pure _ _)

theorem idePoll_follows (verdict : UInt8 → Verdict) (timeout : CStr) (status : UInt8) (attempts : Nat) :
    Follows Bus.respond (idePoll verdict timeout (ideBase i) status attempts) (b.withPorts i p)
      (FurOS.idePoll verdict timeout p.channel status attempts).1
      (b.withPorts i (p.drives (FurOS.idePoll verdict timeout p.channel status attempts).2)) := by
  induction attempts generalizing p status with
  | zero => exact (errorIde_follows b i p timeout status).bind (Follows.pure _ _)
  | succ attempts ih =>
    rw [FurOS.idePoll]
    dsimp only [IdeChannel.inbStatus]
    refine (inb_follows b i p .command).bind ?_
    dsimp only [IdePorts.inb]
    cases verdict p.channel.current.status with
    | again => exact (ioWait_follows _).bind (ih (p.drives (p.channel.wait 1)) p.channel.current.status)
    | done => exact Follows.pure _ _
    | failed message =>
      exact (errorIde_follows b i (p.drives (p.channel.wait 1)) message _).bind (Follows.pure _ _)

theorem ideWait_follows (verdict : UInt8 → Verdict) (timeout : CStr) :
    Follows Bus.respond (ideWait verdict timeout (ideBase i)) (b.withPorts i p)
      (FurOS.ideWait verdict timeout p.channel).1
      (b.withPorts i (p.drives (FurOS.ideWait verdict timeout p.channel).2)) :=
  (ideDelay400ns_follows b i p).bind
    (idePoll_follows b i (p.drives (FurOS.ideDelay400ns p.channel)) verdict timeout 0 ataPollAttempts)

section Outcomes
variable {e : Option IdeError} {ch : IdeChannel}

theorem ideWaitReady_follows (h : FurOS.ideWaitReady p.channel = (e, ch)) :
    Follows Bus.respond (ideWaitReady (ideBase i)) (b.withPorts i p) e (b.withPorts i (p.drives ch)) := by
  have hwait := ideWait_follows b i p (idleVerdict (.ofLit "IDE ready wait error")) (.ofLit "IDE ready timeout")
  rw [FurOS.ideWaitReady] at h
  rwa [h] at hwait

theorem ideWaitDrq_follows (h : FurOS.ideWaitDrq p.channel = (e, ch)) :
    Follows Bus.respond (ideWaitDrq (ideBase i)) (b.withPorts i p) e (b.withPorts i (p.drives ch)) := by
  have hwait := ideWait_follows b i p drqVerdict (.ofLit "IDE DRQ timeout")
  rw [FurOS.ideWaitDrq] at h
  rwa [h] at hwait

theorem ideWaitNotBusy_follows (h : FurOS.ideWaitNotBusy p.channel = (e, ch)) :
    Follows Bus.respond (ideWaitNotBusy (ideBase i)) (b.withPorts i p) e (b.withPorts i (p.drives ch)) := by
  have hwait := ideWait_follows b i p (idleVerdict (.ofLit "IDE completion error")) (.ofLit "IDE completion timeout")
  rw [FurOS.ideWaitNotBusy] at h
  rwa [h] at hwait

/-- A loop or a wait is not for another command. -/
theorem doing_ideWhileBusy (status : UInt8) (ch : IdeChannel) (n : Nat) :
    (ideWhileBusy status ch n).2.current.doing = ch.current.doing := by
  induction n generalizing status ch with
  | zero => rfl
  | succ n ih =>
    rw [ideWhileBusy]
    split
    · exact ih ch.current.status (ch.wait 1)
    · rfl

theorem doing_ideWaitDrq {ch₀ : IdeChannel} (h : FurOS.ideWaitDrq ch₀ = (e, ch)) :
    ch.current.doing = ch₀.current.doing := by
  obtain ⟨o, n, hwaited, -⟩ := ideWaitDrq_waited ch₀
  rw [h] at hwaited
  cases hwaited
  rfl

end Outcomes

/-- A status shows `BSY` exactly for a drive that is busy. -/
theorem status_busy_iff (d : IdeDrive) : d.status &&& ataSrBsy ≠ 0 ↔ 0 < d.busy := by
  unfold IdeDrive.status
  split
  · rename_i hbusy
    exact ⟨fun _ => hbusy, fun _ => by decide⟩
  · rename_i hidle
    exact ⟨fun h => absurd (not_busy_masked d.flags) h, fun h => absurd h hidle⟩

/-- The loop of a probe, on a drive that is busy for fewer reads than the loop is given. -/
theorem inbWhile_follows (status : UInt8) (n : Nat)
    (hn : status &&& ataSrBsy ≠ 0 → p.channel.current.busy < n) :
    Follows Bus.respond (inbWhile (ideBase i + 7) (fun status => status &&& ataSrBsy ≠ 0) status)
      (b.withPorts i p) (ideWhileBusy status p.channel n).1
      (b.withPorts i (p.drives (ideWhileBusy status p.channel n).2)) := by
  have hloop : Follows Bus.respond
      (Metered.askWhile (.inb (ideBase i + 7)) (fun value => decide (value.toUInt8 &&& ataSrBsy ≠ 0))
        status.toUInt32) (b.withPorts i p) (ideWhileBusy status p.channel n).1.toUInt32
      (b.withPorts i (p.drives (ideWhileBusy status p.channel n).2)) := by
    induction n generalizing p status with
    | zero =>
      refine Follows.askWhile_stop (decide_eq_false ?_)
      rw [UInt8.toUInt8_toUInt32]
      exact fun hbusy => absurd (hn hbusy) (Nat.not_lt_zero _)
    | succ n ih =>
      rw [ideWhileBusy]
      split
      · rename_i hbusy
        refine Follows.askWhile_step (decide_eq_true (by rwa [UInt8.toUInt8_toUInt32])) ?_
        change Follows Bus.respond (Metered.askWhile _ _ (Bus.respond _ (.inb (ideBase i + PortReg.command.offset))).1)
          (Bus.respond _ (.inb (ideBase i + PortReg.command.offset))).2 _ _
        rw [respond_inb]
        refine ih (p.drives (p.channel.wait 1)) p.channel.current.status fun hstill => ?_
        have hpos := (status_busy_iff p.channel.current).mp hstill
        have hlt := hn hbusy
        show p.channel.current.busy - 1 < n
        omega
      · rename_i hidle
        refine Follows.askWhile_stop (decide_eq_false ?_)
        rwa [UInt8.toUInt8_toUInt32]
  have hall : Follows Bus.respond (inbWhile (ideBase i + 7) (fun status => status &&& ataSrBsy ≠ 0) status)
    (b.withPorts i p) (ideWhileBusy status p.channel n).1.toUInt32.toUInt8 _ := hloop.bind (Follows.pure _ _)
  rwa [UInt8.toUInt8_toUInt32] at hall

end Waits

/-! ### Commands and their data -/

/-- The registers say what the command is for. -/
theorem taskFile_task (i : Fin 4) (lba : UInt32) :
    (taskFile i lba).task 0x20 = some (.readSectors (lba28 lba)) ∧
      (taskFile i lba).task 0x30 = some (.writeSectors (lba28 lba)) := by
  have haddr := taskFile_addresses i lba 0x20
  have hone : (taskFile i lba).seccount = 1 ∧ (taskFile i lba).lbaMode = true := ⟨rfl, haddr.lbaMode⟩
  unfold TaskFile.task
  rw [taskFile_lba]
  exact ⟨if_pos hone, if_pos hone⟩

section Commands
variable (b : Bus) (i : Fin 4) (p : IdePorts)

/-- The ports after a command for a sector. -/
def IdePorts.commanded (p : IdePorts) (i : Fin 4) (lba : UInt32) (c : IdeCommand) : IdePorts :=
  {p with
    channel := FurOS.ideDelay400ns ((FurOS.ideDelay400ns (p.channel.select (ideSlave i))).command c)
    file := taskFile i lba
    moved := 0}

/-- The ports with the drive of a device selected. -/
def IdePorts.selected (p : IdePorts) (i : Fin 4) : IdePorts :=
  {p with
    channel := FurOS.ideDelay400ns (p.channel.select (ideSlave i))
    file := {p.file with hddevsel := (0xA0 : UInt8) ||| (slaveBit i <<< 4)}}

/-- The selection that a command without an address begins with. -/
theorem select_follows {α : Type} {g : Unit → Io α} {a : α} {u : Bus}
    (h : Follows Bus.respond (g ()) (b.withPorts i (p.selected i)) a u) :
    Follows Bus.respond
      (outb (ideBase i + 6) ((0xA0 : UInt8) ||| (slaveBit i <<< 4)) >>= fun _ => ideDelay400ns (ideBase i) >>= g)
      (b.withPorts i p) a u := by
  have hbit : ((0xA0 : UInt8) ||| (slaveBit i <<< 4)).toNat.testBit 4 = ideSlave i := by
    unfold slaveBit
    cases ideSlave i <;> decide
  have hslave : TaskFile.slave {p.file with hddevsel := (0xA0 : UInt8) ||| (slaveBit i <<< 4)} = ideSlave i := hbit
  refine (outb_follows b i p .hddevsel _).bind ?_
  refine (ideDelay400ns_follows b i _).bind ?_
  simp only [IdePorts.outb, hslave]
  exact h

theorem outb_flush (p : IdePorts) : p.outb 0xE7 .command = p.sent .flushCache := rfl

/-- The ports when `IDENTIFY` was sent and its first status was read. -/
def IdePorts.identifying (p : IdePorts) (i : Fin 4) : IdePorts :=
  let q := p.selected i
  let q := {q with file := {q.file with seccount := 0, lba0 := 0, lba1 := 0, lba2 := 0}}.sent .identify
  q.drives (q.channel.wait 1)

/-- `IDENTIFY` as it is sent, and its first status. -/
theorem identify_follows {α : Type} {g : UInt8 → Io α} {a : α} {u : Bus}
    (h : Follows Bus.respond (g (((b (ideChannel i)).selected i).sent .identify).channel.current.status)
      (b.withPorts i ((b (ideChannel i)).identifying i)) a u) :
    Follows Bus.respond (do
      outb (ideBase i + 6) ((0xA0 : UInt8) ||| (slaveBit i <<< 4))
      ideDelay400ns (ideBase i)
      outb (ideBase i + 2) 0
      outb (ideBase i + 3) 0
      outb (ideBase i + 4) 0
      outb (ideBase i + 5) 0
      outb (ideBase i + 7) 0xEC
      let status ← inb (ideBase i + 7)
      g status : Io α) b a u := by
  have houtb (p : IdePorts) (reg : PortReg) (value : UInt8) := outb_follows b i p reg value
  have hstart : b = b.withPorts i (b (ideChannel i)) := (b.withPorts_self i).symm
  generalize b (ideChannel i) = p at h hstart
  rw [hstart]
  refine select_follows b i p ?_
  refine (houtb (p.selected i) .seccount 0).bind ?_
  refine (houtb _ .lba0 0).bind ?_
  refine (houtb _ .lba1 0).bind ?_
  refine (houtb _ .lba2 0).bind ?_
  refine (houtb _ .command 0xEC).bind ?_
  exact (inb_follows b i _ .command).bind h

/-- What `IDENTIFY` leaves where the address was. -/
theorem inb_signature {p : IdePorts} (hdoing : p.channel.current.doing = .identify) :
    p.inb .lba1 = (p.channel.current.signature.1, p) ∧ p.inb .lba2 = (p.channel.current.signature.2, p) := by
  unfold IdePorts.inb
  dsimp only
  rw [hdoing]
  exact ⟨rfl, rfl⟩

theorem commanded_doing (lba : UInt32) (c : IdeCommand) : (p.commanded i lba c).channel.current.doing = c := by
  unfold IdePorts.commanded
  rw [ideDelay400ns_eq, IdeChannel.current_wait, IdeChannel.command, IdeChannel.current_modify]
  rfl

theorem ideCommand_follows {lba : UInt32} {command : UInt8} {c : IdeCommand}
    (hc : (taskFile i lba).task command = some c) :
    Follows Bus.respond (ideCommand i lba command) (b.withPorts i p) () (b.withPorts i (p.commanded i lba c)) := by
  have houtb (p : IdePorts) (reg : PortReg) (value : UInt8) := outb_follows b i p reg value
  have hslave : TaskFile.slave {p.file with hddevsel := (taskFile i lba).hddevsel} = ideSlave i :=
    (taskFile_addresses i lba command).slave
  have hsend (p : IdePorts) (h : p.file = taskFile i lba) : p.outb command .command = p.sent c := by
    show p.send command = _
    rw [IdePorts.send, h, hc]
  refine (houtb p .hddevsel (taskFile i lba).hddevsel).bind ?_
  refine (ideDelay400ns_follows b i _).bind ?_
  refine (houtb _ .seccount 1).bind ?_
  refine (houtb _ .lba0 (taskFile i lba).lba0).bind ?_
  refine (houtb _ .lba1 (taskFile i lba).lba1).bind ?_
  refine (houtb _ .lba2 (taskFile i lba).lba2).bind ?_
  refine (houtb _ .command command).bind ?_
  rw [hsend _ rfl]
  have hdelay := ideDelay400ns_follows b i
    { p with
      channel := (FurOS.ideDelay400ns (p.channel.select (ideSlave i))).command c
      file := taskFile i lba
      moved := 0 }
  simp only [IdePorts.outb, hslave]
  exact hdelay

/-- The ports when `n` words of a command were moved. -/
def IdePorts.movedTo (p : IdePorts) (done : IdeDrive → IdeDrive) (n : Nat) : IdePorts :=
  {p with
    moved := n
    channel := if n = 256 then p.channel.modify done else p.channel}

theorem movedTo_zero {p : IdePorts} (done : IdeDrive → IdeDrive) (hp : p.moved = 0) : p.movedTo done 0 = p := by
  unfold IdePorts.movedTo
  rw [if_neg (by decide), ← hp]

/-- One word more. -/
theorem move_movedTo (p : IdePorts) (done done' : IdeDrive → IdeDrive) (k : Fin 256) :
    (p.movedTo done k.val).move done' = p.movedTo done' (k.val + 1) := by
  have hk : k.val ≠ 256 := Nat.ne_of_lt k.isLt
  unfold IdePorts.movedTo IdePorts.move
  simp only [if_neg hk]

/-- A word that a drive is asked for. -/
theorem movedTo_inw (p : IdePorts) (k : Fin 256) : (p.movedTo IdeDrive.taken k.val).inw =
    (offered p.channel.current k, p.movedTo IdeDrive.taken (k.val + 1)) := by
  have hk : k.val ≠ 256 := Nat.ne_of_lt k.isLt
  have hlt : (p.movedTo IdeDrive.taken k.val).moved < 256 := k.isLt
  rw [IdePorts.inw, dif_pos hlt, move_movedTo]
  simp only [IdePorts.movedTo, if_neg hk]

/-- A loop over the words that a drive offers. -/
theorem inwLoop_follows {α : Type} (step : α → Fin 256 → UInt16 → α) (a : α) (hp : p.moved = 0) :
    Follows Bus.respond
      ((List.finRange 256).foldlM (fun a k => inw (ideBase i) >>= fun word => pure (step a k word)) a : Io α)
      (b.withPorts i p) ((List.finRange 256).foldl (fun a k => step a k (offered p.channel.current k)) a)
      (b.withPorts i (p.movedTo IdeDrive.taken 256)) := by
  have hround (a : α) (k : Fin 256) : Follows Bus.respond
      (inw (ideBase i) >>= fun word => pure (step a k word) : Io α)
      (b.withPorts i (p.movedTo IdeDrive.taken k.val)) (step a k (offered p.channel.current k))
      (b.withPorts i (p.movedTo IdeDrive.taken (k.val + 1))) := by
    have hinw := inw_follows b i (p.movedTo IdeDrive.taken k.val)
    rw [movedTo_inw] at hinw
    exact hinw.bind (Follows.pure _ _)
  have hloop := Follows.foldlM_finRange (fun n => b.withPorts i (p.movedTo IdeDrive.taken n)) hround a
  rwa [movedTo_zero _ hp] at hloop

/-- The words of a sector put in a buffer, one after the other, are the sector. -/
theorem foldl_putWord (data buffer : Sector) :
    (List.finRange 256).foldl (fun buffer k => putWord buffer k (wordAt data k)) buffer = data := by
  have hall := Foundation.foldl_stores (P := fun k buffer => HoldsWord buffer k (wordAt data k))
    (fun buffer k => putWord_holds buffer k (wordAt data k))
    (fun buffer k j hj h => h.congr (putWord_other buffer _ hj).1 (putWord_other buffer _ hj).2)
    (List.finRange 256) buffer
  exact eq_of_holdsWord (fun k => hall k (List.mem_finRange k)) (holdsWord_wordAt data)

theorem foldl_update (word old : Fin 256 → UInt16) :
    (List.finRange 256).foldl (fun identify k => Function.update identify k (word k)) old = word := by
  have hall := Foundation.foldl_stores (P := fun k (identify : Fin 256 → UInt16) => identify k = word k)
    (fun _ _ => Function.update_self ..) (fun _ _ _ hj h => (Function.update_of_ne hj ..).trans h)
    (List.finRange 256) old
  exact funext fun k => hall k (List.mem_finRange k)

theorem readWords_follows (buffer : Sector) (hp : p.moved = 0) {l : Nat}
    (hdoing : p.channel.current.doing = .readSectors l) :
    Follows Bus.respond (readWords (ideBase i) buffer) (b.withPorts i p) p.channel.current.held
      (b.withPorts i (p.movedTo IdeDrive.taken 256)) := by
  have hword (k : Fin 256) : offered p.channel.current k = wordAt p.channel.current.held k := by
    unfold offered
    rw [hdoing]
  have hloop := inwLoop_follows b i p putWord buffer hp
  simp only [hword, foldl_putWord] at hloop
  exact hloop

theorem readIdentify_follows (identify : Fin 256 → UInt16) (hp : p.moved = 0)
    (hdoing : p.channel.current.doing = .identify) :
    Follows Bus.respond (readIdentify (ideBase i) identify) (b.withPorts i p) p.channel.current.identity
      (b.withPorts i (p.movedTo IdeDrive.taken 256)) := by
  have hword (k : Fin 256) : offered p.channel.current k = p.channel.current.identity k := by
    unfold offered
    rw [hdoing]
  have hloop := inwLoop_follows b i p Function.update identify hp
  simp only [hword, foldl_update] at hloop
  exact hloop

/-- A sector written, a word at a time. -/
theorem writeWords_follows (buffer : Sector) (hp : p.moved = 0) :
    Follows Bus.respond (writeWords (ideBase i) buffer) (b.withPorts i p) ()
      (b.withPorts i ({p with data := buffer}.movedTo (IdeDrive.given buffer) 256)) := by
  let stored (n : Nat) : Sector :=
    ((List.finRange 256).take n).foldl (fun data k => putWord data k (wordAt buffer k)) p.data
  let st (n : Nat) : IdePorts := {p with data := stored n}.movedTo (IdeDrive.given (stored n)) n
  have hnext (k : Fin 256) : putWord (stored k.val) k (wordAt buffer k) = stored (k.val + 1) := by
    have hlt : k.val < (List.finRange 256).length := by
      rw [List.length_finRange]
      exact k.isLt
    simp only [stored, List.take_succ_eq_append_getElem hlt, List.foldl_append, List.foldl_cons, List.foldl_nil,
      List.getElem_finRange]
    rfl
  have hword (k : Fin 256) : (st k.val).outw (wordAt buffer k) = st (k.val + 1) := by
    have hlt : (st k.val).moved < 256 := k.isLt
    have hput : putWord (st k.val).data ⟨(st k.val).moved, hlt⟩ (wordAt buffer k) = stored (k.val + 1) := hnext k
    rw [IdePorts.outw, dif_pos hlt, hput]
    exact move_movedTo {p with data := stored (k.val + 1)} _ _ k
  have hround (_ : Unit) (k : Fin 256) : Follows Bus.respond (outw (ideBase i) (wordAt buffer k))
      (b.withPorts i (st k.val)) () (b.withPorts i (st (k.val + 1))) := by
    rw [← hword]
    exact outw_follows b i (st k.val) (wordAt buffer k)
  have hloop := Follows.foldlM_finRange (fun n => b.withPorts i (st n)) hround ()
  have hzero : st 0 = p := movedTo_zero _ hp
  have hall : stored 256 = buffer := by
    simp only [stored, List.take_of_length_le (Nat.le_of_eq List.length_finRange), foldl_putWord]
  have hend : st 256 = {p with data := buffer}.movedTo (IdeDrive.given buffer) 256 := by
    simp only [st, hall]
  rw [hzero, hend] at hloop
  exact hloop

end Commands

/-! ### Calls -/

/-- The driver and the drives as the machine of `Disk.Ide`. -/
def Driver.onBus (s : Driver) (b : Bus) : Ide :=
  { device := fun i => (s.ide i).toIdeDevice
    channel := fun c => (b c).channel
    lastError := s.lastError
    lastStatus := s.lastStatus
    lastErrorReg := s.lastErrorReg }

theorem onBus_withPorts (s : Driver) (b : Bus) (i : Fin 4) (p : IdePorts) :
    s.onBus (b.withPorts i p) = (s.onBus b).setChannel i p.channel := by
  unfold Driver.onBus Ide.setChannel Bus.withPorts
  congr 1
  funext c
  exact Function.apply_update (fun _ (q : IdePorts) => q.channel) b (ideChannel i) p c

theorem onBus_setIde (s : Driver) (b : Bus) (i : Fin 4) (dev : IdeDevice) :
    (s.setIde i dev).onBus b =
      {s.onBus b with device := Function.update (s.onBus b).device i dev.toIdeDevice} := by
  unfold Driver.onBus Driver.setIde
  congr 1
  funext j
  exact Function.apply_update (fun _ (d : IdeDevice) => d.toIdeDevice) s.ide i dev j

/-- With a buffer at an address, a request is refused for the same reasons. -/
theorem ideRequest_onBus (s : Driver) (b : Bus) (index : Int) {address : UInt64} (haddress : address ≠ 0)
    (invalid : CStr) : ideRequest s index address invalid = FurOS.ideRequest (s.onBus b) index invalid := by
  unfold ideRequest FurOS.ideRequest
  cases ideIndex index with
  | none => rfl
  | some i => exact if_neg haddress

section Calls
variable (s : Driver) (b : Bus) (index : Int) (lba : UInt32)

theorem ideReadSector_follows {address : UInt64} (haddress : address ≠ 0) (buffer : Sector) : ∃ s' b',
    Follows Bus.respond (ideReadSector s index lba address buffer) b
      ((FurOS.ideReadSector (s.onBus b) index lba buffer).1,
        (FurOS.ideReadSector (s.onBus b) index lba buffer).2.1, s') b' ∧
      s'.onBus b' = (FurOS.ideReadSector (s.onBus b) index lba buffer).2.2 := by
  unfold ideReadSector FurOS.ideReadSector
  rw [ideRequest_onBus s b index haddress]
  cases FurOS.ideRequest (s.onBus b) index (.ofLit "IDE invalid read request") with
  | error message => exact ⟨_, b, Follows.pure _ _, rfl⟩
  | ok i =>
    dsimp only
    generalize hready : FurOS.ideWaitReady ((s.onBus b).channel (ideChannel i)) = x
    obtain ⟨e, ch⟩ := x
    have hfirst := ideWaitReady_follows b i (b (ideChannel i)) hready
    rw [Bus.withPorts_self] at hfirst
    cases e with
    | some e =>
      refine ⟨_, _, hfirst.bind (Follows.pure _ _), ?_⟩
      exact congrArg (Ide.errorIde · e) (onBus_withPorts s b i _)
    | none =>
      dsimp only
      generalize hdrq : FurOS.ideWaitDrq (FurOS.ideDelay400ns
        ((FurOS.ideDelay400ns (ch.select (ideSlave i))).command (.readSectors (lba28 lba)))) = y
      obtain ⟨e, ch'⟩ := y
      have hcommand := ideCommand_follows b i ((b (ideChannel i)).drives ch) (taskFile_task i lba).1
      let p := ((b (ideChannel i)).drives ch).commanded i lba (.readSectors (lba28 lba))
      have hsecond := ideWaitDrq_follows b i p hdrq
      cases e with
      | some e =>
        refine ⟨_, _, hfirst.bind (hcommand.bind (hsecond.bind (Follows.pure _ _))), ?_⟩
        exact congrArg (Ide.errorIde · e) (onBus_withPorts s b i _)
      | none =>
        have hdoing := (doing_ideWaitDrq hdrq).trans
          (commanded_doing i ((b (ideChannel i)).drives ch) lba (.readSectors (lba28 lba)))
        have hdata := readWords_follows b i (p.drives ch') buffer rfl hdoing
        refine ⟨_, _, hfirst.bind (hcommand.bind (hsecond.bind (hdata.bind (Follows.pure _ _)))), ?_⟩
        exact congrArg Ide.errorOk (onBus_withPorts s b i _)

theorem ideWriteSector_follows {address : UInt64} (haddress : address ≠ 0) (buffer : Sector) : ∃ s' b',
    Follows Bus.respond (ideWriteSector s index lba address buffer) b
      ((FurOS.ideWriteSector (s.onBus b) index lba buffer).1, s') b' ∧
      s'.onBus b' = (FurOS.ideWriteSector (s.onBus b) index lba buffer).2 := by
  unfold ideWriteSector FurOS.ideWriteSector
  rw [ideRequest_onBus s b index haddress]
  cases FurOS.ideRequest (s.onBus b) index (.ofLit "IDE invalid write request") with
  | error message => exact ⟨_, b, Follows.pure _ _, rfl⟩
  | ok i =>
    dsimp only
    generalize hready : FurOS.ideWaitReady ((s.onBus b).channel (ideChannel i)) = x
    obtain ⟨e, ch⟩ := x
    have hfirst := ideWaitReady_follows b i (b (ideChannel i)) hready
    rw [Bus.withPorts_self] at hfirst
    cases e with
    | some e =>
      refine ⟨_, _, hfirst.bind (Follows.pure _ _), ?_⟩
      exact congrArg (Ide.errorIde · e) (onBus_withPorts s b i _)
    | none =>
      dsimp only
      generalize hdrq : FurOS.ideWaitDrq (FurOS.ideDelay400ns
        ((FurOS.ideDelay400ns (ch.select (ideSlave i))).command (.writeSectors (lba28 lba)))) = y
      obtain ⟨e, ch'⟩ := y
      have hcommand := ideCommand_follows b i ((b (ideChannel i)).drives ch) (taskFile_task i lba).2
      let p := ((b (ideChannel i)).drives ch).commanded i lba (.writeSectors (lba28 lba))
      have hsecond := ideWaitDrq_follows b i p hdrq
      cases e with
      | some e =>
        refine ⟨_, _, hfirst.bind (hcommand.bind (hsecond.bind (Follows.pure _ _))), ?_⟩
        exact congrArg (Ide.errorIde · e) (onBus_withPorts s b i _)
      | none =>
        have hdata := writeWords_follows b i (p.drives ch') buffer rfl
        dsimp only
        generalize hsettled : FurOS.ideWaitNotBusy (ch'.modify (IdeDrive.given buffer)) = z
        obtain ⟨e, ch''⟩ := z
        let q : IdePorts := {p.drives ch' with data := buffer}
        have hthird := ideWaitNotBusy_follows b i (q.movedTo (IdeDrive.given buffer) 256) hsettled
        cases e with
        | some e =>
          refine ⟨_, _, hfirst.bind (hcommand.bind (hsecond.bind (hdata.bind (hthird.bind (Follows.pure _ _))))), ?_⟩
          exact congrArg (Ide.errorIde · e) (onBus_withPorts s b i _)
        | none =>
          refine ⟨_, _, hfirst.bind (hcommand.bind (hsecond.bind (hdata.bind (hthird.bind (Follows.pure _ _))))), ?_⟩
          exact congrArg Ide.errorOk (onBus_withPorts s b i _)

theorem ideFlushCache_follows : ∃ s' b',
    Follows Bus.respond (ideFlushCache s index) b ((FurOS.ideFlushCache (s.onBus b) index).1, s') b' ∧
      s'.onBus b' = (FurOS.ideFlushCache (s.onBus b) index).2 := by
  unfold ideFlushCache FurOS.ideFlushCache FurOS.ideRequest
  cases ideIndex index with
  | none => exact ⟨_, b, Follows.pure _ _, rfl⟩
  | some i =>
    dsimp only
    have hpresent : ((s.onBus b).device i).present = (s.ide i).present := rfl
    rw [hpresent]
    cases (s.ide i).present with
    | false => exact ⟨_, b, Follows.pure _ _, rfl⟩
    | true =>
      simp only [Bool.not_true, Bool.false_eq_true, if_false]
      generalize hready : FurOS.ideWaitReady ((s.onBus b).channel (ideChannel i)) = x
      obtain ⟨e, ch⟩ := x
      have hfirst := ideWaitReady_follows b i (b (ideChannel i)) hready
      rw [Bus.withPorts_self] at hfirst
      cases e with
      | some e =>
        refine ⟨_, _, hfirst.bind (Follows.pure _ _), ?_⟩
        exact congrArg (Ide.errorIde · e) (onBus_withPorts s b i _)
      | none =>
        dsimp only
        generalize hsettled : FurOS.ideWaitNotBusy
          ((FurOS.ideDelay400ns (ch.select (ideSlave i))).command .flushCache) = y
        obtain ⟨e, ch'⟩ := y
        let p : IdePorts := ((b (ideChannel i)).drives ch).selected i
        have hcommand := outb_follows b i p .command 0xE7
        rw [outb_flush] at hcommand
        have hsecond := ideWaitNotBusy_follows b i (p.sent .flushCache) hsettled
        cases e with
        | some e =>
          refine ⟨_, _, hfirst.bind (select_follows b i _ (hcommand.bind (hsecond.bind (Follows.pure _ _)))), ?_⟩
          exact congrArg (Ide.errorIde · e) (onBus_withPorts s b i _)
        | none =>
          refine ⟨_, _, hfirst.bind (select_follows b i _ (hcommand.bind (hsecond.bind (Follows.pure _ _)))), ?_⟩
          exact congrArg Ide.errorOk (onBus_withPorts s b i _)

theorem ideIdentify_follows (i : Fin 4) (p : IdePorts) (hp : p.moved = 0)
    (hdoing : p.channel.current.doing = .identify) : ∃ s' b',
    Follows Bus.respond (ideIdentify s i) (b.withPorts i p)
      ((FurOS.ideIdentify (s.onBus b) i p.channel).1, s') b' ∧
      s'.onBus b' = (FurOS.ideIdentify (s.onBus b) i p.channel).2 := by
  unfold ideIdentify FurOS.ideIdentify
  generalize hdrq : FurOS.ideWaitDrq p.channel = x
  obtain ⟨e, ch⟩ := x
  have hwait := ideWaitDrq_follows b i p hdrq
  cases e with
  | some e =>
    refine ⟨_, _, hwait.bind (Follows.pure _ _), ?_⟩
    exact congrArg (Ide.errorIde · e) (onBus_withPorts s b i _)
  | none =>
    have hdata := readIdentify_follows b i (p.drives ch) (s.ide i).identify hp
      ((doing_ideWaitDrq hdrq).trans hdoing)
    refine ⟨_, _, hwait.bind (hdata.bind (Follows.pure _ _)), ?_⟩
    rw [onBus_setIde, onBus_withPorts]
    rfl

/-- What a probe does after its loop. -/
theorem signature_follows (i : Fin 4) (p : IdePorts) (hp : p.moved = 0)
    (hdoing : p.channel.current.doing = .identify) : ∃ s' b',
    Follows Bus.respond (do
      let lba1 ← inb (ideBase i + 4)
      let lba2 ← inb (ideBase i + 5)
      if lba1 ≠ 0 ∨ lba2 ≠ 0 then return (-1, s) else ideIdentify s i : Io (Int × Driver)) (b.withPorts i p)
      ((if p.channel.current.signature.1 ≠ 0 ∨ p.channel.current.signature.2 ≠ 0 then
        (-1, (s.onBus b).setChannel i p.channel) else FurOS.ideIdentify (s.onBus b) i p.channel).1, s') b' ∧
      s'.onBus b' = (if p.channel.current.signature.1 ≠ 0 ∨ p.channel.current.signature.2 ≠ 0 then
        (-1, (s.onBus b).setChannel i p.channel) else FurOS.ideIdentify (s.onBus b) i p.channel).2 := by
  obtain ⟨hlba1, hlba2⟩ := inb_signature hdoing
  have hread1 := inb_follows b i p .lba1
  have hread2 := inb_follows b i p .lba2
  rw [hlba1] at hread1
  rw [hlba2] at hread2
  by_cases hsignature : p.channel.current.signature.1 ≠ 0 ∨ p.channel.current.signature.2 ≠ 0
  · rw [if_pos hsignature]
    refine ⟨s, b.withPorts i p, hread1.bind (hread2.bind ?_), onBus_withPorts s b i p⟩
    exact (if_pos hsignature).symm ▸ Follows.pure _ _
  · rw [if_neg hsignature]
    obtain ⟨s', b', hrun, hend⟩ := ideIdentify_follows s b i p hp hdoing
    refine ⟨s', b', hread1.bind (hread2.bind ?_), hend⟩
    exact (if_neg hsignature).symm ▸ hrun

theorem ideProbeDevice_follows : ∃ s' b',
    Follows Bus.respond (ideProbeDevice s index) b ((FurOS.ideProbeDevice (s.onBus b) index).1, s') b' ∧
      s'.onBus b' = (FurOS.ideProbeDevice (s.onBus b) index).2 := by
  unfold ideProbeDevice FurOS.ideProbeDevice
  cases ideIndex index with
  | none => exact ⟨_, b, Follows.pure _ _, rfl⟩
  | some i =>
    dsimp only
    obtain ⟨asked, hasked⟩ : ∃ ch, ch = IdeChannel.command .identify
        (FurOS.ideDelay400ns (IdeChannel.select (ideSlave i) ((s.onBus b).channel (ideChannel i)))) := ⟨_, rfl⟩
    rw [← hasked]
    obtain ⟨q, hq, hchannel⟩ : ∃ q, q = (b (ideChannel i)).identifying i ∧ q.channel = asked.wait 1 :=
      ⟨_, rfl, hasked ▸ rfl⟩
    have hdoing : asked.current.doing = .identify := by
      rw [hasked, IdeChannel.command, IdeChannel.current_modify]
      rfl
    have hstatus : (((b (ideChannel i)).selected i).sent .identify).channel.current.status = asked.current.status := by
      rw [hasked]
      rfl
    have hfirst {α : Type} {g : UInt8 → Io α} {a : α} {u : Bus}
        (h : Follows Bus.respond (g asked.current.status) (b.withPorts i q) a u) :=
      identify_follows b i (g := g) (by rwa [hstatus, ← hq])
    by_cases hzero : asked.inbStatus.1 = 0
    · simp only [if_pos hzero]
      refine ⟨s.setIde i .absent, b.withPorts i q, hfirst ?_, ?_⟩
      · exact (if_pos hzero).symm ▸ Follows.pure _ _
      · rw [onBus_withPorts, onBus_setIde, hchannel]
        rfl
    · simp only [if_neg hzero]
      obtain ⟨ch, hch⟩ : ∃ ch, ch =
        (ideWhileBusy asked.inbStatus.1 asked.inbStatus.2 (asked.inbStatus.2.current.busy + 1)).2 := ⟨_, rfl⟩
      have hloop := inbWhile_follows b i q asked.inbStatus.1 (asked.inbStatus.2.current.busy + 1)
        fun _ => hchannel ▸ Nat.lt_succ_self _
      have hwaited : q.channel = asked.inbStatus.2 := hchannel
      rw [hwaited] at hloop
      rw [← hch] at hloop ⊢
      have hstill : (q.drives ch).channel.current.doing = .identify := by
        show ch.current.doing = _
        rw [hch, doing_ideWhileBusy]
        exact hdoing
      obtain ⟨s', b', hrun, hend⟩ := signature_follows (s.setIde i .absent) b i (q.drives ch) (by rw [hq]; rfl) hstill
      rw [onBus_setIde] at hrun hend
      exact ⟨s', b', hfirst ((if_neg hzero).symm ▸ hloop.bind hrun), hend⟩

/-! ### Histories -/

/-- A call of the driver, with its buffer at an address. -/
def call (address : UInt64) (s : Driver) : IdeCall → Io Driver
  | .probe index => do
    let x ← ideProbeDevice s index
    return x.2
  | .read index lba buffer => do
    let x ← ideReadSector s index lba address buffer
    return x.2.2
  | .write index lba buffer => do
    let x ← ideWriteSector s index lba address buffer
    return x.2
  | .flush index => do
    let x ← ideFlushCache s index
    return x.2

theorem call_follows {address : UInt64} (haddress : address ≠ 0) (c : IdeCall) : ∃ s' b',
    Follows Bus.respond (call address s c) b s' b' ∧ s'.onBus b' = c.run (s.onBus b) := by
  cases c with
  | probe index =>
    obtain ⟨s', b', hrun, hend⟩ := ideProbeDevice_follows s b index
    exact ⟨s', b', hrun.bind (Follows.pure _ _), hend⟩
  | read index lba buffer =>
    obtain ⟨s', b', hrun, hend⟩ := ideReadSector_follows s b index lba haddress buffer
    exact ⟨s', b', hrun.bind (Follows.pure _ _), hend⟩
  | write index lba buffer =>
    obtain ⟨s', b', hrun, hend⟩ := ideWriteSector_follows s b index lba haddress buffer
    exact ⟨s', b', hrun.bind (Follows.pure _ _), hend⟩
  | flush index =>
    obtain ⟨s', b', hrun, hend⟩ := ideFlushCache_follows s b index
    exact ⟨s', b', hrun.bind (Follows.pure _ _), hend⟩

/-- **The driver on the bus is the machine**, over any history of calls: it gets through them, in one way. -/
theorem history_follows {address : UInt64} (haddress : address ≠ 0) (history : List IdeCall) : ∃ s' b',
    Follows Bus.respond (history.foldlM (call address) s) b s' b' ∧ s'.onBus b' = ideAfter (s.onBus b) history := by
  induction history generalizing s b with
  | nil => exact ⟨s, b, Follows.pure _ _, rfl⟩
  | cons c history ih =>
    obtain ⟨s₁, b₁, hcall, hafter⟩ := call_follows s b haddress c
    obtain ⟨s₂, b₂, hrest, hend⟩ := ih s₁ b₁
    rw [List.foldlM_cons]
    refine ⟨s₂, b₂, hcall.bind hrest, ?_⟩
    rw [hend, hafter]
    rfl

end Calls

/-- The drives of `Disk.Wedge` behind their ports. -/
def stumblingBus : Bus := fun c =>
  { channel := stumblingIde.channel c
    file := ⟨0, 0, 0, 0, 0⟩
    moved := 0
    data := fun _ => 0 }

/-- The first disk is found, and read where it fails. -/
theorem history_follows_stumbling : ∃ s' b',
    Follows Bus.respond (failedRead.foldlM (call 0x100000) .initial) stumblingBus s' b' ∧
      s'.onBus b' = ideAfter (Driver.initial.onBus stumblingBus) failedRead :=
  history_follows .initial stumblingBus (by decide) failedRead

end FurOS.Ata
