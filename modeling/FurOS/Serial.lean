import FurOS.Foundation.Served
import FurOS.Kstring

/-! The serial port (`kernel/serial.c`), which is written to where `FUR_OS_SERIAL_DEBUG` is set.

A `Uart` is what is at the other end of the ports: it sends at its own pace and keeps sixteen bytes at most, and a byte
for which it has no room is lost. None is, however slow the line is, and whatever the port was set to before
(`serial_text`). -/
namespace FurOS.Serial
open Foundation (Metered Responder Follows)

/-! ### The driver -/

inductive PortAccess where
  | inb (port : UInt16)
  | outb (port : UInt16) (value : UInt8)

abbrev SerialIo := Metered PortAccess UInt8

def com1Port : UInt16 := 0x3F8

def inb (port : UInt16) : SerialIo UInt8 := .ask (.inb port)

def outb (port : UInt16) (value : UInt8) : SerialIo Unit := .tell (.outb port value)

/-- `(status & 0x20) == 0`. -/
def notReady (status : UInt8) : Bool := status &&& 0x20 = 0

def serialWaitTxReady : SerialIo Unit := do
  let status ← inb (com1Port + 5)
  let _ ← Metered.askWhile (.inb (com1Port + 5)) notReady status
  return ()

def serialInit : SerialIo Unit := do
  outb (com1Port + 1) 0x00
  outb (com1Port + 3) 0x80
  outb (com1Port + 0) 0x03
  outb (com1Port + 1) 0x00
  outb (com1Port + 3) 0x03
  outb (com1Port + 2) 0xC7
  outb (com1Port + 4) 0x0B

/-- `serial_write_char` of a character that is not a line feed. -/
def serialPut (c : UInt8) : SerialIo Unit := do
  serialWaitTxReady
  outb com1Port c

def serialWriteChar (c : UInt8) : SerialIo Unit := do
  if c = 10 then serialPut 13
  serialPut c

def serialWriteString : Option CStr → SerialIo Unit
  | none => return ()
  | some str => str.chars.forM serialWriteChar

/-! ### The port -/

/-- A transmitter; `pace` is how much is sent by the time of each access, and it never stops for good. -/
structure Uart where
  divisor : UInt8 × UInt8
  lineControl : UInt8
  interrupts : UInt8
  modemControl : UInt8
  held : List UInt8
  sent : List UInt8
  pace : Nat → Nat
  moves : ∀ n, ∃ m, 0 < pace (n + m)

namespace Uart

/-- Ports 0 and 1 are those of the divisor. -/
def dlab (u : Uart) : Prop := u.lineControl &&& 0x80 ≠ 0

instance (u : Uart) : Decidable u.dlab := inferInstanceAs (Decidable (_ ≠ _))

/-- What is sent or going to be. -/
def line (u : Uart) : List UInt8 := u.sent ++ u.held

/-- The line goes on. -/
def send (u : Uart) : Uart :=
  {u with
    sent := u.sent ++ u.held.take (u.pace 0)
    held := u.held.drop (u.pace 0)
    pace := fun n => u.pace (n + 1)
    moves := fun n => by
      obtain ⟨m, hm⟩ := u.moves (n + 1)
      exact ⟨m, by rwa [Nat.add_right_comm]⟩}

def status (u : Uart) : UInt8 := if u.held = [] then 0x60 else 0

def put (u : Uart) (value : UInt8) : Uart :=
  if u.held.length < 16 then {u with held := u.held ++ [value]} else u

def write (u : Uart) (port : UInt16) (value : UInt8) : Uart :=
  if port = com1Port then if u.dlab then {u with divisor := (value, u.divisor.2)} else u.put value
  else if port = com1Port + 1 then
    if u.dlab then {u with divisor := (u.divisor.1, value)} else {u with interrupts := value}
  else if port = com1Port + 2 then if value &&& 0x04 ≠ 0 then {u with held := []} else u
  else if port = com1Port + 3 then {u with lineControl := value}
  else if port = com1Port + 4 then {u with modemControl := value}
  else u

def respond : Responder PortAccess UInt8 Uart
  | u, .inb port => (if port = com1Port + 5 then u.send.status else 0, u.send)
  | u, .outb port value => (0, u.send.write port value)

/-! ### Nothing is lost -/

/-- Set up in the same way, with `text` more on the line. -/
structure Sends (u u' : Uart) (text : List UInt8) : Prop where
  divisor : u'.divisor = u.divisor
  lineControl : u'.lineControl = u.lineControl
  line : u'.line = u.line ++ text

theorem Sends.trans {u v w : Uart} {text text' : List UInt8} (h : Sends u v text) (h' : Sends v w text') :
    Sends u w (text ++ text') where
  divisor := h'.divisor.trans h.divisor
  lineControl := h'.lineControl.trans h.lineControl
  line := by rw [h'.line, h.line, List.append_assoc]

theorem sends_send (u : Uart) : Sends u u.send [] where
  divisor := rfl
  lineControl := rfl
  line := by
    show u.sent ++ u.held.take (u.pace 0) ++ u.held.drop (u.pace 0) = u.sent ++ u.held ++ []
    rw [List.append_assoc, List.take_append_drop, List.append_nil]

theorem notReady_status (u : Uart) : notReady u.status = true ↔ u.held ≠ [] := by
  by_cases h : u.held = []
  · rw [status, if_pos h]
    exact iff_of_false (by decide) (not_not.mpr h)
  · rw [status, if_neg h]
    exact iff_of_true (by decide) h

/-- **The wait ends**, with nothing left to send: by induction on how much is held, and then on how long it is until
some of it is sent. -/
theorem poll_follows (u : Uart) : ∃ status u',
    Follows respond (Metered.askWhile (.inb (com1Port + 5)) notReady u.status) u status u' ∧
      Sends u u' [] ∧ u'.held = [] := by
  obtain ⟨n, hn⟩ : ∃ n, u.held.length ≤ n := ⟨_, le_rfl⟩
  induction n generalizing u with
  | zero =>
    have hempty : u.held = [] := List.length_eq_zero_iff.mp (Nat.le_zero.mp hn)
    have hstop : notReady u.status = false := by
      rw [Bool.eq_false_iff, ne_eq, notReady_status, not_not]
      exact hempty
    exact ⟨_, u, .askWhile_stop hstop, ⟨rfl, rfl, (List.append_nil _).symm⟩, hempty⟩
  | succ n ih =>
    obtain ⟨m, hm⟩ := u.moves 0
    rw [Nat.zero_add] at hm
    induction m generalizing u with
    | zero =>
      by_cases hempty : u.held = []
      · exact ih u (by rw [hempty]; exact Nat.zero_le n)
      · have hless : u.send.held.length ≤ n := by
          show (u.held.drop (u.pace 0)).length ≤ n
          rw [List.length_drop]
          omega
        obtain ⟨status, u', hfollows, hsends, hend⟩ := ih u.send hless
        have hgo := (notReady_status u).mpr hempty
        exact ⟨status, u', .askWhile_step hgo hfollows, (sends_send u).trans hsends, hend⟩
    | succ m ihm =>
      by_cases hempty : u.held = []
      · exact ih u (by rw [hempty]; exact Nat.zero_le n)
      · have hless : u.send.held.length ≤ n + 1 := by
          show (u.held.drop (u.pace 0)).length ≤ n + 1
          rw [List.length_drop]
          omega
        obtain ⟨status, u', hfollows, hsends, hend⟩ := ihm u.send hless hm
        have hgo := (notReady_status u).mpr hempty
        exact ⟨status, u', .askWhile_step hgo hfollows, (sends_send u).trans hsends, hend⟩

theorem serialWaitTxReady_follows (u : Uart) :
    ∃ u', Follows respond serialWaitTxReady u () u' ∧ Sends u u' [] ∧ u'.held = [] := by
  obtain ⟨status, u', hfollows, hsends, hend⟩ := poll_follows u.send
  exact ⟨u', (Follows.ask _ u).bind (hfollows.bind (.pure () u')), (sends_send u).trans hsends, hend⟩

/-- A byte is stored where there is room for it. -/
theorem serialPut_follows (u : Uart) (hu : ¬ u.dlab) (c : UInt8) :
    ∃ u', Follows respond (serialPut c) u () u' ∧ Sends u u' [c] := by
  obtain ⟨v, hfollows, hsends, hend⟩ := serialWaitTxReady_follows u
  have hheld : v.send.held = [] := by
    show v.held.drop (v.pace 0) = []
    rw [hend, List.drop_nil]
  have hdlab : ¬ v.send.dlab := by
    show ¬ (v.lineControl &&& 0x80 ≠ 0)
    rw [hsends.lineControl]
    exact hu
  have hwrite : v.send.write com1Port c = {v.send with held := [c]} := by
    rw [write, if_pos rfl, if_neg hdlab, put, hheld]
    rfl
  refine ⟨v.send.write com1Port c, hfollows.bind (Follows.tell _ v), (hsends.trans (sends_send v)).trans ?_⟩
  rw [hwrite]
  refine ⟨rfl, rfl, ?_⟩
  show v.send.sent ++ [c] = v.send.sent ++ v.send.held ++ [c]
  rw [hheld, List.append_nil]

end Uart

/-- A line feed with a carriage return before it. -/
def carriage (c : UInt8) : List UInt8 := if c = 10 then [13, 10] else [c]

namespace Uart

theorem Sends.dlab {u u' : Uart} {text : List UInt8} (h : Sends u u' text) : u'.dlab ↔ u.dlab := by
  unfold Uart.dlab
  rw [h.lineControl]

theorem serialWriteChar_follows (u : Uart) (hu : ¬ u.dlab) (c : UInt8) :
    ∃ u', Follows respond (serialWriteChar c) u () u' ∧ Sends u u' (carriage c) := by
  unfold serialWriteChar carriage
  by_cases hc : c = 10
  · obtain ⟨v, hreturn, hv⟩ := serialPut_follows u hu 13
    obtain ⟨w, hfeed, hw⟩ := serialPut_follows v (fun h => hu (hv.dlab.mp h)) c
    rw [if_pos hc, if_pos hc]
    subst hc
    exact ⟨w, hreturn.bind hfeed, hv.trans hw⟩
  · obtain ⟨v, hput, hv⟩ := serialPut_follows u hu c
    rw [if_neg hc, if_neg hc]
    exact ⟨v, hput, hv⟩

theorem serialWriteString_follows (u : Uart) (hu : ¬ u.dlab) (text : List UInt8) :
    ∃ u', Follows respond (text.forM serialWriteChar) u () u' ∧ Sends u u' (text.flatMap carriage) := by
  induction text generalizing u with
  | nil => exact ⟨u, .pure () u, rfl, rfl, (List.append_nil _).symm⟩
  | cons c text ih =>
    obtain ⟨v, hchar, hv⟩ := serialWriteChar_follows u hu c
    obtain ⟨w, hrest, hw⟩ := ih v fun h => hu (hv.dlab.mp h)
    rw [List.flatMap_cons]
    exact ⟨w, hchar.bind hrest, hv.trans hw⟩

end Uart

/-! ### The text goes over the line -/

namespace Uart

/-- Some of what was held has been sent, and the rest is held. -/
def Drained (u v : Uart) : Prop := ∃ n, v.sent = u.sent ++ u.held.take n ∧ v.held = u.held.drop n

theorem Drained.send {u v : Uart} (h : Drained u v) : Drained u v.send := by
  obtain ⟨n, hsent, hheld⟩ := h
  refine ⟨n + v.pace 0, ?_, ?_⟩
  · show v.sent ++ v.held.take (v.pace 0) = _
    rw [hsent, hheld, List.append_assoc, List.take_add]
  · show v.held.drop (v.pace 0) = _
    rw [hheld, List.drop_drop]

/-- The port after `serial_init`. -/
def initialized (u : Uart) : Uart :=
  let u := u.send.write (com1Port + 1) 0x00
  let u := u.send.write (com1Port + 3) 0x80
  let u := u.send.write (com1Port + 0) 0x03
  let u := u.send.write (com1Port + 1) 0x00
  let u := u.send.write (com1Port + 3) 0x03
  let u := u.send.write (com1Port + 2) 0xC7
  u.send.write (com1Port + 4) 0x0B

theorem serialInit_follows (u : Uart) : Follows respond serialInit u () u.initialized :=
  (Follows.tell _ u).bind ((Follows.tell _ _).bind ((Follows.tell _ _).bind ((Follows.tell _ _).bind
    ((Follows.tell _ _).bind ((Follows.tell _ _).bind (Follows.tell _ _))))))

/-- Which register the first store goes to depends on what the port was set to before. -/
theorem write_second (u : Uart) (value : UInt8) :
    ∃ divisor interrupts, u.write (com1Port + 1) value = {u with divisor := divisor, interrupts := interrupts} := by
  by_cases h : u.dlab
  · exact ⟨(u.divisor.1, value), u.interrupts, if_pos h⟩
  · exact ⟨u.divisor, value, if_neg h⟩

theorem write_divisorLow {u : Uart} (h : u.dlab) (value : UInt8) :
    u.write (com1Port + 0) value = {u with divisor := (value, u.divisor.2)} := by
  rw [write, if_pos (by decide), if_pos h]

theorem write_divisorHigh {u : Uart} (h : u.dlab) (value : UInt8) :
    u.write (com1Port + 1) value = {u with divisor := (u.divisor.1, value)} := by
  rw [write, if_neg (by decide), if_pos rfl, if_pos h]

/-- The transmit queue is cleared. -/
theorem write_fifo (u : Uart) : u.write (com1Port + 2) 0xC7 = {u with held := []} := by
  rw [write, if_neg (by decide), if_neg (by decide), if_pos rfl, if_pos (by decide)]

theorem write_lineControl (u : Uart) (value : UInt8) : u.write (com1Port + 3) value = {u with lineControl := value} := by
  rw [write, if_neg (by decide), if_neg (by decide), if_neg (by decide), if_pos rfl]

theorem write_modemControl (u : Uart) (value : UInt8) :
    u.write (com1Port + 4) value = {u with modemControl := value} := by
  rw [write, if_neg (by decide), if_neg (by decide), if_neg (by decide), if_neg (by decide), if_pos rfl]

/-- The divisor is set while its ports are open. -/
theorem write_divisor (u : Uart) :
    (((u.write (com1Port + 3) 0x80).send.write (com1Port + 0) 0x03).send.write (com1Port + 1) 0x00).send.write
      (com1Port + 3) 0x03 = {u.send.send.send with divisor := (3, 0), lineControl := 3} := by
  have hopen : (0x80 : UInt8) &&& 0x80 ≠ 0 := by decide
  rw [write_lineControl u 0x80, write_divisorLow, write_divisorHigh, write_lineControl]
  · rfl
  · exact hopen
  · exact hopen

theorem initialized_fields (u : Uart) : u.initialized.divisor = (3, 0) ∧ u.initialized.lineControl = 3 ∧
    u.initialized.held = [] ∧ ∃ before, before <+: u.held ∧ u.initialized.sent = u.sent ++ before := by
  obtain ⟨divisor, interrupts, hfirst⟩ := u.send.write_second 0x00
  obtain ⟨n, hsent, -⟩ : Drained u u.send.send.send.send.send.send :=
    .send (.send (.send (.send (.send (.send ⟨0, (List.append_nil _).symm, rfl⟩)))))
  unfold initialized
  dsimp only
  rw [hfirst, write_divisor, write_fifo, write_modemControl]
  refine ⟨rfl, rfl, List.drop_nil, u.held.take n, List.take_prefix n u.held, ?_⟩
  show u.send.send.send.send.send.send.sent ++ [].take _ = _
  rw [List.take_nil, List.append_nil, hsent]

end Uart

/-- **A text goes over the line whole**: from whatever the port was set to before, and however slow the line is, the
calls return; the port is left at 38400 baud with 8 bits, no parity and one stop bit; and what was held before and is
not sent yet is dropped, and then come the characters of the text, each line feed with a carriage return before it. -/
theorem serial_text (text : CStr) (u : Uart) : ∃ u',
    Follows Uart.respond (serialInit >>= fun _ => serialWriteString (some text)) u () u' ∧
      u'.divisor = (3, 0) ∧ u'.lineControl = 3 ∧
      ∃ before, before <+: u.held ∧ u'.line = u.sent ++ before ++ text.chars.flatMap carriage := by
  obtain ⟨hdivisor, hcontrol, hheld, before, hbefore, hsent⟩ := u.initialized_fields
  have hdlab : ¬ u.initialized.dlab := by
    unfold Uart.dlab
    rw [hcontrol]
    decide
  obtain ⟨u', hfollows, hsends⟩ := u.initialized.serialWriteString_follows hdlab text.chars
  refine ⟨u', u.serialInit_follows.bind hfollows, hsends.divisor.trans hdivisor, hsends.lineControl.trans hcontrol,
    before, hbefore, ?_⟩
  rw [hsends.line, Uart.line, hheld, List.append_nil, hsent]

/-- A port with a byte on its way that sends one at each access. -/
def steadyUart : Uart :=
  { divisor := (12, 0)
    lineControl := 0
    interrupts := 0
    modemControl := 0
    held := [65]
    sent := []
    pace := fun _ => 1
    moves := fun _ => ⟨0, Nat.one_pos⟩ }

theorem serial_text_steady : ∃ u',
    Follows Uart.respond (serialInit >>= fun _ => serialWriteString (some (.ofLit "a\n"))) steadyUart () u' ∧
      u'.divisor = (3, 0) ∧ u'.lineControl = 3 ∧
      ∃ before, before <+: [65] ∧ u'.line = before ++ [97, 13, 10] :=
  serial_text (.ofLit "a\n") steadyUart

end FurOS.Serial
