import FurOS.Desktop.Survival
import FurOS.Desktop.Fileman

/-! The desktop at the keyboard (`desktop_run` and what it calls).

A key goes to whatever waits for it: the desktop itself, a menu, a dialog, the file manager, the monitor, or a program
that `launch` has started. `Desk.step` is one key. On the system a run of keys does what a run of the programs does that
`State.step` describes, and nothing else (`desk_runs`), and whatever is open is closed again by at most three Escapes,
but for the terminal and an editor with unsaved changes (`escapes_lead_back`). -/
namespace FurOS.Desktop
open Installer (Key InputBuffer keyUp keyDown)

def keyF5 : Key := 0x205

/-! ### Menus -/

/-- A round of a menu with `n` items. -/
inductive Choice (n : Nat) where
  | moved (sel : Fin n)
  | chosen (sel : Fin n)
  | cancelled

/-- `sel--` and `sel++`, where there is an item above or below. -/
theorem up_lt {n : Nat} (sel : Fin n) : sel.val - 1 < n := by omega

def up {n : Nat} (sel : Fin n) : Fin n := ⟨sel.val - 1, up_lt sel⟩
def down {n : Nat} (sel : Fin n) : Fin n := if h : sel.val + 1 < n then ⟨sel.val + 1, h⟩ else sel

/-- One round of the loop of `run_kickoff`. -/
def kickoffKey (sel : Fin 7) (key : Key) : Choice 7 :=
  if key = keyUp then .moved (up sel)
  else if key = keyDown then .moved (down sel)
  else if key = 10 ∨ key = 13 ∨ key = 0x20 then .chosen sel
  else if key = keyEsc then .cancelled
  else .moved sel

/-- One round of the loop of `run_context_menu`. -/
def contextMenuKey (sel : Fin 5) (key : Key) : Choice 5 :=
  if key = keyUp ∧ sel.val > 0 then .moved (up sel)
  else if key = keyDown ∧ sel.val < 4 then .moved (down sel)
  else if key = 10 ∨ key = 13 then .chosen sel
  else if key = keyEsc then .cancelled
  else .moved sel

/-- What an item of the context menu launches; the last item refreshes the desktop. -/
def contextApp (sel : Fin 5) : Option Nat :=
  if sel = 0 then some 0 else if sel = 1 then some 1 else if sel = 2 then some 3 else if sel = 3 then some 4 else none

/-! ### Dialogs -/

/-- `run_names` and `run_ids`. -/
def runNames : List (String × Nat) :=
  [("konsole", 0), ("terminal", 0), ("dolphin", 1), ("files", 1), ("kate", 3), ("editor", 3), ("settings", 4),
    ("sysguard", 2), ("monitor", 2), ("about", 5), ("shutdown", 6)]

/-- The first name that is what was typed. -/
def runId (input : List UInt8) : Option Nat := (runNames.find? fun x => lit x.1 = input).map Prod.snd

/-- What the run dialog holds at most: 22 characters and the terminator, in an array of 24. -/
abbrev RunInput := InputBuffer 23

theorem nothing_printable : ∀ c ∈ ([] : List UInt8), isPrintable c = true := List.forall_mem_nil _

def nothingTyped : RunInput := ⟨[], by decide, nothing_printable⟩

inductive RunEnd where
  | editing (input : RunInput)
  | unknown (input : RunInput)
  | launched (id : Nat)
  | cancelled

theorem isPrintable_key {key : Key} (h : key ≥ 32 ∧ key < 127) : isPrintable key.toUInt8 = true := by
  obtain ⟨hlow, hhigh⟩ := h
  rw [ge_iff_le, UInt16.le_iff_toNat_le] at hlow
  rw [UInt16.lt_iff_toNat_lt] at hhigh
  simp only [isPrintable, ge_iff_le, Bool.and_eq_true, decide_eq_true_iff, UInt8.le_iff_toNat_le, UInt16.toNat_toUInt8]
  have h32 : (32 : UInt16).toNat = 32 ∧ (127 : UInt16).toNat = 127 := ⟨rfl, rfl⟩
  have h126 : (32 : UInt8).toNat = 32 ∧ (126 : UInt8).toNat = 126 := ⟨rfl, rfl⟩
  omega

/-- One round of the loop of `run_dialog`, up to the message for an unknown name. -/
def runDialogKey (input : RunInput) (key : Key) : RunEnd :=
  if key = keyEsc then .cancelled
  else if key = 10 ∨ key = 13 then (runId input.chars).elim (.unknown input) .launched
  else if (key = 8 ∨ key = 127) ∧ input.chars ≠ [] then .editing input.back
  else if h : (key ≥ 32 ∧ key < 127) ∧ input.chars.length < 22 then
    .editing (input.push key.toUInt8 ⟨isPrintable_key h.1, h.2⟩)
  else .editing input

inductive ShutdownEnd where
  | asking (sel : Fin 2)
  | answered (off : Bool)

/-- `sel ^= 1`. -/
def toggle (sel : Fin 2) : Fin 2 := ⟨1 - sel.val, by omega⟩

/-- One round of the loop of `run_shutdown`. -/
def shutdownKey (sel : Fin 2) (key : Key) : ShutdownEnd :=
  let sel := if key = keyLeft ∨ key = keyRight then toggle sel else sel
  let sel := if key = 9 then toggle sel else sel
  if key = 10 ∨ key = 13 then .answered (decide (sel.val = 0))
  else if key = keyEsc then .answered false
  else .asking sel

/-! ### The desktop -/

/-- What waits for the next key. -/
inductive Front where
  | desktop
  | kickoff (sel : Fin 7)
  | contextMenu (sel : Fin 5)
  | runDialog (input : RunInput)
  | unknownApp (input : RunInput)
  | fileman (m : FmVars)
  | viewer (m : FmVars) (w : FmView)
  | sysmon
  | about
  | shutdown (sel : Fin 2)
  /-- `FurOS has shut down`: nothing waits any more. -/
  | off
  /-- The terminal, the editor or the settings. -/
  | program

/-- The system with its programs, `g_ws`, `g_app`, and the variables that the file manager leaves. -/
structure Desk where
  d : State
  front : Front
  ws : Fin 4
  app : Int
  fm : FmVars

/-- A key, with what an array holds in which a path is made, or a line for the terminal. -/
inductive Input where
  | key (key : Key) (bxBuf : Fin 80 → UInt8)
  | line (keys : List UInt8)

inductive DeskStop where
  | program (s : Stop)
  | fileman (f : FmFault)

def orProgram {α : Type} : Except Stop α → Except DeskStop α
  | .error s => .error (.program s)
  | .ok a => .ok a

def orFileman {α : Type} : Except FmFault α → Except DeskStop α
  | .error f => .error (.fileman f)
  | .ok a => .ok a

def Program.isDesktop : Program → Bool
  | .desktop => true
  | _ => false

def Program.isTerminal : Program → Bool
  | .terminal => true
  | _ => false

def App.isTerminal : App → Bool
  | .terminal => true
  | _ => false

namespace Desk

/-- A program of `launch`. -/
def start (scan : Scan) (m : Desk) (app : App) (g_app : Int) : Except DeskStop Desk := do
  let d ← orProgram (m.d.launch scan app)
  return {m with d := d, front := .program, app := g_app}

/-- `launch`. -/
def launch (scan : Scan) (m : Desk) (id : Nat) : Except DeskStop Desk :=
  if id = 0 then m.start scan .terminal 0
  else if id = 1 then
    return {m with front := .fileman (fmLoadDir m.d.sys.nodes {m.fm with cwd := fsGetRoot}), app := 1}
  else if id = 2 then return {m with front := .sysmon, app := 2}
  else if id = 3 then m.start scan .kate m.app
  else if id = 4 then m.start scan .settings m.app
  else if id = 5 then return {m with front := .about}
  else if id = 6 then return {m with front := .shutdown ⟨1, Nat.one_lt_two⟩}
  else return {m with front := .desktop}

/-- What a letter or a digit launches. -/
def shortcut (key : Key) : Option Nat :=
  if key = 0x74 ∨ key = 0x54 ∨ key = 0x31 then some 0
  else if key = 0x66 ∨ key = 0x46 ∨ key = 0x32 then some 1
  else if key = 0x6d ∨ key = 0x4d ∨ key = 0x33 then some 2
  else if key = 0x65 ∨ key = 0x45 then some 3
  else if key = 0x67 ∨ key = 0x47 then some 4
  else if key = 0x61 ∨ key = 0x41 then some 5
  else if key = 0x71 ∨ key = 0x51 then some 6
  else none

/-- One round of the inner loop of `desktop_run`. -/
def desktopKey (scan : Scan) (m : Desk) (key : Key) : Except DeskStop Desk :=
  if key = keyF5 then return m
  else if h : key ≥ keyF1 ∧ key ≤ keyF4 then
    return {m with ws := ⟨(key - keyF1).toNat, by
      obtain ⟨hlow, hhigh⟩ := h
      rw [ge_iff_le, UInt16.le_iff_toNat_le] at hlow
      rw [UInt16.le_iff_toNat_le] at hhigh
      rw [UInt16.toNat_sub_of_le _ _ (UInt16.le_iff_toNat_le.mpr hlow)]
      have h1 : keyF1.toNat = 0x201 := rfl
      have h4 : keyF4.toNat = 0x204 := rfl
      omega⟩}
  else if key = 0x6b ∨ key = 0x4b then return {m with front := .kickoff 0}
  else if key = 0x63 ∨ key = 0x43 then return {m with front := .contextMenu 0}
  else if key = 0x72 ∨ key = 0x52 then return {m with front := .runDialog nothingTyped}
  else (shortcut key).elim (.ok m) (m.launch scan)

/-- What the file manager leaves. -/
def browsed (m : Desk) (before : FmVars) : Fileman → Desk
  | .browsing fm => {m with front := .fileman fm}
  | .viewing fm w => {m with front := .viewer fm w}
  | .closed => {m with front := .desktop, app := -1, fm := before}

/-- What a program leaves. -/
def ran (m : Desk) (d : State) : Desk :=
  if d.program.isDesktop then
    {m with d := d, front := .desktop, app := if m.d.program.isTerminal then -1 else m.app}
  else {m with d := d}

/-- A key goes to what waits for it. -/
def step (scan : Scan) (i : Input) (m : Desk) : Except DeskStop Desk :=
  match m.front, i with
  | .desktop, .key key _ => m.desktopKey scan key
  | .kickoff sel, .key key _ =>
    match kickoffKey sel key with
    | .moved sel => return {m with front := .kickoff sel}
    | .chosen sel => m.launch scan sel.val
    | .cancelled => return {m with front := .desktop}
  | .contextMenu sel, .key key _ =>
    match contextMenuKey sel key with
    | .moved sel => return {m with front := .contextMenu sel}
    | .chosen sel => (contextApp sel).elim (.ok {m with front := .desktop}) (m.launch scan)
    | .cancelled => return {m with front := .desktop}
  | .runDialog input, .key key _ =>
    match runDialogKey input key with
    | .editing input => return {m with front := .runDialog input}
    | .unknown input => return {m with front := .unknownApp input}
    | .launched id => m.launch scan id
    | .cancelled => return {m with front := .desktop}
  | .unknownApp input, .key _ _ => return {m with front := .runDialog input}
  | .fileman fm, .key key bxBuf => do
    let after ← orFileman (fmKey m.d.sys.nodes fm key bxBuf)
    return m.browsed fm after
  | .viewer fm w, .key key _ => return m.browsed fm (fmViewKey fm w key)
  | .sysmon, .key key _ => return if key = keyEsc then {m with front := .desktop, app := -1} else m
  | .about, .key _ _ => return {m with front := .desktop}
  | .shutdown sel, .key key _ =>
    match shutdownKey sel key with
    | .asking sel => return {m with front := .shutdown sel}
    | .answered off => return {m with front := if off then .off else .desktop}
  | .program, .key key _ => do
    let d ← orProgram (m.d.step scan (.key key))
    return m.ran d
  | .program, .line keys => do
    let d ← orProgram (m.d.step scan (.line keys))
    return m.ran d
  | _, _ => return m

end Desk

theorem workspaces_pos : 0 < 4 := by decide

/-- The desktop when the system comes up. -/
def bootDesk (drive : Drive) : Desk :=
  { d := boot drive
    front := .desktop
    ws := ⟨0, workspaces_pos⟩
    app := -1
    fm := ⟨fun _ => 0, 0, 0, 0, 0⟩ }

/-! ### What runs and what is shown as running -/

/-- The task that the panel shows as running. -/
def Desk.activeApp (m : Desk) : Int :=
  match m.front with
  | .fileman _ => 1
  | .viewer _ _ => 1
  | .sysmon => 2
  | .program => if m.d.program.isTerminal then 0 else -1
  | _ => -1

/-- A program runs when it is in front, and `g_app` is the task that runs. -/
structure Desk.Consistent (m : Desk) : Prop where
  program : m.front = .program ↔ m.d.program.isDesktop = false
  app : m.app = m.activeApp

/-- What a key does to what runs: nothing, but for the programs and their start; and then it is a step of theirs. -/
structure Desk.Follows (scan : Scan) (m m' : Desk) : Prop extends m'.Consistent where
  still : m.front ≠ .program → m'.front ≠ .program → m'.d = m.d
  steps : m'.d = m.d ∨ ∃ a, m.d.step scan a = .ok m'.d

theorem orProgram_eq_ok {α : Type} {x : Except Stop α} {a : α} (h : orProgram x = .ok a) : x = .ok a := by
  cases x with
  | error f => cases h
  | ok b =>
    cases h
    rfl

theorem Program.isDesktop_iff {p : Program} : p.isDesktop = true ↔ p = .desktop := by
  cases p <;> simp [isDesktop]

section Step
variable {scan : Scan} {m m' : Desk}

/-- A program that has been launched is not the desktop. -/
theorem launched_program {d d' : State} {app : App} (h : d.launch scan app = .ok d') :
    d'.program.isDesktop = false ∧ d'.program.isTerminal = app.isTerminal := by
  cases app with
  | terminal =>
    obtain ⟨s, -, h⟩ := Foundation.bind_eq_ok.mp h
    cases h
    exact ⟨rfl, rfl⟩
  | kate =>
    cases h
    exact ⟨rfl, rfl⟩
  | settings =>
    obtain ⟨c, -, h⟩ := Foundation.bind_eq_ok.mp h
    cases h
    exact ⟨rfl, rfl⟩

/-- A program that goes on stays what it is. -/
theorem step_program {d d' : State} {a : Action} (h : d.step scan a = .ok d') (hd : d.program.isDesktop = false)
    (hd' : d'.program.isDesktop = false) : d'.program.isTerminal = d.program.isTerminal := by
  have hedited (e : Editor × System) (hother : (d.edited e).program.isDesktop = false) :
      (d.edited e).program.isTerminal = false := by
    obtain ⟨e, s⟩ := e
    cases e with
    | typing k => rfl
    | asking k => rfl
    | closed => cases hother
  unfold State.step at h
  split at h
  · rename_i hprog
    rw [hprog] at hd
    cases hd
  · rename_i k key hprog
    obtain ⟨after, -, h⟩ := Foundation.bind_eq_ok.mp h
    cases h
    rw [hedited after hd', hprog]
    rfl
  · rename_i k key hprog
    obtain ⟨after, -, h⟩ := Foundation.bind_eq_ok.mp h
    cases h
    rw [hedited after hd', hprog]
    rfl
  · rename_i c key hprog
    obtain ⟨⟨c', s⟩, -, h⟩ := Foundation.bind_eq_ok.mp h
    cases h
    rw [hprog]
    cases c' with
    | none => cases hd'
    | some c' => rfl
  · rename_i keys hprog
    obtain ⟨s, -, h⟩ := Foundation.bind_eq_ok.mp h
    cases h
    split at hd'
    · cases hd'
    · rename_i hgoes
      rw [if_neg hgoes]
  · cases h
    rfl

namespace Desk

theorem start_follows (hd : m.d.program.isDesktop = true) {app : App} {g : Int}
    (hg : g = if app.isTerminal then 0 else -1) (h : m.start scan app g = .ok m') : m.Follows scan m' := by
  obtain ⟨d, hlaunch, h⟩ := Foundation.bind_eq_ok.mp h
  cases h
  have hlaunch := orProgram_eq_ok hlaunch
  obtain ⟨hdesktop, hterminal⟩ := launched_program hlaunch
  refine ⟨⟨iff_of_true rfl hdesktop, ?_⟩, fun _ hfront => absurd rfl hfront, .inr ⟨.launch app, ?_⟩⟩
  · rw [hg, ← hterminal]
    rfl
  · unfold State.step
    rw [Program.isDesktop_iff.mp hd]
    exact hlaunch

/-- A key that only changes what waits for the next. -/
theorem moves_follow (hm : m.Consistent) (hfront : m.front ≠ .program) (hd : m'.d = m.d) (hfront' : m'.front ≠ .program)
    (happ : m'.app = m'.activeApp) : m.Follows scan m' where
  program := by
    rw [hd, ← hm.program]
    exact iff_of_false hfront' hfront
  app := happ
  still _ _ := hd
  steps := .inl hd

theorem launch_follows (hm : m.Consistent) (hfront : m.front ≠ .program) (happ : m.app = -1) {id : Nat}
    (h : m.launch scan id = .ok m') : m.Follows scan m' := by
  have hd : m.d.program.isDesktop = true := by
    by_contra hother
    exact hfront (hm.program.mpr (by simpa using hother))
  unfold launch at h
  split_ifs at h
  · exact start_follows hd rfl h
  · cases h
    exact moves_follow hm hfront rfl nofun rfl
  · cases h
    exact moves_follow hm hfront rfl nofun rfl
  · exact start_follows hd happ h
  · exact start_follows hd happ h
  · cases h
    exact moves_follow hm hfront rfl nofun happ
  · cases h
    exact moves_follow hm hfront rfl nofun happ
  · cases h
    exact moves_follow hm hfront rfl nofun happ

theorem desktopKey_follows (hm : m.Consistent) (hfront : m.front = .desktop) {key : Key}
    (h : m.desktopKey scan key = .ok m') : m.Follows scan m' := by
  have hne : m.front ≠ .program := by rw [hfront]; nofun
  have happ : m.app = -1 := by rw [hm.app, activeApp, hfront]
  have hstays (ws : Fin 4) : m.Follows scan {m with ws := ws} := moves_follow hm hne rfl hne hm.app
  unfold desktopKey at h
  split_ifs at h
  · cases h
    exact hstays m.ws
  · cases h
    exact hstays _
  · cases h
    exact moves_follow hm hne rfl nofun happ
  · cases h
    exact moves_follow hm hne rfl nofun happ
  · cases h
    exact moves_follow hm hne rfl nofun happ
  · cases hid : shortcut key with
    | none =>
      rw [hid] at h
      cases h
      exact hstays m.ws
    | some id =>
      rw [hid] at h
      exact launch_follows hm hne happ h

theorem browsed_follows (hm : m.Consistent) (hfront : m.front ≠ .program) (happ : m.app = 1) (fm : FmVars)
    (after : Fileman) : m.Follows scan (m.browsed fm after) := by
  cases after with
  | browsing fm => exact moves_follow hm hfront rfl nofun happ
  | viewing fm w => exact moves_follow hm hfront rfl nofun happ
  | closed => exact moves_follow hm hfront rfl nofun rfl

theorem ran_follows (hm : m.Consistent) (hfront : m.front = .program) {a : Action} {d : State}
    (h : m.d.step scan a = .ok d) : m.Follows scan (m.ran d) := by
  have happ := hm.app
  rw [activeApp, hfront] at happ
  unfold ran
  cases hd : d.program.isDesktop with
  | true =>
    rw [if_pos rfl]
    refine ⟨⟨iff_of_false nofun (by rw [hd]; nofun), ?_⟩, fun hne => absurd hfront hne, .inr ⟨a, h⟩⟩
    show (if m.d.program.isTerminal = true then -1 else m.app) = -1
    split
    · rfl
    · rename_i hother
      rw [happ]
      exact if_neg hother
  | false =>
    rw [if_neg (by decide)]
    refine ⟨⟨iff_of_true hfront hd, ?_⟩, fun hne => absurd hfront hne, .inr ⟨a, h⟩⟩
    show m.app = activeApp {m with d := d}
    rw [happ, activeApp, hfront]
    dsimp only
    rw [step_program h (hm.program.mp hfront) hd]

/-- **One key.** -/
theorem step_follows {i : Input} (hm : m.Consistent) (h : m.step scan i = .ok m') : m.Follows scan m' := by
  have hself : m.Follows scan m := ⟨hm, fun _ _ => rfl, .inl rfl⟩
  have hback (hfront : m.front ≠ .program) (happ : m.app = -1) : m.Follows scan {m with front := .desktop} :=
    moves_follow hm hfront rfl nofun happ
  have happ := hm.app
  unfold activeApp at happ
  unfold step at h
  split at h
  · rename_i hfront
    exact desktopKey_follows hm hfront h
  · rename_i hfront
    rw [hfront] at happ
    have hne : m.front ≠ .program := by rw [hfront]; nofun
    split at h
    · cases h
      exact moves_follow hm hne rfl nofun happ
    · exact launch_follows hm hne happ h
    · cases h
      exact hback hne happ
  · rename_i hfront
    rw [hfront] at happ
    have hne : m.front ≠ .program := by rw [hfront]; nofun
    split at h
    · cases h
      exact moves_follow hm hne rfl nofun happ
    · rename_i sel' _
      cases happs : contextApp sel' with
      | none =>
        rw [happs] at h
        cases h
        exact hback hne happ
      | some id =>
        rw [happs] at h
        exact launch_follows hm hne happ h
    · cases h
      exact hback hne happ
  · rename_i hfront
    rw [hfront] at happ
    have hne : m.front ≠ .program := by rw [hfront]; nofun
    split at h
    · cases h
      exact moves_follow hm hne rfl nofun happ
    · cases h
      exact moves_follow hm hne rfl nofun happ
    · exact launch_follows hm hne happ h
    · cases h
      exact hback hne happ
  · rename_i hfront
    rw [hfront] at happ
    cases h
    exact moves_follow hm (by rw [hfront]; nofun) rfl nofun happ
  · rename_i hfront
    rw [hfront] at happ
    obtain ⟨after, -, h⟩ := Foundation.bind_eq_ok.mp h
    cases h
    exact browsed_follows hm (by rw [hfront]; nofun) happ _ after
  · rename_i hfront
    rw [hfront] at happ
    cases h
    exact browsed_follows hm (by rw [hfront]; nofun) happ _ _
  · rename_i hfront
    have hne : m.front ≠ .program := by rw [hfront]; nofun
    cases h
    split
    · exact moves_follow hm hne rfl nofun rfl
    · exact hself
  · rename_i hfront
    rw [hfront] at happ
    cases h
    exact hback (by rw [hfront]; nofun) happ
  · rename_i hfront
    rw [hfront] at happ
    have hne : m.front ≠ .program := by rw [hfront]; nofun
    split at h
    · cases h
      exact moves_follow hm hne rfl nofun happ
    · rename_i off _
      cases h
      cases off with
      | true => exact moves_follow hm hne rfl nofun happ
      | false => exact hback hne happ
  · rename_i hfront
    obtain ⟨d, hd, h⟩ := Foundation.bind_eq_ok.mp h
    cases h
    exact ran_follows hm hfront (orProgram_eq_ok hd)
  · rename_i hfront
    obtain ⟨d, hd, h⟩ := Foundation.bind_eq_ok.mp h
    cases h
    exact ran_follows hm hfront (orProgram_eq_ok hd)
  · cases h
    exact hself

end Desk

end Step

theorem bootDesk_consistent (drive : Drive) : (bootDesk drive).Consistent := ⟨iff_of_false nofun nofun, rfl⟩

/-- **A run of keys is a run of the programs.** Whatever is typed from the start on: the system and the program are
what a run of programs reaches, so they are sound, the program in front is the one that runs, `g_app` is the task that
runs, and a key that neither goes to a program nor starts one changes nothing of them. -/
theorem desk_runs (scan : Scan) (drive : Drive) (m : Desk)
    (h : Foundation.Reachable (Desk.step scan) (fun _ _ => True) (bootDesk drive) m) :
    Foundation.Reachable (State.step scan) (fun _ _ => True) (boot drive) m.d ∧ Sound scan drive m.d ∧ m.Consistent ∧
      ∀ i m', m.step scan i = .ok m' → m.Follows scan m' := by
  have hrun : m.Consistent ∧ Foundation.Reachable (State.step scan) (fun _ _ => True) (boot drive) m.d := by
    refine h.invariant (P := fun m => m.Consistent ∧
      Foundation.Reachable (State.step scan) (fun _ _ => True) (boot drive) m.d) (fun m i m' hm _ hstep => ?_)
      ⟨bootDesk_consistent drive, .start⟩
    have hfollows := Desk.step_follows hm.1 hstep
    refine ⟨hfollows.toConsistent, ?_⟩
    rcases hfollows.steps with hsame | ⟨a, ha⟩
    · rw [hsame]
      exact hm.2
    · exact .step hm.2 trivial ha
  exact ⟨hrun.2, sound_reachable hrun.2, hrun.1, fun i m' hstep => Desk.step_follows hrun.1 hstep⟩

/-- The editor, after a letter has been typed. -/
def typedDesk : Desk := {bootDesk blankDisk.drive with d := typedState, front := .program}

theorem typedDesk_reachable (scan : Scan) :
    Foundation.Reachable (Desk.step scan) (fun _ _ => True) (bootDesk blankDisk.drive) typedDesk := by
  have hopen : Desk.step scan (.key 0x65 fun _ => 0) (bootDesk blankDisk.drive) =
      .ok {bootDesk blankDisk.drive with
        d := {boot blankDisk.drive with program := .kate (.opened fsGetRoot)}
        front := .program} := rfl
  have htype : Desk.step scan (.key 0x61 fun _ => 0)
      {bootDesk blankDisk.drive with
        d := {boot blankDisk.drive with program := .kate (.opened fsGetRoot)}
        front := .program} = .ok typedDesk := rfl
  exact .step (.step .start trivial hopen) trivial htype

theorem desk_runs_typedDesk :
    Foundation.Reachable (State.step noDiskScan) (fun _ _ => True) (boot blankDisk.drive) typedDesk.d ∧
      Sound noDiskScan blankDisk.drive typedDesk.d ∧ typedDesk.Consistent ∧
      ∀ i m', typedDesk.step noDiskScan i = .ok m' → typedDesk.Follows noDiskScan m' :=
  desk_runs noDiskScan blankDisk.drive typedDesk (typedDesk_reachable noDiskScan)

/-! ### Escape -/

def escape : Input := .key keyEsc fun _ => 0

/-- So many Escapes. -/
def escapes (scan : Scan) : Nat → Desk → Except DeskStop Desk
  | 0, m => .ok m
  | n + 1, m => m.step scan escape >>= escapes scan n

/-- The way back to the desktop is at most `n` Escapes long, or there are unsaved changes on it: then the editor
stays. -/
def Leaves (scan : Scan) (n : Nat) (m : Desk) : Prop :=
  ∃ m', escapes scan n m = .ok m' ∧ m'.d.sys = m.d.sys ∧
    (m'.front = .desktop ∨ ∃ k, k.modified = true ∧ InEditor m.d k ∧ InEditor m'.d k)

section Escape
variable {scan : Scan} {m : Desk}

theorem Leaves.step {n : Nat} {m' : Desk} (hstep : m.step scan escape = .ok m') (hsys : m'.d.sys = m.d.sys)
    (heditor : ∀ k, InEditor m'.d k → InEditor m.d k) (h : Leaves scan n m') : Leaves scan (n + 1) m := by
  obtain ⟨m'', hrest, hsys', hend⟩ := h
  refine ⟨m'', ?_, hsys'.trans hsys, hend.imp id fun ⟨k, hk, hbefore, hafter⟩ => ⟨k, hk, heditor k hbefore, hafter⟩⟩
  rw [escapes, hstep, Foundation.ok_bind, hrest]

/-- The desktop does not take Escapes. -/
theorem escapes_desktop (hfront : m.front = .desktop) (n : Nat) : escapes scan n m = .ok m := by
  induction n with
  | zero => rfl
  | succ n ih =>
    have hstep : m.step scan escape = .ok m := by
      unfold Desk.step escape
      rw [hfront]
      rfl
    rw [escapes, hstep, Foundation.ok_bind, ih]

/-- One Escape closes it. -/
theorem leaves_closed {m' : Desk} (hstep : m.step scan escape = .ok m') (hsys : m'.d.sys = m.d.sys)
    (hfront : m'.front = .desktop) (n : Nat) : Leaves scan (n + 1) m := by
  refine ⟨m', ?_, hsys, .inl hfront⟩
  rw [escapes, hstep, Foundation.ok_bind, escapes_desktop hfront]

theorem leaves_runDialog {input : RunInput} (hfront : m.front = .runDialog input) (n : Nat) :
    Leaves scan (n + 1) m := by
  have hstep : m.step scan escape = .ok {m with front := .desktop} := by
    unfold Desk.step escape
    rw [hfront]
    rfl
  exact leaves_closed hstep rfl rfl n

theorem leaves_fileman {fm : FmVars} (hfront : m.front = .fileman fm) (n : Nat) : Leaves scan (n + 1) m := by
  have hstep : m.step scan escape = .ok {m with front := .desktop, app := -1, fm := fm} := by
    unfold Desk.step escape
    rw [hfront]
    rfl
  exact leaves_closed hstep rfl rfl n

/-- A key that goes to a program. -/
theorem step_ran {key : Key} {bxBuf : Fin 80 → UInt8} (hfront : m.front = .program) {d : State}
    (h : m.d.step scan (.key key) = .ok d) : m.step scan (.key key bxBuf) = .ok (m.ran d) := by
  unfold Desk.step
  rw [hfront]
  dsimp only
  rw [h]
  rfl

/-- Escape in the editor: it closes, or asks. -/
theorem step_editor (scan : Scan) {k : Kate} (hk : m.d.program = .kate k) :
    m.d.step scan (.key keyEsc) = .ok {m.d with program := if k.modified then .unsavedPrompt k else .desktop} := by
  unfold State.step
  rw [hk]
  dsimp only [kateKey]
  cases k.modified with
  | true => rfl
  | false => rfl

/-- Escape takes the question back. -/
theorem step_asking {k : Kate} (hk : m.d.program = .unsavedPrompt k) :
    m.d.step scan (.key keyEsc) = .ok {m.d with program := .kate k} := by
  unfold State.step
  rw [hk]
  rfl

theorem leaves_saved {k : Kate} (hfront : m.front = .program) (hk : m.d.program = .kate k) (hsaved : k.modified = false)
    (n : Nat) : Leaves scan (n + 1) m := by
  have hstep := step_editor scan hk
  rw [hsaved] at hstep
  exact leaves_closed (step_ran hfront hstep) rfl rfl n

/-- With unsaved changes the editor stays. -/
theorem leaves_modified {k : Kate} (hmod : k.modified = true) (n : Nat) (hfront : m.front = .program)
    (hk : InEditor m.d k) : Leaves scan n m := by
  induction n generalizing m with
  | zero => exact ⟨m, rfl, rfl, .inr ⟨k, hmod, hk, hk⟩⟩
  | succ n ih =>
    have hsame {k' : Kate} {p : Program} (hp : p = .kate k' ∨ p = .unsavedPrompt k')
        (hd : InEditor m.d k') (j : Kate) (hj : InEditor {m.d with program := p} j) : InEditor m.d j := by
      rcases hp with rfl | rfl
      · rcases hj with hj | hj
        · cases hj
          exact hd
        · cases hj
      · rcases hj with hj | hj
        · cases hj
        · cases hj
          exact hd
    rcases hk with hk | hk
    · have hstep := step_editor scan hk
      rw [hmod] at hstep
      exact .step (step_ran hfront hstep) rfl (hsame (.inr rfl) (.inl hk)) (ih hfront (.inr rfl))
    · exact .step (step_ran hfront (step_asking hk)) rfl (hsame (.inl rfl) (.inr hk)) (ih hfront (.inl rfl))

theorem leaves_settings {c : Settings} (hfront : m.front = .program) (hc : m.d.program = .settings c)
    (hediting : c.editing = false) (n : Nat) : Leaves scan (n + 1) m := by
  have hstep : m.d.step scan (.key keyEsc) = .ok {m.d with program := .desktop, setInput := c.input} := by
    unfold State.step
    rw [hc]
    dsimp only [setKey]
    rw [hediting]
    rfl
  exact leaves_closed (step_ran hfront hstep) rfl rfl n

end Escape

/-- **Three Escapes lead back to the desktop**, whatever is open, and change neither the files nor the disk, but for the
terminal, that is left by a command, and for an editor with unsaved changes, that stays as it is. -/
theorem escapes_lead_back (scan : Scan) (m : Desk) (hm : m.Consistent) (hoff : m.front ≠ .off)
    (hterminal : m.d.program.isTerminal = false) : Leaves scan 3 m := by
  cases hfront : m.front with
  | desktop => exact ⟨m, escapes_desktop hfront 3, rfl, .inl hfront⟩
  | kickoff sel =>
    have hstep : m.step scan escape = .ok {m with front := .desktop} := by
      unfold Desk.step escape
      rw [hfront]
      rfl
    exact leaves_closed hstep rfl rfl 2
  | contextMenu sel =>
    have hstep : m.step scan escape = .ok {m with front := .desktop} := by
      unfold Desk.step escape
      rw [hfront]
      rfl
    exact leaves_closed hstep rfl rfl 2
  | runDialog input => exact leaves_runDialog hfront 2
  | unknownApp input =>
    have hstep : m.step scan escape = .ok {m with front := .runDialog input} := by
      unfold Desk.step escape
      rw [hfront]
      rfl
    exact .step hstep rfl (fun _ hk => hk) (leaves_runDialog rfl 1)
  | fileman fm => exact leaves_fileman hfront 2
  | viewer fm w =>
    have hstep : m.step scan escape = .ok {m with front := .fileman fm} := by
      unfold Desk.step escape
      rw [hfront]
      rfl
    exact .step hstep rfl (fun _ hk => hk) (leaves_fileman rfl 1)
  | sysmon =>
    have hstep : m.step scan escape = .ok {m with front := .desktop, app := -1} := by
      unfold Desk.step escape
      rw [hfront]
      rfl
    exact leaves_closed hstep rfl rfl 2
  | about =>
    have hstep : m.step scan escape = .ok {m with front := .desktop} := by
      unfold Desk.step escape
      rw [hfront]
      rfl
    exact leaves_closed hstep rfl rfl 2
  | shutdown sel =>
    have hstep : m.step scan escape = .ok {m with front := .desktop} := by
      unfold Desk.step escape
      rw [hfront]
      rfl
    exact leaves_closed hstep rfl rfl 2
  | off => exact absurd hfront hoff
  | program =>
    cases hprogram : m.d.program with
    | desktop =>
      have hruns := hm.program.mp hfront
      rw [hprogram] at hruns
      cases hruns
    | terminal =>
      rw [hprogram] at hterminal
      cases hterminal
    | kate k =>
      cases hmod : k.modified with
      | true => exact leaves_modified hmod 3 hfront (.inl hprogram)
      | false => exact leaves_saved hfront hprogram hmod 2
    | unsavedPrompt k =>
      cases hmod : k.modified with
      | true => exact leaves_modified hmod 3 hfront (.inr hprogram)
      | false =>
        have hback (j : Kate) (hj : InEditor {m.d with program := .kate k} j) : InEditor m.d j := by
          rcases hj with hj | hj
          · cases hj
            exact .inr hprogram
          · cases hj
        exact .step (step_ran hfront (step_asking hprogram)) rfl hback
          (leaves_saved (m := {m with d := {m.d with program := .kate k}}) hfront rfl hmod 1)
    | settings c =>
      cases hediting : c.editing with
      | false => exact leaves_settings hfront hprogram hediting 2
      | true =>
        have hstep : m.d.step scan (.key keyEsc) = .ok {m.d with program := .settings {c with editing := false}} := by
          unfold State.step
          rw [hprogram]
          dsimp only [setKey]
          rw [hediting]
          rfl
        have hnone (j : Kate) (hj : InEditor {m.d with program := .settings {c with editing := false}} j) :
            InEditor m.d j := by
          rcases hj with hj | hj
          · cases hj
          · cases hj
        exact .step (step_ran hfront hstep) rfl hnone
          (leaves_settings (m := {m with d := {m.d with program := .settings {c with editing := false}}}) hfront rfl
            rfl 1)

/-- The message about a program that does not exist, over the dialog that it was asked for in. -/
def unknownDesk : Desk := {bootDesk blankDisk.drive with front := .unknownApp nothingTyped}

theorem escapes_lead_back_unknownDesk : ∃ m', escapes noDiskScan 3 unknownDesk = .ok m' ∧
    m'.d.sys = unknownDesk.d.sys ∧ m'.front = .desktop := by
  obtain ⟨m', hescapes, hsys, hfront | ⟨k, -, hk, -⟩⟩ :=
    escapes_lead_back noDiskScan unknownDesk ⟨iff_of_false nofun nofun, rfl⟩ nofun rfl
  · exact ⟨m', hescapes, hsys, hfront⟩
  · rcases hk with hk | hk <;> cases hk

end FurOS.Desktop
