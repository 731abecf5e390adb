import FurOS.Desktop.Settings
import FurOS.Shell.Session

/-! The desktop (`desktop_run`, `launch`).

One program runs at a time: the terminal, which is the shell, the editor or the settings. All of
them work on the one table and the one disk, and only opening the terminal looks for a disk. The
file manager, the monitor and the other windows change neither and are not in this machine; they,
and the way through the menus that ends in `launch`, are in `Desktop/Desk.lean`. -/
namespace FurOS.Desktop
open Installer (Key)

/-- What `launch` starts. -/
inductive App where
  | terminal
  | kate
  | settings

inductive Program where
  | desktop
  | terminal
  | kate (k : Kate)
  | unsavedPrompt (k : Kate)
  | settings (c : Settings)

/-- The system, what runs on it, and `set_input`, which the settings leave as it was. -/
structure State where
  sys : System
  program : Program
  setInput : TextField

inductive Action where
  | launch (app : App)
  | key (key : Key)
  /-- The keys of a line in the terminal, and those that the line reads. -/
  | line (keys : List UInt8)

/-- An access that went wrong stops the step. -/
def orStop {α : Type} : Except Fault α → Except Stop α
  | .error f => .error (.fault f)
  | .ok a => .ok a

namespace State

def launch (scan : Scan) (d : State) : App → Except Stop State
  | .terminal => do
    let s ← shellStart d.sys scan
    return {d with sys := s, program := .terminal}
  | .kate => return {d with program := .kate (.opened fsGetRoot)}
  | .settings => do
    let c ← orStop (setOpen d.sys.nodes d.setInput)
    return {d with program := .settings c}

/-- What the editor leaves. -/
def edited (d : State) : Editor × System → State
  | (.typing k, s) => {d with sys := s, program := .kate k}
  | (.asking k, s) => {d with sys := s, program := .unsavedPrompt k}
  | (.closed, s) => {d with sys := s, program := .desktop}

/-- What the settings leave. -/
def set (d : State) (input : TextField) : Option Settings × System → State
  | (some c, s) => {d with sys := s, program := .settings c}
  | (none, s) => {sys := s, program := .desktop, setInput := input}

/-- One round of the shell, and the end of `shell_run` where it was the last. -/
def line (d : State) (keys : List UInt8) : Except Stop State := do
  let s ← shellIteration {d.sys with keys := d.sys.keys ++ keys}
  return if s.shellExit then {d with sys := shellFinish s, program := .desktop} else {d with sys := s}

/-- One step, given what every scan for disks finds. What the running program does not take changes
nothing. -/
def step (scan : Scan) (a : Action) (d : State) : Except Stop State :=
  match d.program, a with
  | .desktop, .launch app => d.launch scan app
  | .kate k, .key key => do
    let after ← orStop (kateKey k key d.sys)
    return d.edited after
  | .unsavedPrompt k, .key key => do
    let after ← orStop (kateUnsavedPrompt k key d.sys)
    return d.edited after
  | .settings c, .key key => do
    let after ← orStop (setKey c key d.sys)
    return d.set c.input after
  | .terminal, .line keys => d.line keys
  | _, _ => return d

end State

/-- The disk layer's variables when the system comes up. -/
def bootDisk (drive : Drive) : Disk :=
  { diskCount := 0
    selectedDisk := -1
    lastError := .ofLit "ok"
    sector := fun _ => 0
    payload := fun _ => 0
    drive := drive }

/-- The desktop when the system comes up: a table of zeros, and no disk looked for. -/
def boot (drive : Drive) : State :=
  { sys :=
      { nodes := fun _ => .zero
        disk := bootDisk drive
        shellCwd := 0
        shellUid := shellUidDebian
        shellExit := false
        network := .initial
        keys := []
        screen := [] }
    program := .desktop
    setInput := .empty }

end FurOS.Desktop
