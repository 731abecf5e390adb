import FurOS.Installer.Drawing
import FurOS.Installer.Wizard

/-! The installation wizard key by key, with its screen.

`Stages` and `Wizard` run a page at once on the keys to come. Here the wizard waits for one key at a time, and what it
waits with is what `keyboard_get_key` finds on the screen. A run of pages is a run of keys (`reached_typed`). -/
namespace FurOS.Installer

/-- What the wizard runs on: the image it installs, the devices, what else is known of them, and what is shown of a scan
that finds none. -/
structure Hardware where
  l : Linked
  devices : Devices
  info : Int → Ata.AtaDeviceInfo
  debug : Ata.AtaDebugState
  lastError : CStr

/-- `disk_get_info`, with all that it stores. -/
def Hardware.diskInfo (hw : Hardware) (index : Int) : Option Ata.AtaDeviceInfo :=
  (diskGetInfo hw.devices index).map fun device => {hw.info index with sectors28 := device.sectors28}

def Hardware.diskLines (hw : Hardware) (cnt : Nat) : List (List UInt8) :=
  (List.range cnt).map fun i => diskLine i (hw.diskInfo i)

def tzoneItems : List (List UInt8) := List.ofFn fun i => (tzones i).chars

/-! ### One key -/

inductive Picked (count : Nat) where
  | moved (sel : Fin count)
  | chosen
  | cancelled

theorem menuUp_lt {count : Nat} (sel : Fin count) : sel.val - 1 < count := by omega

theorem menuDown_lt {count : Nat} {sel : Fin count} {key : Key} (h : key = keyDown ∧ sel.val + 1 < count) :
    sel.val + 1 < count := h.2

/-- A key of a menu. -/
def menuKey {count : Nat} (sel : Fin count) (key : Key) : Picked count :=
  if key = keyUp ∧ sel.val > 0 then .moved ⟨sel.val - 1, menuUp_lt sel⟩
  else if h : key = keyDown ∧ sel.val + 1 < count then .moved ⟨sel.val + 1, menuDown_lt h⟩
  else if key = 10 ∨ key = 13 then .chosen
  else if key = 27 ∨ key = 0x71 ∨ key = 0x51 then .cancelled
  else .moved sel

inductive Typed (cap : Nat) where
  | typing (buf : InputBuffer cap)
  | entered
  | escaped

/-- A key of `run_input`. -/
def inputKey {cap : Nat} (buf : InputBuffer cap) (key : Key) : Typed cap :=
  if key = 10 ∨ key = 13 then .entered
  else if key = 27 then .escaped
  else if key = 8 ∧ buf.chars ≠ [] then .typing buf.back
  else if h : isPrintable key.toUInt8 = true ∧ buf.chars.length < cap - 1 then .typing (buf.push key.toUInt8 h)
  else .typing buf

/-- What waits for the next key. -/
inductive Prompt where
  | welcome
  | disk (count : Nat) (sel : Fin count)
  | cannotSelect
  | hostname
  | timezone (sel : Fin 15)
  | rootPw
  | rootConfirm (confirm : InputBuffer 64)
  | rootMismatch
  | username
  | userPw
  | userConfirm (confirm : InputBuffer 64)
  | userMismatch
  | summary (confirm : InputBuffer 8)
  | noDisk
  | failed
  | cancelled
  | complete
  /-- `halt_forever`. -/
  | halted

/-- The wizard while it waits. -/
structure Ui where
  ws : Wiz
  prompt : Prompt
  nodes : Nodes
  disk : Disk
  screen : Vga

namespace Ui

/-- Another prompt, with what has been drawn for it. -/
def ask (u : Ui) (prompt : Prompt) (draw : Vga → Vga) : Ui := {u with prompt := prompt, screen := draw u.screen}

theorem confirmation_fits : ([] : List UInt8).length < 8 := by decide

theorem confirmation_printable : ∀ c ∈ ([] : List UInt8), isPrintable c = true := List.forall_mem_nil _

def confirmation : InputBuffer 8 := ⟨[], confirmation_fits, confirmation_printable⟩

/-- `stage_install`, and what comes after it. -/
def install (hw : Hardware) (u : Ui) : Except Fault Ui :=
  let v := beginStep 0 (drawInstallPage u.screen)
  match diskInstallSystem hw.l ((diskGetInfo hw.devices u.disk.selectedDisk).map (·.sectors28)) u.disk with
  | (status, d) =>
    if status ≠ 0 then .ok {u with disk := d, prompt := .failed, screen := drawFailed 0 d.lastError v}
    else
      let v := beginStep 1 (endStep 0 v)
      match diskFormatFs d with
      | (status, t, d) =>
        if status ≠ 0 then
          .ok {u with nodes := t, disk := d, prompt := .failed, screen := drawFailed 1 d.lastError v}
        else do
          let t ← installDirs u.ws t
          let t ← installConfig u.ws t
          let v := endStep 3 (beginStep 3 (endStep 2 (beginStep 2 (endStep 1 v))))
          let v := beginStep 4 v
          match diskSaveFs t d with
          | (status, d) =>
            if status ≠ 0 then
              return {u with nodes := t, disk := d, prompt := .failed, screen := drawFailed 4 d.lastError v}
            else
              let v := drawProgress (contTop + 8) 100 (endStep 4 v)
              return {u with nodes := t, disk := d, prompt := .complete, screen := drawComplete u.ws v}

def cancel (u : Ui) : Ui := u.ask .cancelled drawCancelled

/-- A page up to its first key. -/
def openPage (hw : Hardware) (stage : Nat) (u : Ui) : Except Fault Ui :=
  match stage with
  | 0 => .ok (u.ask .welcome (drawWelcome u.disk.diskCount))
  | 1 =>
    if h : u.disk.diskCount ≤ 0 ∨ u.disk.diskCount > 16 then .ok u.cancel
    else
      let cnt := u.disk.diskCount.toNat
      let sel := diskMenuStart u.ws cnt (by omega)
      .ok (u.ask (.disk cnt sel) fun v => drawMenu 2 (contTop + 3) 76 (hw.diskLines cnt) sel (drawDiskPage v))
  | 2 =>
    let ws := withHostname u.ws
    .ok ({u with ws := ws}.ask .hostname fun v =>
      drawInput 2 (contTop + 6) 40 ws.hostname.chars false (drawHostnamePage v))
  | 3 =>
    let sel := timezoneMenuStart u.ws
    .ok (u.ask (.timezone sel) fun v => drawMenu 2 (contTop + 2) 76 tzoneItems sel (drawTimezonePage v))
  | 4 => .ok (u.ask .rootPw fun v => drawInput 2 (contTop + 5) 44 u.ws.rootPw.chars true (drawRootPwPage v))
  | 5 =>
    let ws := withUsername u.ws
    .ok ({u with ws := ws}.ask .username fun v =>
      drawInput 2 (contTop + 5) 30 ws.username.chars false (drawUserPage v))
  | 6 => .ok (u.ask (.summary confirmation) fun v =>
      drawInput 2 (contTop + 13) 12 [] false (drawSummaryPage u.ws (hw.diskInfo u.ws.diskIndex) v))
  | _ => u.install hw

/-- What `installer_run` does with the result of a page. -/
def turn (hw : Hardware) (stage : Nat) (result : Int) (u : Ui) : Except Fault Ui :=
  if result > 0 then u.openPage hw (stage + 1)
  else if result = 0 then u.openPage hw (stage - 1)
  else .ok u.cancel

/-- One key. -/
def step (hw : Hardware) (key : Key) (u : Ui) : Except Fault Ui :=
  match u.prompt with
  | .welcome =>
    if (key = 10 ∨ key = 13) ∧ u.disk.diskCount > 0 then u.turn hw 0 1
    else if key = 0x71 ∨ key = 0x51 ∨ key = 27 then u.turn hw 0 (-1)
    else .ok u
  | .disk cnt sel =>
    match menuKey sel key with
    | .moved sel => .ok (u.ask (.disk cnt sel) (drawMenu 2 (contTop + 3) 76 (hw.diskLines cnt) sel))
    | .cancelled => u.turn hw 1 0
    | .chosen =>
      match diskSelect hw.devices sel.val u.disk with
      | (status, d) =>
        if status ≠ 0 then
          .ok ({u with disk := d}.ask .cannotSelect
            (sayAt 2 (contTop + 3 + cnt + 3) (lit "Cannot select disk! Press any key.") Vga.lightRed))
        else {u with disk := d, ws := {u.ws with diskIndex := sel.val}}.turn hw 1 1
  | .cannotSelect => u.turn hw 1 0
  | .hostname =>
    match inputKey u.ws.hostname key with
    | .typing buf =>
      .ok ({u with ws := {u.ws with hostname := buf}}.ask .hostname (drawInput 2 (contTop + 6) 40 buf.chars false))
    | .escaped => u.turn hw 2 0
    | .entered => {u with ws := withHostname u.ws}.turn hw 2 1
  | .timezone sel =>
    match menuKey sel key with
    | .moved sel => .ok (u.ask (.timezone sel) (drawMenu 2 (contTop + 2) 76 tzoneItems sel))
    | .cancelled => u.turn hw 3 0
    | .chosen => {u with ws := {u.ws with timezone := tzones sel}}.turn hw 3 1
  | .rootPw =>
    match inputKey u.ws.rootPw key with
    | .typing buf =>
      .ok ({u with ws := {u.ws with rootPw := buf}}.ask .rootPw (drawInput 2 (contTop + 5) 44 buf.chars true))
    | .escaped => u.turn hw 4 0
    | .entered => .ok (u.ask (.rootConfirm noPassword) (drawInput 2 (contTop + 9) 44 [] true))
  | .rootConfirm confirm =>
    match inputKey confirm key with
    | .typing buf => .ok (u.ask (.rootConfirm buf) (drawInput 2 (contTop + 9) 44 buf.chars true))
    | .escaped => u.turn hw 4 0
    | .entered =>
      if u.ws.rootPw.chars ≠ confirm.chars then .ok (u.ask .rootMismatch (drawMismatch (contTop + 11)))
      else u.turn hw 4 1
  | .rootMismatch => {u with ws := {u.ws with rootPw := noPassword}}.openPage hw 4
  | .username =>
    match inputKey u.ws.username key with
    | .typing buf =>
      .ok ({u with ws := {u.ws with username := buf}}.ask .username (drawInput 2 (contTop + 5) 30 buf.chars false))
    | .escaped => u.turn hw 5 0
    | .entered =>
      let username := if u.ws.username.chars.length < 2 then defaultUsername else u.ws.username
      .ok ({u with ws := {u.ws with username := username}}.ask .userPw
        (drawInput 2 (contTop + 9) 44 u.ws.userPw.chars true))
  | .userPw =>
    match inputKey u.ws.userPw key with
    | .typing buf =>
      .ok ({u with ws := {u.ws with userPw := buf}}.ask .userPw (drawInput 2 (contTop + 9) 44 buf.chars true))
    | .escaped => u.turn hw 5 0
    | .entered => .ok (u.ask (.userConfirm noPassword) (drawInput 2 (contTop + 13) 44 [] true))
  | .userConfirm confirm =>
    match inputKey confirm key with
    | .typing buf => .ok (u.ask (.userConfirm buf) (drawInput 2 (contTop + 13) 44 buf.chars true))
    | .escaped => u.turn hw 5 0
    | .entered =>
      if u.ws.userPw.chars ≠ confirm.chars then .ok (u.ask .userMismatch (drawMismatch (contTop + 15)))
      else u.turn hw 5 1
  | .userMismatch => {u with ws := {u.ws with userPw := noPassword}}.openPage hw 5
  | .summary confirm =>
    match inputKey confirm key with
    | .typing buf => .ok (u.ask (.summary buf) (drawInput 2 (contTop + 13) 12 buf.chars false))
    | .escaped => u.turn hw 6 0
    | .entered =>
      if confirm.chars ≠ lit "YES" ∧ confirm.chars ≠ lit "yes" then u.turn hw 6 0 else u.turn hw 6 1
  | .noDisk | .failed | .complete => .ok (u.ask .halted id)
  | .cancelled => if key ≤ 127 then .ok (u.ask .halted id) else .ok u  -- `keyboard_getchar`
  | .halted => .ok u

/-- Keys, one after another. -/
def run (hw : Hardware) : List Key → Ui → Except Fault Ui
  | [], u => .ok u
  | key :: keys, u => u.step hw key >>= run hw keys

/-- `installer_run` up to its first key. -/
def begin (hw : Hardware) (d : Disk) (v : Vga) : Except Fault Ui :=
  let d := diskInit ⟨hw.devices.count, hw.lastError⟩ {d with drive := (hw.devices.device 0).drive}
  let v := ({v with vpTop := 0, vpBot := Vga.height - 1}.setColor Vga.lightGrey Vga.black).clear
  let u : Ui := ⟨initialWiz, .noDisk, fsInit, d, v⟩
  if d.diskCount ≤ 0 then .ok (u.ask .noDisk (drawNoDisk hw.debug d.lastError)) else u.openPage hw 0

end Ui

end FurOS.Installer
