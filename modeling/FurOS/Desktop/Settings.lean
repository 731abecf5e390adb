import FurOS.Desktop.Kate

/-! The system settings (`kernel/desktop.c`).

The hostname and the timezone are read from `etc` when the settings are opened and written there
with F2. A key moves between pages and fields, edits a field, saves or closes. -/
namespace FurOS.Desktop
open Installer (Key keyUp keyDown)

/-- The string of a character array of 32 bytes. -/
structure TextField where
  chars : List UInt8
  noNul : 0 ∉ chars
  fits : chars.length < 32

namespace TextField

def back (f : TextField) : TextField where
  chars := f.chars.dropLast
  noNul h := f.noNul (List.dropLast_subset _ h)
  fits := by
    have := f.fits
    rw [List.length_dropLast]
    omega

def push (f : TextField) (c : UInt8) (h : c ≠ 0 ∧ f.chars.length < 31) : TextField where
  chars := f.chars ++ [c]
  noNul hmem := by
    rcases List.mem_append.mp hmem with hold | hnew
    · exact f.noNul hold
    · exact h.1 (List.mem_singleton.mp hnew).symm
  fits := by
    have := h.2
    rw [List.length_append, List.length_singleton]
    omega

/-- The first 31 characters of a file's data, up to its first line end. -/
def ofData (data : Fin 4096 → UInt8) : TextField where
  chars := (((List.ofFn data).take 31).takeWhile fun c => decide (c ≠ 0)).takeWhile fun c =>
    decide (c ≠ 10 ∧ c ≠ 13)
  noNul h := by simpa using List.mem_takeWhile_imp ((List.takeWhile_prefix _).subset h)
  fits := by
    have hline := (List.takeWhile_prefix (l := ((List.ofFn data).take 31).takeWhile fun c => decide (c ≠ 0))
      fun c => decide (c ≠ 10 ∧ c ≠ 13)).length_le
    have htext := (List.takeWhile_prefix (l := (List.ofFn data).take 31) fun c => decide (c ≠ 0)).length_le
    have hfront := List.length_take_le 31 (List.ofFn data)
    omega

theorem empty_noNul : (0 : UInt8) ∉ ([] : List UInt8) := List.not_mem_nil

theorem empty_fits : ([] : List UInt8).length < 32 := by decide

def empty : TextField := ⟨[], empty_noNul, empty_fits⟩

end TextField

theorem furos_noNul : 0 ∉ lit "furos" := by decide

theorem furos_fits : (lit "furos").length < 32 := by decide

theorem utc_noNul : 0 ∉ lit "UTC" := by decide

theorem utc_fits : (lit "UTC").length < 32 := by decide

def settingsFuros : TextField := ⟨lit "furos", furos_noNul, furos_fits⟩
def settingsUtc : TextField := ⟨lit "UTC", utc_noNul, utc_fits⟩

structure Settings where
  page : Fin 3
  field : Nat
  editing : Bool
  input : TextField
  hostname : TextField
  timezone : TextField
  changed : Bool

/-- One file of `set_load`: its first line, or what was there before. -/
def setLoadFile (t : Nodes) (etc : Int) (name : String) (before : TextField) : Except Fault TextField := do
  match ← fsReadFile t etc (.ofLit name) with
  | none => return before
  | some (data, size) => if size > 0 then return .ofData data else return before

/-- `run_settings` up to its loop; `set_input` keeps what was typed last. -/
def setOpen (t : Nodes) (input : TextField) : Except Fault Settings := do
  let etc ← fsResolve t fsGetRoot (.ofLit "etc")
  let hostname ← if etc ≥ 0 then setLoadFile t etc "hostname" settingsFuros else pure settingsFuros
  let timezone ← if etc ≥ 0 then setLoadFile t etc "timezone" settingsUtc else pure settingsUtc
  return {
    page := 0
    field := 0
    editing := false
    input := input
    hostname := hostname
    timezone := timezone
    changed := false }

/-- The two files of `set_save`, where there is an `etc`. -/
def setWrite (c : Settings) (t : Nodes) (etc : Int) : Except Fault Nodes :=
  if etc ≥ 0 then do
    let (_, t) ← fsWriteFile t etc (.ofLit "hostname") (some c.hostname.chars) c.hostname.chars.length
    let (_, t) ← fsWriteFile t etc (.ofLit "timezone") (some c.timezone.chars) c.timezone.chars.length
    return t
  else return t

def setSave (c : Settings) (s : System) : Except Fault System := do
  let etc ← fsResolve s.nodes fsGetRoot (.ofLit "etc")
  if etc < 0 then do
    let (_, t) ← fsMkdir s.nodes fsGetRoot (.ofLit "etc")
    let etc ← fsResolve t fsGetRoot (.ofLit "etc")
    let t ← setWrite c t etc
    return diskSync {s with nodes := t}
  else do
    let t ← setWrite c s.nodes etc
    return diskSync {s with nodes := t}

/-! ### The loop -/

/-- A key while no field is edited. -/
def setMove (c : Settings) (key : Key) : Settings :=
  if h : key = keyLeft ∧ c.page.val > 0 then {c with page := ⟨c.page.val - 1, by omega⟩, field := 0}
  else if h : key = keyRight ∧ c.page.val < 2 then {c with page := ⟨c.page.val + 1, by omega⟩, field := 0}
  else if key = keyUp ∧ c.field > 0 then {c with field := c.field - 1}
  else if key = keyDown then {c with field := c.field + 1}
  else if (key = 10 ∨ key = 13) ∧ c.page = 0 then
    { c with
      editing := true
      input := if c.field = 0 then c.hostname else if c.field = 1 then c.timezone else c.input }
  else c

/-- A key typed into a field. -/
def setType (c : Settings) (key : Key) : Settings :=
  if key = 10 ∨ key = 13 then
    { c with
      hostname := if c.field = 0 then c.input else c.hostname
      timezone := if c.field = 1 then c.input else c.timezone
      editing := false
      changed := true }
  else if (key = 8 ∨ key = 127) ∧ c.input.chars ≠ [] then {c with input := c.input.back}
  else if h : (key ≥ 32 ∧ key < 127) ∧ c.input.chars.length < 31 then
    {c with input := c.input.push key.toUInt8 ⟨by
      obtain ⟨⟨hlow, hhigh⟩, _⟩ := h
      rw [ge_iff_le, UInt16.le_iff_toNat_le] at hlow
      rw [UInt16.lt_iff_toNat_lt] at hhigh
      intro h0
      have hval := congrArg UInt8.toNat h0
      simp at hval hlow hhigh
      omega, h.2⟩}
  else c

/-- One round of the loop of `run_settings`; `none` when they are closed. -/
def setKey (c : Settings) (key : Key) (s : System) : Except Fault (Option Settings × System) :=
  if key = keyEsc then return (if c.editing then some {c with editing := false} else none, s)
  else if key = keyF2 then do
    let s ← setSave c s
    return (some {c with changed := false}, s)
  else return (some (if c.editing then setType c key else setMove c key), s)

end FurOS.Desktop
