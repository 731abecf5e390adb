import FurOS.Disk.Install
import FurOS.Shell.Text

/-! The pages of the installation wizard (`kernel/installer.c`).

Each page takes the keys to come and gives its result (`1` next, `0` back, `-1`
cancel) with what it leaves, or `none` while it still waits for a key. What a page
draws changes nothing else here; it is in `Installer/Drawing.lean`. -/
namespace FurOS.Installer

/-- What `keyboard_get_key` returns: characters, and codes above them for other keys. -/
abbrev Key := UInt16

def keyUp : Key := 0x100
def keyDown : Key := 0x101

/-- A character array of `cap` bytes that `run_input` edits. -/
structure InputBuffer (cap : Nat) where
  chars : List UInt8
  fits : chars.length < cap
  printable : ∀ c ∈ chars, isPrintable c = true

namespace InputBuffer
variable {cap : Nat}

def push (buf : InputBuffer cap) (c : UInt8) (h : isPrintable c = true ∧ buf.chars.length < cap - 1) :
    InputBuffer cap where
  chars := buf.chars ++ [c]
  fits := by
    rw [List.length_append, List.length_singleton]
    omega
  printable := by
    intro x hx
    rw [List.mem_append, List.mem_singleton] at hx
    cases hx with
    | inl hx => exact buf.printable x hx
    | inr hx => exact hx ▸ h.1

/-- A text of the source, held by an array. -/
def ofText (text : String) (hfits : (lit text).length < cap := by decide)
    (hprintable : (lit text).all isPrintable = true := by decide) : InputBuffer cap where
  chars := lit text
  fits := hfits
  printable := List.all_eq_true.mp hprintable

def back (buf : InputBuffer cap) : InputBuffer cap where
  chars := buf.chars.dropLast
  fits := by
    have := buf.fits
    rw [List.length_dropLast]
    omega
  printable := fun x hx => buf.printable x (List.dropLast_subset _ hx)

end InputBuffer

/-- An empty password. -/
def noPassword : InputBuffer 64 := ⟨[], by decide, List.forall_mem_nil _⟩

/-- `"furos"`, `"debian"` and `"UTC"`. -/
def defaultHostname : InputBuffer 32 := .ofText "furos"
def defaultUsername : InputBuffer 32 := .ofText "debian"
def utc : InputBuffer 32 := .ofText "UTC"

/-- `struct wiz`. -/
structure Wiz where
  diskIndex : Int
  hostname : InputBuffer 32
  timezone : InputBuffer 32
  rootPw : InputBuffer 64
  username : InputBuffer 32
  userPw : InputBuffer 64

/-! ### Menus and prompts -/

/-- The loop of `run_menu`; `none` for a cancelled menu. -/
def runMenu {count : Nat} (sel : Fin count) : List Key → Option (Option (Fin count) × List Key)
  | [] => none
  | key :: keys =>
    if key = keyUp ∧ sel.val > 0 then runMenu ⟨sel.val - 1, by omega⟩ keys
    else if h : key = keyDown ∧ sel.val + 1 < count then runMenu ⟨sel.val + 1, h.2⟩ keys
    else if key = 10 ∨ key = 13 then some (some sel, keys)
    else if key = 27 ∨ key = 0x71 ∨ key = 0x51 then some (none, keys)
    else runMenu sel keys

/-- The loop of `run_input`, with its status. -/
def runInput {cap : Nat} (buf : InputBuffer cap) : List Key → Option (Int × InputBuffer cap × List Key)
  | [] => none
  | key :: keys =>
    if key = 10 ∨ key = 13 then some (0, buf, keys)
    else if key = 27 then some (-1, buf, keys)
    else if key = 8 ∧ buf.chars ≠ [] then runInput buf.back keys
    else if h : isPrintable key.toUInt8 = true ∧ buf.chars.length < cap - 1 then
      runInput (buf.push key.toUInt8 h) keys
    else runInput buf keys

/-! ### Pages -/

/-- How a page ends: its result, what it leaves of the wizard's state, what its last prompt took and
the keys left over. -/
structure PageEnd where
  result : Int
  ws : Wiz
  typed : List UInt8
  keys : List Key

def stageWelcome (n : Int) (w : Wiz) : List Key → Option PageEnd
  | [] => none
  | k :: keys =>
    if (k = 10 ∨ k = 13) ∧ n > 0 then some ⟨1, w, [], keys⟩
    else if k = 0x71 ∨ k = 0x51 ∨ k = 27 then some ⟨-1, w, [], keys⟩
    else stageWelcome n w keys

/-- Where the menu of disks begins. -/
def diskMenuStart (w : Wiz) (count : Nat) (h : 0 < count) : Fin count :=
  if hsel : 0 ≤ w.diskIndex ∧ w.diskIndex < count then ⟨w.diskIndex.toNat, by omega⟩ else ⟨0, h⟩

def stageDisk (devices : Devices) (w : Wiz) (d : Disk) (keys : List Key) : Option (PageEnd × Disk) :=
  if h : d.diskCount ≤ 0 ∨ d.diskCount > 16 then some (⟨-1, w, [], keys⟩, d)
  else
    match runMenu (diskMenuStart w d.diskCount.toNat (by omega)) keys with
    | none => none
    | some (none, keys) => some (⟨0, w, [], keys⟩, d)
    | some (some sel, keys) =>
      match diskSelect devices sel.val d with
      | (status, d) =>
        if status ≠ 0 then
          -- "Press any key."
          match keys with
          | [] => none
          | _ :: keys => some (⟨0, w, [], keys⟩, d)
        else some (⟨1, {w with diskIndex := sel.val}, [], keys⟩, d)

/-- An empty hostname is replaced before it is asked for. -/
def withHostname (w : Wiz) : Wiz := if w.hostname.chars = [] then {w with hostname := defaultHostname} else w

def stageHostname (w : Wiz) (keys : List Key) : Option PageEnd :=
  let w := withHostname w
  match runInput w.hostname keys with
  | none => none
  | some (rc, hostname, keys) =>
    let w := {w with hostname := hostname}
    if rc < 0 then some ⟨0, w, hostname.chars, keys⟩
    else if w.hostname.chars = [] then some ⟨1, {w with hostname := defaultHostname}, hostname.chars, keys⟩
    else some ⟨1, w, hostname.chars, keys⟩

def tzones : Fin 15 → InputBuffer 32 :=
  ![utc, .ofText "America/New_York", .ofText "America/Chicago", .ofText "America/Denver",
    .ofText "America/Los_Angeles", .ofText "America/Sao_Paulo", .ofText "Europe/London",
    .ofText "Europe/Paris", .ofText "Europe/Berlin", .ofText "Europe/Moscow", .ofText "Asia/Dubai",
    .ofText "Asia/Kolkata", .ofText "Asia/Tokyo", .ofText "Asia/Shanghai", .ofText "Australia/Sydney"]

/-- The first timezone that is the current one. -/
def timezoneMenuStart (w : Wiz) : Fin 15 :=
  ((List.finRange 15).find? fun i => w.timezone.chars = (tzones i).chars).getD 0

def stageTimezone (w : Wiz) (keys : List Key) : Option PageEnd :=
  match runMenu (timezoneMenuStart w) keys with
  | none => none
  | some (none, keys) => some ⟨0, w, [], keys⟩
  | some (some sel, keys) => some ⟨1, {w with timezone := tzones sel}, [], keys⟩

theorem runInput_length {cap : Nat} {buf buf' : InputBuffer cap} {keys rest : List Key} {rc : Int}
    (h : runInput buf keys = some (rc, buf', rest)) : rest.length < keys.length := by
  induction keys generalizing buf with
  | nil => cases h
  | cons key keys ih =>
    rw [runInput] at h
    rw [List.length_cons]
    split_ifs at h
    · cases h
      exact Nat.lt_succ_self _
    · cases h
      exact Nat.lt_succ_self _
    · exact (ih h).trans (Nat.lt_succ_self _)
    · exact (ih h).trans (Nat.lt_succ_self _)
    · exact (ih h).trans (Nat.lt_succ_self _)

/-- One pass of a page that asks for a password twice: it ends, or begins again with these keys, which
are fewer. -/
inductive Pass (keys : List Key) where
  | done (e : PageEnd)
  | again (w : Wiz) (rest : List Key) (h : rest.length < keys.length)

/-- Passes until one ends. -/
def retrying (pass : Wiz → (keys : List Key) → Option (Pass keys)) (w : Wiz) (keys : List Key) :
    Option PageEnd :=
  match pass w keys with
  | none => none
  | some (.done e) => some e
  | some (.again w rest _) => retrying pass w rest
  termination_by keys.length

/-- The confirmation of the password `pw`, and the key that is waited for where it differs. -/
def confirmPassword {before : List Key} (w : Wiz) (pw : InputBuffer 64) (cleared : Wiz) (keys : List Key)
    (hkeys : keys.length < before.length) : Option (Pass before) :=
  match h : runInput noPassword keys with
  | none => none
  | some (rc, confirm, rest) =>
    if rc < 0 then some (.done ⟨0, w, confirm.chars, rest⟩)
    else if pw.chars ≠ confirm.chars then
      match rest, runInput_length h with
      | [], _ => none
      | _ :: rest, hrest => some (.again cleared rest (by rw [List.length_cons] at hrest; omega))
    else some (.done ⟨1, w, confirm.chars, rest⟩)

def rootPwPass (w : Wiz) (keys : List Key) : Option (Pass keys) :=
  match h : runInput w.rootPw keys with
  | none => none
  | some (rc, rootPw, rest) =>
    let w := {w with rootPw := rootPw}
    if rc < 0 then some (.done ⟨0, w, rootPw.chars, rest⟩)
    else confirmPassword w rootPw {w with rootPw := noPassword} rest (runInput_length h)

def stageRootPw : Wiz → List Key → Option PageEnd := retrying rootPwPass

/-- `stage_user` after the username has been taken. -/
def userPwPass {before : List Key} (w : Wiz) (keys : List Key) (hkeys : keys.length < before.length) :
    Option (Pass before) :=
  match h : runInput w.userPw keys with
  | none => none
  | some (rc, userPw, rest) =>
    let w := {w with userPw := userPw}
    if rc < 0 then some (.done ⟨0, w, userPw.chars, rest⟩)
    else confirmPassword w userPw {w with userPw := noPassword} rest ((runInput_length h).trans hkeys)

/-- An empty username is replaced before it is asked for. -/
def withUsername (w : Wiz) : Wiz := if w.username.chars = [] then {w with username := defaultUsername} else w

def userPass (w : Wiz) (keys : List Key) : Option (Pass keys) :=
  let w := withUsername w
  match h : runInput w.username keys with
  | none => none
  | some (rc, username, rest) =>
    let w := {w with username := username}
    if rc < 0 then some (.done ⟨0, w, username.chars, rest⟩)
    else if w.username.chars.length < 2 then
      userPwPass {w with username := defaultUsername} rest (runInput_length h)
    else userPwPass w rest (runInput_length h)

def stageUser : Wiz → List Key → Option PageEnd := retrying userPass

def stageSummary (w : Wiz) (keys : List Key) : Option PageEnd :=
  match runInput (⟨[], by decide, List.forall_mem_nil _⟩ : InputBuffer 8) keys with
  | none => none
  | some (rc, confirm, keys) =>
    if rc < 0 then some ⟨0, w, confirm.chars, keys⟩
    else if confirm.chars ≠ lit "YES" ∧ confirm.chars ≠ lit "yes" then some ⟨0, w, confirm.chars, keys⟩
    else some ⟨1, w, confirm.chars, keys⟩

end FurOS.Installer
