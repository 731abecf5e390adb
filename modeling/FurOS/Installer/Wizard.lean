import FurOS.Installer.Install
import FurOS.Foundation.Run

/-! The installation wizard (`installer_run`).

`State` is the wizard between two pages, with the keys to come. `history` records
each page that has run: with what state it was shown, how it ended and what its last
prompt took. The installation is entered only as a `ReadyToInstall` state. -/
namespace FurOS.Installer

/-- One run of a page. -/
structure Visit where
  stage : Nat
  before : Wiz
  result : Int
  typed : List UInt8

structure State where
  stage : Nat
  ws : Wiz
  nodes : Nodes
  disk : Disk
  keys : List Key
  history : List Visit

section Run
variable (l : Linked) (devices : Devices)

/-- The page of a stage before the last. -/
def runPage (s : State) : Option (PageEnd × Disk) :=
  match s.stage with
  | 0 => (stageWelcome s.disk.diskCount s.ws s.keys).map (·, s.disk)
  | 1 => stageDisk devices s.ws s.disk s.keys
  | 2 => (stageHostname s.ws s.keys).map (·, s.disk)
  | 3 => (stageTimezone s.ws s.keys).map (·, s.disk)
  | 4 => (stageRootPw s.ws s.keys).map (·, s.disk)
  | 5 => (stageUser s.ws s.keys).map (·, s.disk)
  | _ => (stageSummary s.ws s.keys).map (·, s.disk)

/-- What the loop does with the result of a page. -/
def turnPage (s : State) (result : Int) : Except Halt State :=
  if result > 0 then .ok {s with stage := s.stage + 1}
  else if result = 0 then .ok (if s.stage > 0 then {s with stage := s.stage - 1} else s)
  else .error .cancelled

/-- One round of the loop of `installer_run`; after it comes `stage_complete`. -/
def iteration (s : State) : Except Halt State :=
  if s.stage < 7 then
    match runPage devices s with
    | none => .error .waiting
    | some (e, d) =>
      turnPage
        {s with
          ws := e.ws
          disk := d
          keys := e.keys
          history := ⟨s.stage, s.ws, e.result, e.typed⟩ :: s.history}
        e.result
  else if s.stage = 7 then
    match stageInstall l devices s.ws s.disk with
    | .error halt => .error halt
    | .ok (t, d) => .ok {s with nodes := t, disk := d, stage := 8}
  else .error .complete

end Run

/-- The wizard's state before its first page. -/
def initialWiz : Wiz :=
  { diskIndex := -1
    hostname := defaultHostname
    timezone := utc
    rootPw := noPassword
    username := defaultUsername
    userPw := noPassword }

/-- `installer_run` before its loop, given the devices, the error of a scan that finds none and the
keys to come; `none` for `show_no_disk`. -/
def installerStart (devices : Devices) (lastError : CStr) (d : Disk) (keys : List Key) : Option State :=
  let d := diskInit ⟨devices.count, lastError⟩ {d with drive := (devices.device 0).drive}
  if d.diskCount ≤ 0 then none
  else some { stage := 0, ws := initialWiz, nodes := fsInit, disk := d, keys := keys, history := [] }

/-- The states that the loop passes through. -/
def Reached (l : Linked) (devices : Devices) (start : State) : State → Prop :=
  Foundation.Reachable (fun _ : Unit => iteration l devices) (fun _ _ => True) start

/-! ### What each page leaves -/

theorem back_not_next : ¬ (0 : Int) > 0 := by decide

theorem cancel_not_next : ¬ (-1 : Int) > 0 := by decide

theorem stageWelcome_spec {n : Int} {w : Wiz} {keys : List Key} {e : PageEnd}
    (h : stageWelcome n w keys = some e) : e.ws = w := by
  induction keys with
  | nil => cases h
  | cons key keys ih =>
    rw [stageWelcome] at h
    split_ifs at h
    · cases h
      rfl
    · cases h
      rfl
    · exact ih h

theorem diskSelect_ok {devices : Devices} {index : Int} {d d' : Disk}
    (h : diskSelect devices index d = (0, d')) :
    (0 ≤ index ∧ index < devices.count) ∧ d'.selectedDisk = index ∧ d'.diskCount = d.diskCount := by
  unfold diskSelect at h
  split_ifs at h with hrange
  · cases h
  · cases h
    rw [not_or, not_or] at hrange
    exact ⟨⟨by omega, by omega⟩, rfl, rfl⟩

theorem diskSelect_diskCount (devices : Devices) (index : Int) (d : Disk) :
    (diskSelect devices index d).2.diskCount = d.diskCount := by
  unfold diskSelect
  split <;> rfl

/-- The page of disks changes only the choice of a disk; one that goes on has selected it. -/
theorem stageDisk_spec {devices : Devices} {w : Wiz} {d d' : Disk} {keys : List Key} {e : PageEnd}
    (h : stageDisk devices w d keys = some (e, d')) :
    ∃ diskIndex, e.ws = {w with diskIndex := diskIndex} ∧ d'.diskCount = d.diskCount ∧
      (e.result > 0 → (0 ≤ diskIndex ∧ diskIndex < d.diskCount) ∧ d'.selectedDisk = diskIndex) := by
  unfold stageDisk at h
  split at h
  · cases h
    exact ⟨_, rfl, rfl, fun hpos => absurd hpos cancel_not_next⟩
  · rename_i hcount
    split at h
    · cases h
    · cases h
      exact ⟨_, rfl, rfl, fun hpos => absurd hpos back_not_next⟩
    · rename_i sel keys' _
      have hsel := sel.isLt
      have hdisk := diskSelect_diskCount devices sel.val d
      split at h
      rename_i status d₁ heq
      rw [heq] at hdisk
      split_ifs at h with hstatus
      · cases keys' with
        | nil => cases h
        | cons key rest =>
          cases h
          exact ⟨_, rfl, hdisk, fun hpos => absurd hpos back_not_next⟩
      · cases h
        have hzero : status = 0 := not_not.mp hstatus
        subst hzero
        exact ⟨_, rfl, hdisk, fun _ => ⟨⟨by show (0 : Int) ≤ sel.val; omega, by show (sel.val : Int) < _; omega⟩,
          (diskSelect_ok heq).2.1⟩⟩

theorem withHostname_update (w : Wiz) (hostname : InputBuffer 32) :
    {withHostname w with hostname := hostname} = {w with hostname := hostname} := by
  unfold withHostname
  split <;> rfl

theorem withUsername_update (w : Wiz) (username : InputBuffer 32) :
    {withUsername w with username := username} = {w with username := username} := by
  unfold withUsername
  split <;> rfl

theorem stageHostname_spec {w : Wiz} {keys : List Key} {e : PageEnd} (h : stageHostname w keys = some e) :
    ∃ hostname, e.ws = {w with hostname := hostname} ∧ (e.result > 0 → hostname.chars ≠ []) := by
  have hdefault : defaultHostname.chars ≠ [] := by decide
  unfold stageHostname at h
  dsimp only at h
  split at h
  · cases h
  · split_ifs at h with hrc hempty
    · cases h
      exact ⟨_, withHostname_update w _, fun hpos => absurd hpos back_not_next⟩
    · cases h
      exact ⟨_, withHostname_update w _, fun _ => hdefault⟩
    · cases h
      exact ⟨_, withHostname_update w _, fun _ => hempty⟩

theorem stageTimezone_spec {w : Wiz} {keys : List Key} {e : PageEnd} (h : stageTimezone w keys = some e) :
    ∃ timezone, e.ws = {w with timezone := timezone} ∧ (timezone = w.timezone ∨ ∃ i, timezone = tzones i) := by
  unfold stageTimezone at h
  split at h
  · cases h
  · cases h
    exact ⟨_, rfl, .inl rfl⟩
  · cases h
    exact ⟨_, rfl, .inr ⟨_, rfl⟩⟩

/-- What every pass keeps, and what follows when one ends. -/
theorem retrying_spec (pass : Wiz → (keys : List Key) → Option (Pass keys)) {P : Wiz → List Key → Prop}
    {Q : PageEnd → Prop}
    (hagain : ∀ w keys w' rest h, P w keys → pass w keys = some (.again w' rest h) → P w' rest)
    (hdone : ∀ w keys e, P w keys → pass w keys = some (.done e) → Q e) {w : Wiz} {keys : List Key}
    (hw : P w keys) {e : PageEnd} (h : retrying pass w keys = some e) : Q e := by
  induction keys using (measure List.length).wf.induction generalizing w with
  | _ keys ih =>
    rw [retrying] at h
    split at h
    · cases h
    · rename_i heq
      cases h
      exact hdone w keys _ hw heq
    · rename_i w' rest hrest heq
      exact ih rest hrest (hagain w keys w' rest hrest hw heq) h

section Passwords
variable {before : List Key} {w cleared : Wiz} {pw : InputBuffer 64} {keys : List Key}
  {hkeys : keys.length < before.length}

/-- A password is accepted as it was typed the second time. -/
theorem confirmPassword_done {e : PageEnd}
    (h : confirmPassword w pw cleared keys hkeys = some (.done e)) :
    e.ws = w ∧ (e.result > 0 → pw.chars = e.typed) := by
  unfold confirmPassword at h
  split at h
  · cases h
  · rename_i rc confirm rest heq
    split_ifs at h with hrc hdiffers
    · cases h
      exact ⟨rfl, fun hpos => absurd hpos back_not_next⟩
    · cases rest <;> cases h
    · cases h
      exact ⟨rfl, fun _ => not_not.mp hdiffers⟩

theorem confirmPassword_again {w' : Wiz} {rest : List Key} {hrest : rest.length < before.length}
    (h : confirmPassword w pw cleared keys hkeys = some (.again w' rest hrest)) : w' = cleared := by
  unfold confirmPassword at h
  split at h
  · cases h
  · rename_i rc confirm rest' heq
    split_ifs at h with hrc hdiffers
    · cases h
    · cases rest' with
      | nil => cases h
      | cons key keys =>
        cases h
        rfl
    · cases h

theorem rootPwPass_done {w : Wiz} {keys : List Key} {e : PageEnd} (h : rootPwPass w keys = some (.done e)) :
    ∃ rootPw, e.ws = {w with rootPw := rootPw} ∧ (e.result > 0 → rootPw.chars = e.typed) := by
  unfold rootPwPass at h
  split at h
  · cases h
  · rename_i rc rootPw rest heq
    dsimp only at h
    split_ifs at h with hrc
    · cases h
      exact ⟨rootPw, rfl, fun hpos => absurd hpos back_not_next⟩
    · exact ⟨rootPw, confirmPassword_done h⟩

theorem rootPwPass_again {w w' : Wiz} {keys rest : List Key} {hrest : rest.length < keys.length}
    (h : rootPwPass w keys = some (.again w' rest hrest)) : w' = {w with rootPw := noPassword} := by
  unfold rootPwPass at h
  split at h
  · cases h
  · dsimp only at h
    split_ifs at h with hrc
    · cases h
    · exact confirmPassword_again h

theorem stageRootPw_spec {w : Wiz} {keys : List Key} {e : PageEnd} (h : stageRootPw w keys = some e) :
    ∃ rootPw, e.ws = {w with rootPw := rootPw} ∧ (e.result > 0 → rootPw.chars = e.typed) := by
  refine retrying_spec rootPwPass (P := fun w' _ => ∃ rootPw, w' = {w with rootPw := rootPw})
    (Q := fun e => ∃ rootPw, e.ws = {w with rootPw := rootPw} ∧ (e.result > 0 → rootPw.chars = e.typed))
    ?_ ?_ ⟨_, rfl⟩ h
  · rintro _ keys w₂ rest hrest ⟨rootPw, rfl⟩ hpass
    have hws := rootPwPass_again hpass
    exact ⟨noPassword, hws⟩
  · rintro _ keys e ⟨rootPw, rfl⟩ hpass
    obtain ⟨rootPw', hws, htyped⟩ := rootPwPass_done hpass
    exact ⟨rootPw', hws, htyped⟩

theorem userPwPass_done {e : PageEnd} (h : userPwPass w keys hkeys = some (.done e)) :
    ∃ userPw, e.ws = {w with userPw := userPw} ∧ (e.result > 0 → userPw.chars = e.typed) := by
  unfold userPwPass at h
  split at h
  · cases h
  · rename_i rc userPw rest heq
    dsimp only at h
    split_ifs at h with hrc
    · cases h
      exact ⟨userPw, rfl, fun hpos => absurd hpos back_not_next⟩
    · exact ⟨userPw, confirmPassword_done h⟩

theorem userPwPass_again {w' : Wiz} {rest : List Key} {hrest : rest.length < before.length}
    (h : userPwPass w keys hkeys = some (.again w' rest hrest)) : w' = {w with userPw := noPassword} := by
  unfold userPwPass at h
  split at h
  · cases h
  · dsimp only at h
    split_ifs at h with hrc
    · cases h
    · exact confirmPassword_again h

end Passwords

/-- The prompt for the username gave this, or its default. -/
def UsernameTyped (w : Wiz) (keys : List Key) (username : InputBuffer 32) : Prop :=
  username = defaultUsername ∨ ∃ rc rest, runInput (withUsername w).username keys = some (rc, username, rest)

/-- A pass of the page for the user goes back from the username, or on to the password with one of
two characters at least. -/
theorem userPass_cases {w : Wiz} {keys : List Key} {p : Pass keys} (h : userPass w keys = some p) :
    ∃ username, UsernameTyped w keys username ∧
      ((∃ e, p = .done e ∧ e.ws = {w with username := username} ∧ ¬ e.result > 0) ∨
        ∃ (rest : List Key) (hrest : rest.length < keys.length),
          2 ≤ username.chars.length ∧ userPwPass {w with username := username} rest hrest = some p) := by
  have hdefault : 2 ≤ defaultUsername.chars.length := by decide
  unfold userPass at h
  dsimp only at h
  split at h
  · cases h
  · rename_i rc username rest heq
    have htyped : UsernameTyped w keys username := .inr ⟨rc, rest, heq⟩
    split_ifs at h with hrc hshort
    · cases h
      exact ⟨username, htyped, .inl ⟨_, rfl, withUsername_update w _, back_not_next⟩⟩
    · rw [withUsername_update] at h
      exact ⟨defaultUsername, .inl rfl, .inr ⟨rest, _, hdefault, h⟩⟩
    · rw [withUsername_update] at h
      exact ⟨username, htyped, .inr ⟨rest, _, Nat.not_lt.mp hshort, h⟩⟩

/-- What `stage_user` leaves of the state it began with. -/
structure UserGiven (w : Wiz) (e : PageEnd) (username : InputBuffer 32) (userPw : InputBuffer 64) : Prop where
  ws : e.ws = {w with username := username, userPw := userPw}
  long : e.result > 0 → 2 ≤ username.chars.length
  typed : e.result > 0 → userPw.chars = e.typed

theorem stageUser_spec {w : Wiz} {keys : List Key} {e : PageEnd} (h : stageUser w keys = some e) :
    ∃ username userPw, UserGiven w e username userPw := by
  refine retrying_spec userPass
    (P := fun w' _ => ∃ username userPw, w' = {w with username := username, userPw := userPw})
    (Q := fun e => ∃ username userPw, UserGiven w e username userPw) ?_ ?_ ⟨_, _, rfl⟩ h
  · rintro _ keys w₂ rest hrest ⟨username, userPw, rfl⟩ hpass
    obtain ⟨username', _, ⟨e, hp, _⟩ | ⟨rest', hrest', _, hpw⟩⟩ := userPass_cases hpass
    · cases hp
    · have hws := userPwPass_again hpw
      exact ⟨username', noPassword, hws⟩
  · rintro _ keys e ⟨username, userPw, rfl⟩ hpass
    obtain ⟨username', _, ⟨e', hp, hws, hresult⟩ | ⟨rest, hrest, hlong, hpw⟩⟩ := userPass_cases hpass
    · cases hp
      exact ⟨_, _, hws, fun hpos => absurd hpos hresult, fun hpos => absurd hpos hresult⟩
    · obtain ⟨userPw', hws, htyped⟩ := userPwPass_done hpw
      exact ⟨_, _, hws, fun _ => hlong, htyped⟩

theorem stageSummary_spec {w : Wiz} {keys : List Key} {e : PageEnd} (h : stageSummary w keys = some e) :
    e.ws = w ∧ (e.result > 0 → e.typed = lit "YES" ∨ e.typed = lit "yes") := by
  unfold stageSummary at h
  split at h
  · cases h
  · split_ifs at h with hrc hother
    · cases h
      exact ⟨rfl, fun hpos => absurd hpos back_not_next⟩
    · cases h
      exact ⟨rfl, fun hpos => absurd hpos back_not_next⟩
    · cases h
      refine ⟨rfl, fun _ => ?_⟩
      rw [not_and_or, not_not, not_not] at hother
      exact hother

end FurOS.Installer
