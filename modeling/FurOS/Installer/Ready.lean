import FurOS.Installer.Wizard
import FurOS.Disk.Persistence

/-! What holds when the installation is entered.

The pages may be left and entered again in any order that back and forward allow, so
each fact is tied to the stages past the page that establishes it: a page changes
its own part of the state, and it is passed only with that part in order. -/
namespace FurOS.Installer

/-- The last run of a page that went on. -/
def lastCompleted (stage : Nat) (history : List Visit) : Option Visit :=
  history.find? fun v => v.stage = stage ∧ v.result > 0

/-- The summary was shown just before, with this state, and confirmed. -/
def Confirmed (ws : Wiz) (history : List Visit) : Prop :=
  ∃ v, history.head? = some v ∧ v.stage = 6 ∧ v.result > 0 ∧ (v.typed = lit "YES" ∨ v.typed = lit "yes") ∧
    v.before = ws

/-- The password is the one that was typed last in the page of this stage. -/
def ConfirmedAt (stage : Nat) (pw : InputBuffer 64) (history : List Visit) : Prop :=
  ∃ v, lastCompleted stage history = some v ∧ pw.chars = v.typed

/-- The choice of a disk stands, and the disk layer has it. -/
def DiskChosen (ws : Wiz) (d : Disk) : Prop :=
  (0 ≤ ws.diskIndex ∧ ws.diskIndex < d.diskCount) ∧ d.selectedDisk = ws.diskIndex

structure ReadyToInstall (s : State) : Prop where
  disk : DiskChosen s.ws s.disk
  hostname : 1 ≤ s.ws.hostname.chars.length ∧ s.ws.hostname.chars.length ≤ 31
  timezone : ∃ i, s.ws.timezone = tzones i
  username : 2 ≤ s.ws.username.chars.length ∧ s.ws.username.chars.length ≤ 31
  rootPw : ConfirmedAt 4 s.ws.rootPw s.history
  userPw : ConfirmedAt 5 s.ws.userPw s.history
  confirmed : Confirmed s.ws s.history

/-- What holds between two pages: each fact from the stage on that follows its page. -/
structure Invariant (s : State) : Prop where
  stage : s.stage ≤ 7
  timezone : ∃ i, s.ws.timezone = tzones i
  disk : 2 ≤ s.stage → DiskChosen s.ws s.disk
  hostname : 3 ≤ s.stage → s.ws.hostname.chars ≠ []
  rootPw : 5 ≤ s.stage → ConfirmedAt 4 s.ws.rootPw s.history
  username : 6 ≤ s.stage → 2 ≤ s.ws.username.chars.length
  userPw : 6 ≤ s.stage → ConfirmedAt 5 s.ws.userPw s.history
  confirmed : 7 ≤ s.stage → Confirmed s.ws s.history

theorem Invariant.ready {s : State} (h : Invariant s) (hs : s.stage = 7) : ReadyToInstall s where
  disk := h.disk (by omega)
  hostname := ⟨List.length_pos_of_ne_nil (h.hostname (by omega)), Nat.le_of_lt_succ s.ws.hostname.fits⟩
  timezone := h.timezone
  username := ⟨h.username (by omega), Nat.le_of_lt_succ s.ws.username.fits⟩
  rootPw := h.rootPw (by omega)
  userPw := h.userPw (by omega)
  confirmed := h.confirmed (by omega)

/-- What one page does to the state, whichever it is. -/
structure Effect (s : State) (e : PageEnd) (d : Disk) : Prop where
  diskCount : d.diskCount = s.disk.diskCount
  timezone : e.ws.timezone = s.ws.timezone ∨ ∃ i, e.ws.timezone = tzones i
  disk : s.stage ≠ 1 → e.ws.diskIndex = s.ws.diskIndex ∧ d = s.disk
  hostname : s.stage ≠ 2 → e.ws.hostname = s.ws.hostname
  rootPw : s.stage ≠ 4 → e.ws.rootPw = s.ws.rootPw
  username : s.stage ≠ 5 → e.ws.username = s.ws.username
  userPw : s.stage ≠ 5 → e.ws.userPw = s.ws.userPw
  summary : s.stage = 6 → e.ws = s.ws
  diskChosen : s.stage = 1 → e.result > 0 → DiskChosen e.ws d
  hostnameGiven : s.stage = 2 → e.result > 0 → e.ws.hostname.chars ≠ []
  rootPwGiven : s.stage = 4 → e.result > 0 → e.ws.rootPw.chars = e.typed
  usernameGiven : s.stage = 5 → e.result > 0 → 2 ≤ e.ws.username.chars.length
  userPwGiven : s.stage = 5 → e.result > 0 → e.ws.userPw.chars = e.typed
  confirmed : s.stage = 6 → e.result > 0 → e.typed = lit "YES" ∨ e.typed = lit "yes"

theorem runPage_effect {devices : Devices} {s : State} {e : PageEnd} {d : Disk}
    (h : runPage devices s = some (e, d)) : Effect s e d := by
  unfold runPage at h
  split at h
  all_goals rename_i hstage
  case h_2 =>
    obtain ⟨diskIndex, hws, hcount, hchosen⟩ := stageDisk_spec h
    have hdisk : e.result > 0 → DiskChosen e.ws d := by
      intro hpos
      rw [hws]
      unfold DiskChosen
      rw [hcount]
      exact hchosen hpos
    constructor <;> simp_all
  all_goals
    obtain ⟨e', he, heq⟩ := Option.map_eq_some_iff.mp h
    cases heq
  case h_1 =>
    have hws := stageWelcome_spec he
    constructor <;> simp [hws, hstage]
  case h_3 =>
    obtain ⟨hostname, hws, hgiven⟩ := stageHostname_spec he
    constructor <;> simp_all
  case h_4 =>
    obtain ⟨timezone, hws, hgiven⟩ := stageTimezone_spec he
    constructor <;> simp_all
  case h_5 =>
    obtain ⟨rootPw, hws, hgiven⟩ := stageRootPw_spec he
    constructor <;> simp_all
  case h_6 =>
    obtain ⟨username, userPw, hws, hlong, htyped⟩ := stageUser_spec he
    constructor <;> simp_all
  case h_7 =>
    obtain ⟨hws, hgiven⟩ := stageSummary_spec he
    constructor <;> simp_all

/-- The page that comes after one, and what is kept of its run. -/
structure Turned (s : State) (e : PageEnd) (d : Disk) (s' : State) : Prop where
  ws : s'.ws = e.ws
  disk : s'.disk = d
  history : s'.history = ⟨s.stage, s.ws, e.result, e.typed⟩ :: s.history
  stage : e.result > 0 ∧ s'.stage = s.stage + 1 ∨ ¬ e.result > 0 ∧ s'.stage = s.stage - 1

theorem iteration_page {l : Linked} {devices : Devices} {s s' : State} (hs : s.stage < 7)
    (h : iteration l devices s = .ok s') :
    ∃ e d, Effect s e d ∧ Turned s e d s' := by
  unfold iteration at h
  rw [if_pos hs] at h
  split at h
  · cases h
  · rename_i e d heq
    refine ⟨e, d, runPage_effect heq, ?_⟩
    unfold turnPage at h
    dsimp only at h
    split_ifs at h with hnext hback hfirst
    · cases h
      exact ⟨rfl, rfl, rfl, .inl ⟨hnext, rfl⟩⟩
    · cases h
      exact ⟨rfl, rfl, rfl, .inr ⟨hnext, rfl⟩⟩
    · cases h
      exact ⟨rfl, rfl, rfl, .inr ⟨hnext, by show s.stage = s.stage - 1; omega⟩⟩

theorem lastCompleted_cons_of_ne {stage : Nat} {v : Visit} {history : List Visit} (h : v.stage ≠ stage) :
    lastCompleted stage (v :: history) = lastCompleted stage history := by
  unfold lastCompleted
  rw [List.find?_cons_of_neg]
  simp [h]

theorem lastCompleted_cons {v : Visit} {history : List Visit} (h : v.result > 0) :
    lastCompleted v.stage (v :: history) = some v := by
  unfold lastCompleted
  rw [List.find?_cons_of_pos]
  simpa using h

/-- A password stays confirmed past its page: by that page, or as it was. -/
theorem Turned.confirmedAt {s s' : State} {e : PageEnd} {d : Disk} (h : Turned s e d s') {stage : Nat}
    {pw pw' : InputBuffer 64} (hstage : stage < s'.stage)
    (hold : stage < s.stage → ConfirmedAt stage pw s.history) (hkept : s.stage ≠ stage → pw' = pw)
    (hgiven : s.stage = stage → e.result > 0 → pw'.chars = e.typed) : ConfirmedAt stage pw' s'.history := by
  have hturned := h.stage
  rw [h.history]
  by_cases hhere : s.stage = stage
  · obtain ⟨hpos, _⟩ | ⟨_, hback⟩ := hturned
    · subst hhere
      exact ⟨_, lastCompleted_cons hpos, hgiven rfl hpos⟩
    · omega
  · obtain ⟨v, hv, htyped⟩ := hold (by omega)
    rw [hkept hhere]
    exact ⟨v, (lastCompleted_cons_of_ne hhere).trans hv, htyped⟩

/-- **Every page keeps the invariant.** -/
theorem Invariant.page {s s' : State} (h : Invariant s) (hs : s.stage < 7) {e : PageEnd} {d : Disk}
    (heffect : Effect s e d) (hturned : Turned s e d s') : Invariant s' where
  stage := by
    have := hturned.stage
    omega
  timezone := by
    rw [hturned.ws]
    cases heffect.timezone with
    | inl hkept => exact hkept ▸ h.timezone
    | inr hchosen => exact hchosen
  disk := by
    intro hstage
    rw [hturned.ws, hturned.disk]
    have hmove := hturned.stage
    by_cases hhere : s.stage = 1
    · exact heffect.diskChosen hhere (by omega)
    · obtain ⟨hindex, hdisk⟩ := heffect.disk hhere
      have hold := h.disk (by omega)
      unfold DiskChosen at hold ⊢
      rw [hindex, hdisk]
      exact hold
  hostname := by
    intro hstage
    rw [hturned.ws]
    have hmove := hturned.stage
    by_cases hhere : s.stage = 2
    · exact heffect.hostnameGiven hhere (by omega)
    · rw [heffect.hostname hhere]
      exact h.hostname (by omega)
  rootPw := by
    intro hstage
    rw [hturned.ws]
    exact hturned.confirmedAt hstage h.rootPw heffect.rootPw heffect.rootPwGiven
  username := by
    intro hstage
    rw [hturned.ws]
    have hmove := hturned.stage
    by_cases hhere : s.stage = 5
    · exact heffect.usernameGiven hhere (by omega)
    · rw [heffect.username hhere]
      exact h.username (by omega)
  userPw := by
    intro hstage
    rw [hturned.ws]
    exact hturned.confirmedAt hstage h.userPw heffect.userPw heffect.userPwGiven
  confirmed := by
    intro hstage
    have hmove := hturned.stage
    have hhere : s.stage = 6 := by omega
    have hpos : e.result > 0 := by omega
    rw [hturned.ws, hturned.history, heffect.summary hhere]
    exact ⟨_, rfl, hhere, hpos, heffect.confirmed hhere hpos, rfl⟩

theorem iteration_stage {l : Linked} {devices : Devices} {s s' : State} (hs : ¬ s.stage < 7)
    (h : iteration l devices s = .ok s') : s'.stage = 8 := by
  unfold iteration at h
  rw [if_neg hs] at h
  split_ifs at h
  · split at h
    · cases h
    · cases h
      rfl

/-- Before the first page only the timezone matters. -/
theorem Invariant.initial {s : State} (hstage : s.stage = 0) (htimezone : s.ws.timezone = utc) :
    Invariant s where
  stage := by omega
  timezone := ⟨0, htimezone⟩
  disk := fun h => by omega
  hostname := fun h => by omega
  rootPw := fun h => by omega
  username := fun h => by omega
  userPw := fun h => by omega
  confirmed := fun h => by omega

/-- Between two pages the invariant holds; after the installation no page follows. -/
theorem reached_invariant {l : Linked} {devices : Devices} {lastError : CStr} {d : Disk} {keys : List Key}
    {start s : State} (hstart : installerStart devices lastError d keys = some start)
    (h : Reached l devices start s) : s.stage = 8 ∨ Invariant s := by
  refine Foundation.Reachable.invariant (P := fun s => s.stage = 8 ∨ Invariant s) ?_ ?_ h
  · intro s o s' hs _ hrun
    by_cases hstage : s.stage < 7
    · obtain ⟨e, d, heffect, hturned⟩ := iteration_page hstage hrun
      cases hs with
      | inl hs => omega
      | inr hs => exact .inr (hs.page hstage heffect hturned)
    · exact .inl (iteration_stage hstage hrun)
  · unfold installerStart at hstart
    dsimp only at hstart
    split_ifs at hstart
    cases hstart
    exact .inr (.initial rfl rfl)

/-- **Whenever the installation is entered,** a disk is chosen and selected, the names and the timezone
are in order, both passwords are the ones confirmed, and the summary of just this was confirmed with
YES. -/
theorem installer_ready (l : Linked) (devices : Devices) (lastError : CStr) (d : Disk) (keys : List Key)
    (start s : State) (hstart : installerStart devices lastError d keys = some start)
    (h : Reached l devices start s) (hs : s.stage = 7) : ReadyToInstall s := by
  cases reached_invariant hstart h with
  | inl hend => omega
  | inr hinvariant => exact hinvariant.ready hs

/-! ### A run -/

/-- One disk. -/
def oneDisk : Devices :=
  { count := 1, device := fun _ => { present := true, sectors28 := 6144, drive := blankDisk.drive } }

/-- Enter on every page, and `YES` on the summary. -/
def enterKeys : List Key := [10, 10, 10, 10, 10, 10, 10, 10, 10, 0x59, 0x45, 0x53, 10]

theorem retrying_done {pass : Wiz → (keys : List Key) → Option (Pass keys)} {w : Wiz} {keys : List Key}
    {e : PageEnd} (h : pass w keys = some (.done e)) : retrying pass w keys = some e := by
  rw [retrying, h]

/-- The state that a page leaves when it goes on. -/
def turned (s : State) (e : PageEnd) (d : Disk) : State :=
  {s with
    stage := s.stage + 1
    ws := e.ws
    disk := d
    keys := e.keys
    history := ⟨s.stage, s.ws, e.result, e.typed⟩ :: s.history}

theorem iteration_turned (l : Linked) {devices : Devices} {s : State} (hs : s.stage < 7) {e : PageEnd}
    {d : Disk} (hpage : runPage devices s = some (e, d)) (hpos : e.result > 0) :
    iteration l devices s = .ok (turned s e d) := by
  unfold iteration turnPage
  rw [if_pos hs, hpage]
  exact if_pos hpos

theorem Reached.next {l : Linked} {devices : Devices} {start s : State} (h : Reached l devices start s)
    (hs : s.stage < 7) {e : PageEnd} {d : Disk} (hpage : runPage devices s = some (e, d))
    (hpos : e.result > 0) : Reached l devices start (turned s e d) :=
  .step (o := ()) h trivial (iteration_turned l hs hpage hpos)

/-- `installer_run` with these keys, up to the installation. -/
def enterStart : State :=
  { stage := 0
    ws := initialWiz
    nodes := fsInit
    disk := diskInit ⟨1, .ofLit "ok"⟩ blankDisk
    keys := enterKeys
    history := [] }

theorem enterKeys_reach : ∃ s, Reached smallSystem oneDisk enterStart s ∧ s.stage = 7 := by
  have h0 : Reached smallSystem oneDisk enterStart enterStart := .start
  have h1 := h0.next (by decide) rfl (by decide)
  have h2 := h1.next (by decide) rfl (by decide)
  have h3 := h2.next (by decide) rfl (by decide)
  have h4 := h3.next (by decide) rfl (by decide)
  have h5 := h4.next (by decide) (congrArg (Option.map fun e => (e, _)) (retrying_done rfl)) (by decide)
  have h6 := h5.next (by decide) (congrArg (Option.map fun e => (e, _)) (retrying_done rfl)) (by decide)
  exact ⟨_, h6.next (by decide) rfl (by decide), rfl⟩

theorem installer_ready_enter : ∃ s, Reached smallSystem oneDisk enterStart s ∧ ReadyToInstall s := by
  obtain ⟨s, hreached, hstage⟩ := enterKeys_reach
  exact ⟨s, hreached, installer_ready smallSystem oneDisk (.ofLit "ok") blankDisk enterKeys enterStart s rfl
    hreached hstage⟩

end FurOS.Installer
