import FurOS.Installer.Ready

/-! The rules stated on the screen.

"Use lowercase letters, digits, and hyphens only" and "Use lowercase letters and digits
only" are texts: `run_input` takes every printable character. What is entered follows
the rules when what is typed does. -/
namespace FurOS.Installer

def isLower (c : UInt8) : Bool := c ≥ 0x61 && c ≤ 0x7a

/-- A lowercase letter or a digit. -/
def isUsernameChar (c : UInt8) : Bool := isLower c || isDigit c

/-- A lowercase letter, a digit or a hyphen. -/
def isHostnameChar (c : UInt8) : Bool := isUsernameChar c || c = 0x2d

structure FollowsRules (w : Wiz) : Prop where
  hostname : ∀ c ∈ w.hostname.chars, isHostnameChar c = true
  username : ∀ c ∈ w.username.chars, isUsernameChar c = true

/-- The username may be used as a path component and between colons. -/
structure PlainUsername (username : List UInt8) : Prop where
  long : 2 ≤ username.length
  noSlash : slash ∉ username
  noColon : 0x3a ∉ username
  notDot : username ≠ lit "."
  notDotDot : username ≠ lit ".."

theorem plainUsername {username : List UInt8} (hlong : 2 ≤ username.length)
    (h : ∀ c ∈ username, isUsernameChar c = true) : PlainUsername username where
  long := hlong
  noSlash := fun hc => absurd (h slash hc) (by decide)
  noColon := fun hc => absurd (h 0x3a hc) (by decide)
  notDot := by
    intro heq
    subst heq
    exact absurd (h 0x2e (by decide)) (by decide)
  notDotDot := by
    intro heq
    subst heq
    exact absurd (h 0x2e (by decide)) (by decide)

/-! ### What is typed -/

/-- Until the prompt ends, every character that the field has room for is an allowed one. -/
def Prompted (ok : UInt8 → Bool) {cap : Nat} (buf : InputBuffer cap) : List Key → Prop
  | [] => True
  | key :: keys =>
    if (key = 10 ∨ key = 13) ∨ key = 27 then True
    else if key = 8 ∧ buf.chars ≠ [] then Prompted ok buf.back keys
    else if h : isPrintable key.toUInt8 = true ∧ buf.chars.length < cap - 1 then
      ok key.toUInt8 = true ∧ Prompted ok (buf.push key.toUInt8 h) keys
    else Prompted ok buf keys

theorem prompted_enter (ok : UInt8 → Bool) {cap : Nat} (buf : InputBuffer cap) (keys : List Key) :
    Prompted ok buf (10 :: keys) := by
  rw [Prompted, if_pos (by decide)]
  trivial

theorem runInput_allowed {ok : UInt8 → Bool} {cap : Nat} {buf buf' : InputBuffer cap} {keys rest : List Key}
    {rc : Int} (h : runInput buf keys = some (rc, buf', rest)) (hkeys : Prompted ok buf keys)
    (hbuf : ∀ c ∈ buf.chars, ok c = true) : ∀ c ∈ buf'.chars, ok c = true := by
  induction keys generalizing buf with
  | nil => cases h
  | cons key keys ih =>
    rw [runInput] at h
    rw [Prompted] at hkeys
    split_ifs at h with henter hescape hback hprint
    · cases h
      exact hbuf
    · cases h
      exact hbuf
    all_goals rw [if_neg (not_or.mpr ⟨henter, hescape⟩)] at hkeys
    · rw [if_pos hback] at hkeys
      exact ih h hkeys fun c hc => hbuf c (List.dropLast_subset _ hc)
    · rw [if_neg hback, dif_pos hprint] at hkeys
      refine ih h hkeys.2 fun c hc => ?_
      cases List.mem_append.mp hc with
      | inl hc => exact hbuf c hc
      | inr hc =>
        rw [List.mem_singleton.mp hc]
        exact hkeys.1
    · rw [if_neg hback, dif_neg hprint] at hkeys
      exact ih h hkeys hbuf

/-- The passes of a page that begins again: with which state and which keys each one starts. -/
inductive PassStart (pass : Wiz → (keys : List Key) → Option (Pass keys)) (w : Wiz) (keys : List Key) :
    Wiz → List Key → Prop where
  | first : PassStart pass w keys w keys
  | again {w' w'' : Wiz} {keys' rest : List Key} {h : rest.length < keys'.length} :
      PassStart pass w keys w' keys' → pass w' keys' = some (.again w'' rest h) →
      PassStart pass w keys w'' rest

/-- On the two pages that ask for a name, only allowed characters are typed while it is asked for. -/
structure Disciplined (s : State) : Prop where
  hostname : s.stage = 2 → Prompted isHostnameChar (withHostname s.ws).hostname s.keys
  username : s.stage = 5 → ∀ w keys, PassStart userPass s.ws s.keys w keys →
    Prompted isUsernameChar (withUsername w).username keys

/-! ### What is entered -/

theorem stageHostname_allowed {w : Wiz} {keys : List Key} {e : PageEnd} (h : stageHostname w keys = some e)
    (hkeys : Prompted isHostnameChar (withHostname w).hostname keys) (hw : ∀ c ∈ w.hostname.chars, isHostnameChar c = true) :
    ∀ c ∈ e.ws.hostname.chars, isHostnameChar c = true := by
  have hdefault : ∀ c ∈ defaultHostname.chars, isHostnameChar c = true :=
    List.all_eq_true.mp (by decide)
  have hshown : ∀ c ∈ (withHostname w).hostname.chars, isHostnameChar c = true := by
    unfold withHostname
    split
    · exact hdefault
    · exact hw
  unfold stageHostname at h
  dsimp only at h
  split at h
  · cases h
  · rename_i rc hostname rest heq
    have hallowed := runInput_allowed heq hkeys hshown
    split_ifs at h
    · cases h
      exact hallowed
    · cases h
      exact hdefault
    · cases h
      exact hallowed

theorem UsernameTyped.allowed {w : Wiz} {keys : List Key} {username : InputBuffer 32}
    (h : UsernameTyped w keys username) (hkeys : Prompted isUsernameChar (withUsername w).username keys)
    (hw : ∀ c ∈ w.username.chars, isUsernameChar c = true) :
    ∀ c ∈ username.chars, isUsernameChar c = true := by
  have hdefault : ∀ c ∈ defaultUsername.chars, isUsernameChar c = true :=
    List.all_eq_true.mp (by decide)
  have hshown : ∀ c ∈ (withUsername w).username.chars, isUsernameChar c = true := by
    unfold withUsername
    split
    · exact hdefault
    · exact hw
  obtain rfl | ⟨rc, rest, heq⟩ := h
  · exact hdefault
  · exact runInput_allowed heq hkeys hshown

theorem stageUser_allowed {w : Wiz} {keys : List Key} {e : PageEnd} (h : stageUser w keys = some e)
    (hkeys : ∀ w' keys', PassStart userPass w keys w' keys' → Prompted isUsernameChar (withUsername w').username keys')
    (hw : ∀ c ∈ w.username.chars, isUsernameChar c = true) :
    ∀ c ∈ e.ws.username.chars, isUsernameChar c = true := by
  refine retrying_spec userPass
    (P := fun w' keys' => PassStart userPass w keys w' keys' ∧ ∀ c ∈ w'.username.chars, isUsernameChar c = true)
    (Q := fun e => ∀ c ∈ e.ws.username.chars, isUsernameChar c = true) ?_ ?_ ⟨.first, hw⟩ h
  · intro w₁ keys₁ w₂ rest hrest ⟨hstart, hw₁⟩ hpass
    obtain ⟨username, htyped, ⟨e, hp, _⟩ | ⟨rest', hrest', _, hpw⟩⟩ := userPass_cases hpass
    · cases hp
    · have hallowed := htyped.allowed (hkeys _ _ hstart) hw₁
      refine ⟨.again hstart hpass, ?_⟩
      rw [userPwPass_again hpw]
      exact hallowed
  · intro w₁ keys₁ e ⟨hstart, hw₁⟩ hpass
    obtain ⟨username, htyped, ⟨e', hp, hws, _⟩ | ⟨rest, hrest, _, hpw⟩⟩ := userPass_cases hpass
    · cases hp
      rw [hws]
      exact htyped.allowed (hkeys _ _ hstart) hw₁
    · obtain ⟨userPw, hws, _⟩ := userPwPass_done hpw
      rw [hws]
      exact htyped.allowed (hkeys _ _ hstart) hw₁

theorem runPage_allowed {devices : Devices} {s : State} {e : PageEnd} {d : Disk}
    (h : runPage devices s = some (e, d)) (hkeys : Disciplined s) (hs : FollowsRules s.ws) :
    FollowsRules e.ws := by
  have heffect := runPage_effect h
  constructor
  · by_cases hstage : s.stage = 2
    · unfold runPage at h
      rw [hstage] at h
      obtain ⟨e', he, heq⟩ := Option.map_eq_some_iff.mp h
      cases heq
      exact stageHostname_allowed he (hkeys.hostname hstage) hs.hostname
    · rw [heffect.hostname hstage]
      exact hs.hostname
  · by_cases hstage : s.stage = 5
    · unfold runPage at h
      rw [hstage] at h
      obtain ⟨e', he, heq⟩ := Option.map_eq_some_iff.mp h
      cases heq
      exact stageUser_allowed he (hkeys.username hstage) hs.username
    · rw [heffect.username hstage]
      exact hs.username

theorem iteration_allowed {l : Linked} {devices : Devices} {s s' : State} (h : iteration l devices s = .ok s')
    (hkeys : Disciplined s) (hs : FollowsRules s.ws) : FollowsRules s'.ws := by
  unfold iteration at h
  split_ifs at h
  · split at h
    · cases h
    · rename_i e d heq
      have hallowed := runPage_allowed heq hkeys hs
      unfold turnPage at h
      dsimp only at h
      split_ifs at h <;> cases h <;> exact hallowed
  · split at h
    · cases h
    · cases h
      exact hs

theorem initialWiz_rules : FollowsRules initialWiz :=
  ⟨List.all_eq_true.mp (by decide), List.all_eq_true.mp (by decide)⟩

/-- The states that the loop passes through while only allowed characters are typed. -/
def ReachedDisciplined (l : Linked) (devices : Devices) (start : State) : State → Prop :=
  Foundation.Reachable (fun _ : Unit => iteration l devices) (fun s _ => Disciplined s) start

theorem ReachedDisciplined.reached {l : Linked} {devices : Devices} {start s : State}
    (h : ReachedDisciplined l devices start s) : Reached l devices start s := by
  induction h with
  | start => exact .start
  | step _ _ hrun ih => exact .step (o := ()) ih trivial hrun

/-- **Where only the characters that the screen allows are typed,** the names that the installation is
entered with follow the rules. -/
theorem installer_rules (l : Linked) (devices : Devices) (lastError : CStr) (d : Disk) (keys : List Key)
    (start s : State) (hstart : installerStart devices lastError d keys = some start)
    (h : ReachedDisciplined l devices start s) (hs : s.stage = 7) :
    FollowsRules s.ws ∧ PlainUsername s.ws.username.chars := by
  have hinitial : FollowsRules start.ws := by
    unfold installerStart at hstart
    dsimp only at hstart
    split_ifs at hstart
    cases hstart
    exact initialWiz_rules
  have hrules : FollowsRules s.ws :=
    Foundation.Reachable.invariant (P := fun s => FollowsRules s.ws)
      (fun s _ s' hs hkeys hrun => iteration_allowed hrun hkeys hs) hinitial h
  cases reached_invariant hstart h.reached with
  | inl hend => omega
  | inr hinvariant =>
    exact ⟨hrules, plainUsername (hinvariant.username (by omega)) hrules.username⟩

/-! ### Two runs -/

/-- Enter on every page, with `A` added to the hostname and `:` to the username. -/
def unruly : List Key := [10, 10, 0x41, 10, 10, 10, 10, 0x3a, 10, 10, 10, 0x59, 0x45, 0x53, 10]

/-- They are taken as they are typed. -/
theorem installer_rules_broken :
    installerStart oneDisk (.ofLit "ok") blankDisk unruly = some {enterStart with keys := unruly} ∧
      ∃ s, Reached smallSystem oneDisk {enterStart with keys := unruly} s ∧ s.stage = 7 ∧
        s.ws.hostname.chars = lit "furosA" ∧ s.ws.username.chars = lit "debian:" ∧
        ¬ FollowsRules s.ws ∧ ¬ PlainUsername s.ws.username.chars := by
  have h0 : Reached smallSystem oneDisk {enterStart with keys := unruly} _ := .start
  have h1 := h0.next (by decide) rfl (by decide)
  have h2 := h1.next (by decide) rfl (by decide)
  have h3 := h2.next (by decide) rfl (by decide)
  have h4 := h3.next (by decide) rfl (by decide)
  have h5 := h4.next (by decide) (congrArg (Option.map fun e => (e, _)) (retrying_done rfl)) (by decide)
  have h6 := h5.next (by decide) (congrArg (Option.map fun e => (e, _)) (retrying_done rfl)) (by decide)
  refine ⟨rfl, _, h6.next (by decide) rfl (by decide), rfl, by decide, by decide, ?_, ?_⟩
  · exact fun hrules => absurd (hrules.hostname 0x41 (by decide)) (by decide)
  · exact fun hplain => absurd hplain.noColon (by decide)

theorem PassStart.eq_of_done {pass : Wiz → (keys : List Key) → Option (Pass keys)} {w w' : Wiz}
    {keys keys' : List Key} {e : PageEnd} (h : PassStart pass w keys w' keys')
    (hdone : pass w keys = some (.done e)) : w' = w ∧ keys' = keys := by
  induction h with
  | first => exact ⟨rfl, rfl⟩
  | again _ hpass ih =>
    obtain ⟨rfl, rfl⟩ := ih
    rw [hdone] at hpass
    cases hpass

theorem Disciplined.of_stage {s : State} (h2 : s.stage ≠ 2) (h5 : s.stage ≠ 5) : Disciplined s :=
  ⟨fun h => absurd h h2, fun h => absurd h h5⟩

theorem ReachedDisciplined.next {l : Linked} {devices : Devices} {start s : State}
    (h : ReachedDisciplined l devices start s) (hkeys : Disciplined s) (hs : s.stage < 7) {e : PageEnd}
    {d : Disk} (hpage : runPage devices s = some (e, d)) (hpos : e.result > 0) :
    ReachedDisciplined l devices start (turned s e d) :=
  .step (o := ()) h hkeys (iteration_turned l hs hpage hpos)

theorem installer_rules_enter :
    ∃ s, ReachedDisciplined smallSystem oneDisk enterStart s ∧ FollowsRules s.ws ∧
      PlainUsername s.ws.username.chars := by
  have h0 : ReachedDisciplined smallSystem oneDisk enterStart enterStart := .start
  have h1 := h0.next (.of_stage (by decide) (by decide)) (by decide) rfl (by decide)
  have h2 := h1.next (.of_stage (by decide) (by decide)) (by decide) rfl (by decide)
  have h3 := h2.next ⟨fun _ => prompted_enter _ _ _, fun h => absurd h (by decide)⟩ (by decide) rfl
    (by decide)
  have h4 := h3.next (.of_stage (by decide) (by decide)) (by decide) rfl (by decide)
  have h5 := h4.next (.of_stage (by decide) (by decide)) (by decide)
    (congrArg (Option.map fun e => (e, _)) (retrying_done rfl)) (by decide)
  have h6 := h5.next
    ⟨fun h => absurd h (by decide), fun _ w keys hpass => by
      obtain ⟨-, rfl⟩ := hpass.eq_of_done rfl
      exact prompted_enter _ _ _⟩
    (by decide) (congrArg (Option.map fun e => (e, _)) (retrying_done rfl)) (by decide)
  have h7 := h6.next (.of_stage (by decide) (by decide)) (by decide) rfl (by decide)
  exact ⟨_, h7, installer_rules smallSystem oneDisk (.ofLit "ok") blankDisk enterKeys enterStart _ rfl h7 rfl⟩

end FurOS.Installer
