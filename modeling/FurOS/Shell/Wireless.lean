import FurOS.Foundation.Run
import FurOS.Shell.Session

/-! Packages and the network over whole sessions.

Three commands change them, and `Change` lists the ways: a package is installed or removed,
the service started or stopped, the radio switched on or off, a network joined. Each of
them keeps the connection consistent with the flags it needs, and only one begins it. -/
namespace FurOS

/-! ### The words -/

/-- `nmcli device wifi connect`, and what comes after it. -/
def connectLine (rest : List CStr) : List CStr :=
  .ofLit "nmcli" :: .ofLit "device" :: .ofLit "wifi" :: .ofLit "connect" :: rest

/-- The line is one of `apt`, `networkmanager` and `nmcli`, also under `sudo`. -/
def networkLine (argv : List CStr) : Bool :=
  match effective argv with
  | [] => false
  | name :: _ => name.is "apt" || name.is "networkmanager" || name.is "nmcli"

/-- The network stays connected to this access point. -/
def ConnectedTo (net : Network) (ap : WifiAp) : Prop :=
  net.wifiConnected = true ∧ net.wifiSsid.text = ap.ssid.chars

theorem ssid_copy : ∀ ap ∈ wifiAps, (Ssid.copy ap.ssid).text = ap.ssid.chars := by decide

theorem wifiAps_ssid : ∀ a ∈ wifiAps, ∀ b ∈ wifiAps, a.ssid = b.ssid → a.password = b.password := by decide

theorem findWifiAp_eq_some {ssid : CStr} {ap : WifiAp} (h : findWifiAp ssid = some ap) :
    ap ∈ wifiAps ∧ ap.ssid = ssid :=
  ⟨List.mem_of_find?_eq_some h, of_decide_eq_true (List.find?_some h :)⟩

/-- A password that is asked for has been given. -/
theorem wifiRefused_eq_none {ap : WifiAp} {rest : List CStr} {password : CStr} (hp : ap.password = some password)
    (h : wifiRefused ap rest = none) : ∃ more, rest = .ofLit "password" :: password :: more := by
  unfold wifiRefused at h
  rw [hp] at h
  split at h
  · rename_i heq
    cases heq
  · rename_i password' key given more heq
    cases heq
    split at h
    · cases h
    rename_i hkey
    split at h
    · cases h
    rename_i hgiven
    have hgiven' : given = password := not_not.mp hgiven
    have hword : key = .ofLit "password" := is_ofLit (by simpa using hkey) (by decide)
    exact ⟨more, by rw [hword, hgiven']⟩
  · cases h

/-! ### What the commands change -/

/-- One way of changing the packages or the network. -/
inductive Change (net : Network) : List CStr → Network → Prop where
  | still (argv : List CStr) : Change net argv net
  | indexed (argv : List CStr) : Change net argv {net with aptIndexReady := true}
  | package {argv : List CStr} (i : Fin 12) (installed : Bool) :
      (installed = false → (net.packageRepo i).essential = false) → Change net argv (setInstalled net i installed)
  | started (argv : List CStr) : Change net argv {net with networkManagerRunning := true}
  | stopped (argv : List CStr) : Change net argv {net with networkManagerRunning := false, wifiConnected := false}
  | radioOn (argv : List CStr) : Change net argv {net with wifiEnabled := true}
  | radioOff (argv : List CStr) : Change net argv {net with wifiEnabled := false, wifiConnected := false}
  | joined {rest : List CStr} {ap : WifiAp} : ap ∈ wifiAps → wifiRefused ap rest = none →
      packageIsInstalled net "network-manager" = true → net.networkManagerRunning = true →
      net.wifiEnabled = true →
      Change net (connectLine (ap.ssid :: rest)) {net with wifiConnected := true, wifiSsid := .copy ap.ssid}

theorem cmdApt_change (argv args : List CStr) (net : Network) : Change net argv (cmdApt args net).2 := by
  unfold cmdApt
  split
  · exact .still _
  split
  · exact .indexed _
  split
  · exact .still _
  split
  · exact .still _
  split
  · unfold aptInstall
    split
    · exact .still _
    dsimp only
    split
    · exact .still _
    · exact .package _ true (fun h => by cases h)
  split
  · unfold aptRemove
    split
    · exact .still _
    dsimp only
    split
    · exact .still _
    rename_i hessential
    split
    · exact .still _
    · exact .package _ false fun _ => by simpa using hessential
  · exact .still _

theorem cmdNetworkmanager_change (argv args : List CStr) (net : Network) :
    Change net argv (cmdNetworkmanager args net).2 := by
  unfold cmdNetworkmanager
  split
  · exact .still _
  split
  · exact .still _
  split
  · exact .still _
  split
  · exact .started _
  split
  · exact .stopped _
  split
  · exact .started _
  · exact .still _

/-- A connection is made to the network that was named, or refused. -/
theorem nmcliWifiConnect_eq (args : List CStr) (net : Network) :
    (nmcliWifiConnect args net).2 = net ∨ ∃ ap rest, ap ∈ wifiAps ∧ args = ap.ssid :: rest ∧
      wifiRefused ap rest = none ∧ net.wifiEnabled = true ∧
      (nmcliWifiConnect args net).2 = {net with wifiConnected := true, wifiSsid := .copy ap.ssid} := by
  unfold nmcliWifiConnect
  split
  · exact .inl rfl
  split
  · exact .inl rfl
  rename_i ssid rest _ ap hap
  obtain ⟨hmem, rfl⟩ := findWifiAp_eq_some hap
  split
  · exact .inl rfl
  rename_i henabled
  split
  · exact .inl rfl
  rename_i hrefused
  exact .inr ⟨ap, rest, hmem, rfl, hrefused, by simpa using henabled, rfl⟩

theorem nmcliRadio_change (argv args : List CStr) (net : Network) : Change net argv (nmcliRadio args net).2 := by
  unfold nmcliRadio
  split
  · exact .still _
  split
  · split
    · exact .still _
    split
    · exact .radioOn _
    split
    · exact .radioOff _
    · exact .still _
  · exact .still _

theorem nmcliNetworking_change (argv args : List CStr) (net : Network) :
    Change net argv (nmcliNetworking args net).2 := by
  unfold nmcliNetworking
  split
  · exact .still _
  split
  · exact .started _
  split
  · exact .stopped _
  · exact .still _

theorem nmcliDevice_change {args : List CStr} {net : Network}
    (hinstalled : packageIsInstalled net "network-manager" = true) (hrunning : net.networkManagerRunning = true) :
    Change net (.ofLit "nmcli" :: .ofLit "device" :: args) (nmcliDevice args net).2 := by
  unfold nmcliDevice
  split
  · exact .still _
  split
  · exact .still _
  split
  · rename_i sub rest _ hwifi
    split
    · exact .still _
    split
    · exact .still _
    split
    · rename_i sub' rest' _ hconnect
      rw [is_ofLit hwifi (by decide), is_ofLit hconnect (by decide)]
      rcases nmcliWifiConnect_eq rest' net with hsame | ⟨ap, more, hmem, rfl, hrefused, henabled, hjoined⟩
      · rw [hsame]
        exact .still _
      · rw [hjoined]
        exact .joined hmem hrefused hinstalled hrunning henabled
    · exact .still _
  · exact .still _

theorem cmdNmcli_change (args : List CStr) (net : Network) :
    Change net (.ofLit "nmcli" :: args) (cmdNmcli args net).2 := by
  unfold cmdNmcli
  split
  · exact .still _
  split
  · exact .still _
  rename_i hinstalled
  split
  · exact .still _
  rename_i hrunning
  split
  · exact .still _
  split
  · rename_i hdevice
    rw [is_ofLit hdevice (by decide)]
    exact nmcliDevice_change (by simpa using hinstalled) (by simpa using hrunning)
  split
  · exact .still _
  split
  · exact nmcliRadio_change _ _ _
  split
  · exact nmcliNetworking_change _ _ _
  · exact .still _

/-! ### What every change keeps -/

/-- The packages of the source, the essential ones installed, and no connection without all that it needs. -/
structure Consistent (net : Network) : Prop where
  name : ∀ i, (net.packageRepo i).name = (packageRepo i).name
  essential : ∀ i, (net.packageRepo i).essential = (packageRepo i).essential
  installed : ∀ i, (packageRepo i).essential = true → (net.packageRepo i).installed = true
  connected : net.wifiConnected = true → packageIsInstalled net "network-manager" = true ∧
    net.networkManagerRunning = true ∧ net.wifiEnabled = true ∧ ∃ ap ∈ wifiAps, net.wifiSsid.text = ap.ssid.chars

theorem consistent_initial : Consistent .initial where
  name _ := rfl
  essential _ := rfl
  installed := by decide
  connected h := by cases h

/-- Only the flags are changed, and no connection begins. -/
theorem Consistent.flags {net net' : Network} (h : Consistent net) (hrepo : net'.packageRepo = net.packageRepo)
    (hconnected : net'.wifiConnected = true → net.wifiConnected = true ∧
      (net.networkManagerRunning = true → net'.networkManagerRunning = true) ∧
      (net.wifiEnabled = true → net'.wifiEnabled = true) ∧ net'.wifiSsid = net.wifiSsid) : Consistent net' where
  name i := by rw [hrepo, h.name]
  essential i := by rw [hrepo, h.essential]
  installed i hi := by rw [hrepo, h.installed i hi]
  connected hc := by
    obtain ⟨hold, hrunning, henabled, hssid⟩ := hconnected hc
    obtain ⟨hinstalled, hrun, hradio, hap⟩ := h.connected hold
    have hsame : packageIsInstalled net' "network-manager" = packageIsInstalled net "network-manager" := by
      unfold packageIsInstalled packageFind
      rw [hrepo]
    exact ⟨hsame.trans hinstalled, hrunning hrun, henabled hradio, hssid ▸ hap⟩

theorem syncStateWithPackages_repo (net : Network) :
    (syncStateWithPackages net).packageRepo = net.packageRepo := by
  unfold syncStateWithPackages
  split <;> rfl

/-- `sync_state_with_packages` leaves a connection only where the package is installed. -/
theorem syncStateWithPackages_connected {net : Network} (h : (syncStateWithPackages net).wifiConnected = true) :
    packageIsInstalled net "network-manager" = true ∧ syncStateWithPackages net = net := by
  unfold syncStateWithPackages at h ⊢
  cases hi : packageIsInstalled net "network-manager" with
  | true => exact ⟨rfl, if_pos rfl⟩
  | false =>
    rw [hi, if_neg (by decide)] at h
    cases h

/-- A package is installed, or one that is not essential is removed. -/
theorem Consistent.package {net : Network} (h : Consistent net) (i : Fin 12) (installed : Bool)
    (hremove : installed = false → (net.packageRepo i).essential = false) :
    Consistent (setInstalled net i installed) := by
  have hfield : ∀ {β : Type} (f : Package → β) (_ : ∀ p b, f {p with installed := b} = f p) (k : Fin 12),
      f ((setInstalled net i installed).packageRepo k) = f (net.packageRepo k) := by
    intro β f hf k
    rw [setInstalled, syncStateWithPackages_repo]
    by_cases hk : k = i
    · subst hk
      simp [hf]
    · simp [Function.update_of_ne hk]
  refine ⟨fun k => ?_, fun k => ?_, fun k hk => ?_, fun hc => ?_⟩
  · rw [hfield Package.name (fun _ _ => rfl), h.name]
  · rw [hfield Package.essential (fun _ _ => rfl), h.essential]
  · rw [setInstalled, syncStateWithPackages_repo]
    dsimp only
    by_cases hki : k = i
    · subst hki
      rw [Function.update_self]
      cases hb : installed with
      | true => rfl
      | false =>
        have hno := hremove hb
        rw [h.essential, hk] at hno
        cases hno
    · rw [Function.update_of_ne hki]
      exact h.installed k hk
  · obtain ⟨hinstalled, hsame⟩ := syncStateWithPackages_connected hc
    unfold setInstalled at hc ⊢
    rw [hsame] at hc ⊢
    obtain ⟨_, hrunning, henabled, hap⟩ := h.connected hc
    exact ⟨hinstalled, hrunning, henabled, hap⟩

/-- **Every change keeps packages and network consistent.** -/
theorem Change.consistent {net net' : Network} {argv : List CStr} (hchange : Change net argv net')
    (h : Consistent net) : Consistent net' := by
  cases hchange with
  | still => exact h
  | indexed => exact h.flags rfl fun hc => ⟨hc, id, id, rfl⟩
  | package i installed hremove => exact h.package i installed hremove
  | started => exact h.flags rfl fun hc => ⟨hc, fun _ => rfl, id, rfl⟩
  | stopped => exact h.flags rfl fun hc => by cases hc
  | radioOn => exact h.flags rfl fun hc => ⟨hc, id, fun _ => rfl, rfl⟩
  | radioOff => exact h.flags rfl fun hc => by cases hc
  | @joined rest ap hmem _ hinstalled hrunning henabled =>
    exact ⟨h.name, h.essential, h.installed, fun _ =>
      ⟨hinstalled, hrunning, henabled, ap, hmem, ssid_copy ap hmem⟩⟩

/-- A network is joined by its name, and its password where it has one. -/
theorem Change.joins {net net' : Network} {argv : List CStr} (hchange : Change net argv net') {ap : WifiAp}
    (hap : ap ∈ wifiAps) {password : CStr} (hp : ap.password = some password) (hbefore : ¬ ConnectedTo net ap)
    (hafter : ConnectedTo net' ap) :
    ∃ more, argv = connectLine (ap.ssid :: .ofLit "password" :: password :: more) := by
  cases hchange with
  | still => exact absurd hafter hbefore
  | indexed => exact absurd hafter hbefore
  | package i installed _ =>
    obtain ⟨_, hsame⟩ := syncStateWithPackages_connected hafter.1
    unfold setInstalled at hafter
    rw [hsame] at hafter
    exact absurd hafter hbefore
  | started => exact absurd hafter hbefore
  | stopped => cases hafter.1
  | radioOn => exact absurd hafter hbefore
  | radioOff => cases hafter.1
  | @joined rest found hmem hrefused =>
    have htext : found.ssid.chars = ap.ssid.chars := (ssid_copy found hmem).symm.trans hafter.2
    have hssid : found.ssid = ap.ssid := by
      cases hf : found.ssid
      cases ha : ap.ssid
      rw [hf, ha] at htext
      cases htext
      rfl
    have hpassword : found.password = some password := (wifiAps_ssid found hmem ap hap hssid).trans hp
    obtain ⟨more, rfl⟩ := wifiRefused_eq_none hpassword hrefused
    exact ⟨more, by rw [hssid]⟩

/-! ### Lines -/

theorem commandOf_apt_iff {name : CStr} : commandOf name = .apt ↔ name.is "apt" = true :=
  commandOf_iff (by decide) (by decide) (by decide) (by simp [commands])

theorem commandOf_networkmanager_iff {name : CStr} :
    commandOf name = .networkmanager ↔ name.is "networkmanager" = true :=
  commandOf_iff (by decide) (by decide) (by decide) (by simp [commands])

theorem commandOf_nmcli_iff {name : CStr} : commandOf name = .nmcli ↔ name.is "nmcli" = true :=
  commandOf_iff (by decide) (by decide) (by decide) (by simp [commands])

/-- What such a line does to packages and network, and what it prints. -/
def networkCommand (argv : List CStr) (net : Network) : Text × Network :=
  match argv with
  | [] => ([], net)
  | name :: args =>
    if name.is "apt" then cmdApt args net
    else if name.is "networkmanager" then cmdNetworkmanager args net
    else if name.is "nmcli" then cmdNmcli args net
    else ([], net)

theorem networkCommand_change (argv : List CStr) (net : Network) :
    Change net argv (networkCommand argv net).2 := by
  unfold networkCommand
  split
  · exact .still _
  split
  · exact cmdApt_change _ _ _
  split
  · exact cmdNetworkmanager_change _ _ _
  split
  · rename_i hname
    rw [is_ofLit hname (by decide)]
    exact cmdNmcli_change _ _
  · exact .still _

/-- **A line of these commands does that and nothing else**, also under `sudo`. -/
theorem shellDispatch_network {argv : List CStr} (hline : networkLine argv = true) (s : System) :
    shellDispatch argv s = .ok (s.connects (networkCommand (effective argv) s.network)) := by
  unfold networkLine at hline
  induction argv generalizing s with
  | nil => cases hline
  | cons name args ih =>
    by_cases hsudo : name.is "sudo" = true
    · rw [effective, if_pos hsudo] at hline ⊢
      have hargs : args ≠ [] := by
        intro heq
        subst heq
        cases hline
      rw [shellDispatch, commandOf_sudo_iff.mpr hsudo]
      dsimp only
      rw [cmdSudo, if_neg hargs, ih hline]
      rfl
    · rw [effective, if_neg hsudo] at hline ⊢
      simp only [Bool.or_eq_true] at hline
      rw [shellDispatch, networkCommand]
      dsimp only
      rcases hline with (hapt | hmanager) | hnmcli
      · rw [commandOf_apt_iff.mpr hapt, if_pos hapt]
      · have hapt : ¬ name.is "apt" = true := by
          rw [is_ofLit hmanager (by decide)]
          decide
        rw [commandOf_networkmanager_iff.mpr hmanager, if_neg hapt, if_pos hmanager]
      · have hapt : ¬ name.is "apt" = true := by
          rw [is_ofLit hnmcli (by decide)]
          decide
        have hmanager : ¬ name.is "networkmanager" = true := by
          rw [is_ofLit hnmcli (by decide)]
          decide
        rw [commandOf_nmcli_iff.mpr hnmcli, if_neg hapt, if_neg hmanager, if_pos hnmcli]

/-! ### Refused connections -/

/-- What is printed says that a connection was not made. -/
def PrintsError (text : Text) : Prop := lit "Error: " <+: written text ∨ lit "nmcli: " <+: written text

theorem success_no_error (more : Text) :
    ¬ PrintsError (write "Device 'wlan0' successfully activated with network '" ++ more) := by
  have hhead : ∀ {p : List UInt8}, p <+: written
      (write "Device 'wlan0' successfully activated with network '" ++ more) →
      p.head? = some 68 ∨ p = [] := by
    intro p hp
    cases p with
    | nil => exact .inr rfl
    | cons c rest =>
      obtain ⟨tail, heq⟩ := hp
      rw [written_append, write, written_vgaWriteString] at heq
      refine .inl ?_
      have hc := congrArg List.head? heq
      rw [List.cons_append, List.head?_cons, List.head?_append_of_ne_nil _ (by decide)] at hc
      rw [List.head?_cons, hc]
      decide
  intro hs
  rcases hs with h | h
  · exact absurd (hhead h) (by decide)
  · exact absurd (hhead h) (by decide)

/-- A connection that prints an error is not made. -/
theorem connect_refused {rest : List CStr} {net : Network}
    (h : PrintsError (networkCommand (connectLine rest) net).1) :
    (networkCommand (connectLine rest) net).2 = net := by
  have hcommand : networkCommand (connectLine rest) net =
      cmdNmcli (.ofLit "device" :: .ofLit "wifi" :: .ofLit "connect" :: rest) net := by
    rw [connectLine, networkCommand, if_neg (by decide), if_neg (by decide), if_pos (by decide)]
  rw [hcommand] at h ⊢
  unfold cmdNmcli at h ⊢
  split
  · rfl
  rename_i sub args heq
  cases heq
  dsimp only at h
  split
  · rfl
  rename_i hinstalled
  rw [if_neg hinstalled] at h
  split
  · rfl
  rename_i hrunning
  rw [if_neg hrunning, if_neg (by decide), if_pos (by decide)] at h
  rw [if_neg (by decide), if_pos (by decide)]
  rw [nmcliDevice, if_neg (by decide), if_pos (by decide)] at h ⊢
  rw [if_neg (by decide), if_pos (by decide)] at h ⊢
  unfold nmcliWifiConnect at h ⊢
  split
  · rfl
  dsimp only at h
  split
  · rfl
  rename_i hfound
  rw [hfound] at h
  dsimp only at h
  split
  · rfl
  rename_i henabled
  rw [if_neg henabled] at h
  split
  · rfl
  rename_i hrefused
  rw [hrefused, List.append_assoc] at h
  exact absurd h (success_no_error _)

/-! ### Every run -/

/-- **Packages and network stay consistent**, over every sequence of these lines. -/
theorem network_consistent (s₀ s : System) (h0 : s₀.network = .initial)
    (hrun : Foundation.Reachable shellDispatch (fun _ argv => networkLine argv = true) s₀ s) :
    (∀ i, (packageRepo i).essential = true →
      (s.network.packageRepo i).name = (packageRepo i).name ∧ (s.network.packageRepo i).installed = true) ∧
    (s.network.wifiConnected = true → packageIsInstalled s.network "network-manager" = true ∧
      s.network.networkManagerRunning = true ∧ s.network.wifiEnabled = true ∧
      ∃ ap ∈ wifiAps, s.network.wifiSsid.text = ap.ssid.chars) ∧
    networkReady s.network = s.network.wifiConnected ∧
    ∀ argv s', networkLine argv = true → shellDispatch argv s = .ok s' →
      (∀ ap ∈ wifiAps, ∀ password, ap.password = some password → ¬ ConnectedTo s.network ap →
        ConnectedTo s'.network ap →
          ∃ more, effective argv = connectLine (ap.ssid :: .ofLit "password" :: password :: more)) ∧
      ∀ rest text, effective argv = connectLine rest → s'.screen = s.screen ++ text → PrintsError text →
        s' = s.print text := by
  have hcons : Consistent s.network := by
    refine hrun.invariant (P := fun s => Consistent s.network) (fun s argv s' hs hline hop => ?_) ?_
    · rw [shellDispatch_network hline] at hop
      cases hop
      exact (networkCommand_change _ _).consistent hs
    · rw [h0]
      exact consistent_initial
  refine ⟨fun i hi => ⟨hcons.name i, hcons.installed i hi⟩, hcons.connected, ?_, fun argv s' hline hop => ?_⟩
  · unfold networkReady
    cases hc : s.network.wifiConnected with
    | false => simp
    | true =>
      obtain ⟨hinstalled, hrunning, henabled, _⟩ := hcons.connected hc
      rw [hinstalled, hrunning, henabled]
      rfl
  · rw [shellDispatch_network hline] at hop
    cases hop
    refine ⟨fun ap hap password hp hbefore hafter => ?_, fun rest text heff hprint herror => ?_⟩
    · exact (networkCommand_change _ _).joins hap hp hbefore hafter
    · have htext : (networkCommand (effective argv) s.network).1 = text := List.append_cancel_left hprint
      have hsame : (networkCommand (effective argv) s.network).2 = s.network := by
        rw [heff] at htext ⊢
        exact connect_refused (htext ▸ herror)
      show {s with network := (networkCommand (effective argv) s.network).2}.print
        (networkCommand (effective argv) s.network).1 = s.print text
      rw [htext, hsame]

/-- The open network joined in the first session. -/
def guest : System :=
  (firstSession blankDisk []).connects (networkCommand (connectLine [.ofLit "OpenGuest"]) .initial)

theorem network_consistent_guest : guest.network.wifiConnected = true ∧
    networkReady guest.network = guest.network.wifiConnected := by
  have hstep : shellDispatch (connectLine [.ofLit "OpenGuest"]) (firstSession blankDisk []) = .ok guest :=
    shellDispatch_network (by decide) _
  obtain ⟨_, _, hready, _⟩ := network_consistent (firstSession blankDisk []) guest rfl
    (.step .start (by decide) hstep)
  exact ⟨by decide, hready⟩

end FurOS
