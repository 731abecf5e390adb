import FurOS.Disk.Regions
import FurOS.Disk.Resaving
import FurOS.Shell.Faults

/-! Sessions of the shell, and what they do to the disk.

A session is what `shell_run` does from the end of its start-up to the line that ends it.
Only `sync`, `disk save`, `disk format` and `install` write to the disk; everything else,
the start-up included, leaves each sector as it was. Leaving the session saves whatever
the table holds by then, wherever a disk is selected and whatever became of its load. -/
namespace FurOS
open Foundation.Buffer (slice)

/-! ### Lines -/

theorem emptyLine_fits : ([] : List UInt8).length < 256 := by decide

/-- The words of the next line. -/
def nextWords (s : System) : List CStr :=
  shellParse (.ofChars (shellReadLine ⟨[], emptyLine_fits⟩ s.keys).1.chars) 16

/-- Every round dispatches the words of a line, and nothing else of it changes anything but the
screen and the keys to come. -/
theorem shellIteration_ok {s s' : System} (h : shellIteration s = .ok s') :
    ∃ keys text, (shellReadLine ⟨[], emptyLine_fits⟩ s.keys).2.2 = some keys ∧
      shellDispatch (nextWords s) ({s with keys := keys}.print text) = .ok s' := by
  obtain ⟨s₁, hprompt, h⟩ := Foundation.bind_eq_ok.mp h
  obtain ⟨text, _, rfl⟩ := shows_eq_ok hprompt
  unfold nextWords
  cases hline : shellReadLine ⟨[], by decide⟩ s.keys with
  | mk line rest =>
    obtain ⟨echo, keys⟩ := rest
    have hline' : shellReadLine ⟨[], by decide⟩ (s.print text).keys = (line, echo, keys) := hline
    rw [hline'] at h
    cases keys with
    | none => cases h
    | some keys =>
      refine ⟨keys, text ++ echo, rfl, ?_⟩
      rw [← System.print_print]
      exact h

/-- A line that has been typed is dispatched. -/
theorem shellIteration_eq {s : System} (wf : WellFormed s.nodes) {keys : List UInt8}
    (hkeys : (shellReadLine ⟨[], by decide⟩ s.keys).2.2 = some keys) :
    ∃ text, shellIteration s = shellDispatch (nextWords s) ({s with keys := keys}.print text) := by
  obtain ⟨path, hpath, _⟩ := shellBuildPath_returns wf.bounded s.shellCwd
  have hprompt : ∃ prompt, shellPrompt s = .ok prompt := by
    unfold shellPrompt
    rw [hpath]
    exact ⟨_, rfl⟩
  obtain ⟨prompt, hprompt⟩ := hprompt
  unfold nextWords
  cases hline : shellReadLine ⟨[], by decide⟩ s.keys with
  | mk line rest =>
    obtain ⟨echo, rest⟩ := rest
    rw [hline] at hkeys
    obtain rfl : rest = some keys := hkeys
    refine ⟨promptColor s.shellUid ++ prompt ++ [.setColor vgaColorLightGrey vgaColorBlack] ++ echo, ?_⟩
    rw [← System.print_print]
    unfold shellIteration
    have hshow : ∀ text, s.shows (pure text) = .ok (s.print text) := fun _ => rfl
    rw [hprompt, Foundation.ok_bind, hshow, Foundation.ok_bind]
    simp only [System.print, hline]

/-- The states at the prompts of a session whose lines all satisfy `P`, and the state it is left in. -/
def Prompted (P : System → List CStr → Prop) (start : System) : System → Prop :=
  Foundation.Reachable (fun _ : Unit => shellIteration)
    (fun s _ => s.shellExit = false ∧ P s (nextWords s)) start

/-- What every line preserves holds at every prompt. -/
theorem Prompted.invariant {P : System → List CStr → Prop} {Q : System → Prop}
    (hQ : ∀ s argv s', Q s → P s argv → shellDispatch argv s = .ok s' → Q s')
    (hkeys : ∀ s keys text, Q ({s with keys := keys}.print text) ↔ Q s)
    (hP : ∀ s keys text argv, P ({s with keys := keys}.print text) argv ↔ P s argv) {start s : System}
    (h0 : Q start) (h : Prompted P start s) : Q s := by
  refine Foundation.Reachable.invariant (P := Q) (fun s _ s' hs ha hstep => ?_) h0 h
  obtain ⟨keys, text, _, hdispatch⟩ := shellIteration_ok hstep
  exact hQ _ _ s' ((hkeys s keys text).mpr hs) ((hP s keys text _).mpr ha.2) hdispatch

/-! ### What writes to the disk -/

/-- The line writes to the disk: `sync`, `install`, `disk save` or `disk format`. -/
def writesDisk : List CStr → Bool
  | [] => false
  | name :: args =>
    name.is "sync" || name.is "install" ||
      name.is "disk" && match args with
        | [] => false
        | sub :: _ => sub.is "save" || sub.is "format"

/-- The disk is selected as before, and every sector of it holds what it held. -/
structure Quiet (d d' : Disk) : Prop extends Steady d d' where
  sectors : d'.drive.sectors = d.drive.sectors

theorem Quiet.refl (d : Disk) : Quiet d d := ⟨.refl d, rfl⟩

theorem Quiet.trans {d d' d'' : Disk} (h : Quiet d d') (h' : Quiet d' d'') : Quiet d d'' :=
  ⟨h.toSteady.trans h'.toSteady, h'.sectors.trans h.sectors⟩

theorem diskLoadFs_quiet (t : Nodes) (d : Disk) : Quiet d (diskLoadFs t d).2.2 :=
  ⟨diskLoadFs_steady t d, funext fun lba => (diskLoadFs_within t d).1.kept lba id⟩

theorem commandOf_sync_iff {name : CStr} : commandOf name = .sync ↔ name.is "sync" = true :=
  commandOf_iff (by decide) (by decide) (by decide) (by simp [commands])

/-- `disk` without `save` and `format`. -/
theorem cmdDisk_quiet {args : List CStr} (s : System)
    (h : ∀ sub rest, args = sub :: rest → sub.is "save" = false ∧ sub.is "format" = false) :
    Quiet s.disk (cmdDisk args s).disk := by
  cases args with
  | nil => exact .refl _
  | cons sub rest =>
    obtain ⟨hsave, hformat⟩ := h sub rest rfl
    have hload := diskLoadFs_quiet s.nodes s.disk
    unfold cmdDisk
    dsimp only
    split
    · exact .refl _
    split
    · unfold diskLoad
      dsimp only
      split <;> exact hload
    rw [if_neg (by simp [hsave]), if_neg (by simp [hformat])]
    exact .refl _

/-- **A line that is none of these leaves every sector as it was**, also under `sudo`. -/
theorem shellDispatch_quiet {argv : List CStr} {s s' : System} (h : shellDispatch argv s = .ok s')
    (hno : writesDisk (effective argv) = false) : Quiet s.disk s'.disk := by
  induction argv generalizing s s' with
  | nil =>
    cases h
    exact .refl _
  | cons name args ih =>
    simp only [shellDispatch] at h
    by_cases hsudo : name.is "sudo" = true
    · rw [commandOf_sudo_iff.mpr hsudo] at h
      rw [effective, if_pos hsudo] at hno
      rcases cmdSudo_eq_ok h with ⟨_, text, rfl⟩ | ⟨s₁, h₁, rfl⟩
      · exact .refl _
      · have hquiet := ih h₁ hno
        exact hquiet
    rw [effective, if_neg hsudo] at hno
    simp only [writesDisk, Bool.or_eq_false_iff, Bool.and_eq_false_iff] at hno
    obtain ⟨⟨hsync, hinstall⟩, hdisk⟩ := hno
    cases hk : commandOf name with
    | help | clear | whoami | id | logout | apt | networkmanager | nmcli | ifconfig | unknown =>
      rw [hk] at h
      cases h
      exact .refl _
    | pwd | ls | cat =>
      rw [hk] at h
      obtain ⟨text, _, rfl⟩ := shows_eq_ok h
      exact .refl _
    | cd =>
      rw [hk] at h
      obtain ⟨text, cwd, _, rfl⟩ := moves_eq_ok h
      exact .refl _
    | mkdir | touch | write | rm | chmod | chown =>
      rw [hk] at h
      obtain ⟨text, t, _, rfl⟩ := edits_eq_ok h
      exact .refl _
    | nano =>
      rw [hk] at h
      obtain ⟨t, text, keys, _, rfl⟩ := types_eq_ok h
      exact .refl _
    | «sudo» => exact absurd (commandOf_sudo_iff.mp hk) hsudo
    | install =>
      rw [commandOf_install_iff.mp hk] at hinstall
      cases hinstall
    | sync =>
      rw [commandOf_sync_iff.mp hk] at hsync
      cases hsync
    | disk =>
      rw [hk] at h
      cases h
      refine cmdDisk_quiet s fun sub rest hargs => ?_
      rcases hdisk with hdisk | hdisk
      · rw [commandOf_disk_iff.mp hk] at hdisk
        cases hdisk
      · subst hargs
        simpa using hdisk

/-- A session of such lines leaves every sector as it was, up to its end. -/
theorem Prompted.quiet {start s : System}
    (h : Prompted (fun _ argv => writesDisk (effective argv) = false) start s) : Quiet start.disk s.disk :=
  Prompted.invariant (Q := fun s => Quiet start.disk s.disk)
    (fun _ _ _ hs hno hstep => hs.trans (shellDispatch_quiet hstep hno)) (fun _ _ _ => Iff.rfl)
    (fun _ _ _ _ => Iff.rfl) (.refl _) h

/-! ### Start-up -/

theorem shellMotd_returns {t : Nodes} (wf : WellFormed t) : Foundation.Returns (shellMotd t) fun _ => True := by
  refine (fsReadFile_bounded wf.bounded wf.bounded.root _).bind fun o ho => ?_
  cases o with
  | none => exact .ok trivial
  | some x =>
    obtain ⟨hdata, _⟩ := ho x.1 x.2 rfl
    have htext : Foundation.Returns (readStr x.1) fun _ => True :=
      .ite (fun _ => .ok trivial) fun h => absurd hdata h
    exact .ite (fun _ => .ok trivial) fun _ => htext.bind fun _ _ => .ok trivial

theorem fsDeserialize_failed {len : Nat} {image : Fin len → UInt8}
    (h : (fsDeserialize fsInit image).1 ≠ 0) : (fsDeserialize fsInit image).2 = fsInit := by
  unfold fsDeserialize at h ⊢
  cases hr : readRecords image with
  | none => rfl
  | some records =>
    rw [hr] at h
    dsimp only at h ⊢
    by_cases hroot : (!((records 0).load).used || !((records 0).load).isDir) = true
    · rw [if_pos hroot]
    · rw [if_neg hroot] at h
      exact absurd rfl h

/-- A load into an empty filesystem that fails leaves it empty. -/
theorem diskLoadFs_fsInit {d : Disk} (h : (diskLoadFs fsInit d).1 ≠ 0) : (diskLoadFs fsInit d).2.1 = fsInit := by
  by_cases hstored : ∃ (len : Nat) (image : Fin len → UInt8), StoredImage d image
  · obtain ⟨len, image, himage⟩ := hstored
    obtain ⟨hstatus, htable⟩ := diskLoadFs_stored himage fsInit
    rw [htable]
    exact fsDeserialize_failed fun h0 => h (by rw [hstatus, if_neg (by simp [h0])])
  · exact (diskLoadFs_unstored hstored fsInit).2

theorem seedLive_disk {s s' : System} (h : seedLive s = .ok s') : s'.disk = s.disk := by
  obtain ⟨text, t, _, rfl⟩ := edits_eq_ok h
  rfl

theorem loadOrSeed_quiet {s s' : System} (h : loadOrSeed s = .ok s') : Quiet s.disk s'.disk := by
  have hload := diskLoadFs_quiet s.nodes s.disk
  unfold loadOrSeed at h
  split at h
  · rw [seedLive_disk h]
    exact .refl _
  · dsimp only at h
    split at h
    · cases h
      exact hload
    · rw [seedLive_disk h]
      exact hload

/-- Starting up writes nothing. -/
theorem shellStart_quiet {s s₀ : System} {scan : Scan} (h : shellStart s scan = .ok s₀) :
    Quiet (diskInit scan s.disk) s₀.disk := by
  obtain ⟨s₁, h₁, h⟩ := Foundation.bind_eq_ok.mp h
  obtain ⟨text, _, rfl⟩ := shows_eq_ok h
  have hquiet := loadOrSeed_quiet h₁
  exact hquiet

/-! ### Leaving -/

theorem shellFinish_sectors_iff {s : System} (hsel : diskAvailable s.disk = true) :
    (shellFinish s).disk.drive.sectors = s.disk.drive.sectors ↔ SavesWhatIsThere s.nodes s.disk := by
  unfold shellFinish
  rw [if_pos hsel]
  exact diskSaveFs_unchanged_iff (of_decide_eq_true hsel) s.nodes

/-- **When a session leaves the disk as it found it.** Up to its end it writes nothing, where no line
says so. At its end it saves its table, whether that was loaded from the disk or not: the disk is as it
was exactly when every write of that save puts what is there already, or fails and leaves it. -/
theorem session_sectors (s : System) (scan : Scan) (s₀ s₁ : System)
    (hsel : diskAvailable (diskInit scan s.disk) = true) (hstart : shellStart s scan = .ok s₀)
    (hrun : Prompted (fun _ argv => writesDisk (effective argv) = false) s₀ s₁) :
    s₁.disk.drive.sectors = s.disk.drive.sectors ∧
      ((shellFinish s₁).disk.drive.sectors = s.disk.drive.sectors ↔
        SavesWhatIsThere s₁.nodes s₁.disk) := by
  have hquiet := (shellStart_quiet hstart).trans hrun.quiet
  have hsame : s₁.disk.drive.sectors = s.disk.drive.sectors := hquiet.sectors
  have hsel₁ : diskAvailable s₁.disk = true := by
    unfold diskAvailable at hsel ⊢
    rw [hquiet.selectedDisk]
    exact hsel
  refine ⟨hsame, ?_⟩
  rw [← hsame]
  exact shellFinish_sectors_iff hsel₁

/-! ### A session that could not load -/

/-- Where nothing can be loaded, start-up makes a filesystem of its own. -/
theorem shellStart_live (s : System) (scan : Scan)
    (h : diskAvailable (diskInit scan s.disk) = true → (diskLoadFs fsInit (diskInit scan s.disk)).1 ≠ 0) :
    ∃ s₀, shellStart s scan = .ok s₀ ∧ shellSeedFilesystem fsInit = .ok s₀.nodes ∧
      WellFormed s₀.nodes ∧ s₀.shellCwd = fsGetRoot ∧ s₀.shellUid = shellUidDebian ∧
      s₀.shellExit = false ∧ s₀.keys = s.keys := by
  obtain ⟨t, ht, wf, _⟩ := shellSeedFilesystem_ok
  obtain ⟨motd, hmotd, _⟩ := shellMotd_returns wf
  have hseed : ∀ s' : System, s'.nodes = fsInit → s'.keys = s.keys → s'.shellExit = false →
      ∃ s₁, seedLive s' = .ok s₁ ∧ s₁.nodes = t ∧ s₁.keys = s.keys ∧ s₁.shellExit = false := by
    intro s' hnodes hkeys hexit
    unfold seedLive System.edits
    rw [hnodes, ht]
    exact ⟨_, rfl, rfl, hkeys, hexit⟩
  obtain ⟨s₁, h₁, hnodes, hkeys, hexit⟩ : ∃ s₁,
      loadOrSeed {s with nodes := fsInit, disk := diskInit scan s.disk, shellExit := false} = .ok s₁ ∧
        s₁.nodes = t ∧ s₁.keys = s.keys ∧ s₁.shellExit = false := by
    unfold loadOrSeed
    dsimp only
    split
    · exact hseed _ rfl rfl rfl
    · rename_i hav
      have hfail := h (by simpa using hav)
      rw [if_neg hfail]
      exact hseed _ (diskLoadFs_fsInit hfail) rfl rfl
  refine ⟨{s₁ with shellCwd := fsGetRoot, shellUid := shellUidDebian}.print motd, ?_, by
    rw [ht, ← hnodes]; rfl, by show WellFormed s₁.nodes; rwa [hnodes], rfl, rfl, hexit, hkeys⟩
  unfold shellStart
  rw [h₁, Foundation.ok_bind]
  dsimp only
  rw [hnodes, hmotd]
  rfl

/-- `exit` at a prompt. -/
theorem shellIteration_exit {s : System} (wf : WellFormed s.nodes) (hkeys : s.keys = lit "exit\n") :
    ∃ s', shellIteration s = .ok s' ∧ nextWords s = [.ofLit "exit"] ∧ s'.shellExit = true ∧
      s'.nodes = s.nodes ∧ s'.disk = s.disk := by
  have hwords : nextWords s = [.ofLit "exit"] := by
    unfold nextWords
    rw [hkeys]
    decide
  have hrest : (shellReadLine ⟨[], by decide⟩ s.keys).2.2 = some [] := by
    rw [hkeys]
    decide
  obtain ⟨text, hstep⟩ := shellIteration_eq wf hrest
  rw [hwords, shellDispatch, show commandOf (.ofLit "exit") = .logout by decide] at hstep
  exact ⟨_, hstep, hwords, rfl, rfl, rfl⟩

/-- The system when the terminal is first opened. -/
def firstSession (d : Disk) (keys : List UInt8) : System :=
  { nodes := fun _ => .zero
    disk := d
    shellCwd := 0
    shellUid := 0
    shellExit := false
    network := .initial
    keys := keys
    screen := [] }

/-- One disk, selected. -/
def oneDiskScan : Scan := ⟨1, .ofLit "ok"⟩

/-- No disk. -/
def noDiskScan : Scan := ⟨0, .ofLit "no IDE disk"⟩

theorem firstSession_exit {d : Disk} (h : (diskLoadFs fsInit (diskInit oneDiskScan d)).1 ≠ 0) :
    ∃ s₀ s₁, shellStart (firstSession d (lit "exit\n")) oneDiskScan = .ok s₀ ∧
      Prompted (fun _ argv => writesDisk (effective argv) = false) s₀ s₁ ∧ s₁.shellExit = true := by
  obtain ⟨s₀, hstart, _, wf, _, _, hexit, hkeys⟩ :=
    shellStart_live (firstSession d (lit "exit\n")) oneDiskScan fun _ => h
  obtain ⟨s₁, hstep, hwords, hexit', _⟩ := shellIteration_exit wf hkeys
  refine ⟨s₀, s₁, hstart, .step (o := ()) .start ⟨hexit, ?_⟩ hstep, hexit'⟩
  rw [hwords]
  show writesDisk (effective [.ofLit "exit"]) = false
  decide

/-! ### A session that saves what it loaded -/

/-- Where a filesystem loads, start-up takes it. -/
theorem shellStart_loaded (s : System) (scan : Scan) {d : Disk} (hd : diskInit scan s.disk = d)
    (hav : diskAvailable d = true) (hload : (diskLoadFs fsInit d).1 = 0) (wf : WellFormed (diskLoadFs fsInit d).2.1) :
    ∃ s₀, shellStart s scan = .ok s₀ ∧ s₀.nodes = (diskLoadFs fsInit d).2.1 ∧ s₀.disk = (diskLoadFs fsInit d).2.2 ∧
      s₀.shellExit = false ∧ s₀.keys = s.keys := by
  subst hd
  obtain ⟨motd, hmotd, _⟩ := shellMotd_returns wf
  have hfound : loadOrSeed {s with nodes := fsInit, disk := diskInit scan s.disk, shellExit := false} =
      .ok {s with
        nodes := (diskLoadFs fsInit (diskInit scan s.disk)).2.1
        disk := (diskLoadFs fsInit (diskInit scan s.disk)).2.2
        shellExit := false} := by
    unfold loadOrSeed
    dsimp only
    rw [if_neg (by simp [hav]), if_pos hload]
  unfold shellStart
  rw [hfound, Foundation.ok_bind]
  dsimp only
  unfold System.shows
  rw [hmotd]
  exact ⟨_, rfl, rfl, rfl, rfl, rfl⟩

/-- A disk that `nested` was saved to. -/
def nestedDisk : Disk := rebooted (diskSaveFs nested blankDisk).2

theorem nestedDisk_sectors : nestedDisk.drive.sectors = (diskSaveFs nested blankDisk).2.drive.sectors :=
  rebooted_sectors _

theorem nestedDisk_saved : Saved nested nestedDisk.drive.sectors := (diskSaveFs_blankDisk nested).2

/-- Its root is as every load leaves one. -/
theorem resetRoot_nested : resetRoot nested = nested := by
  obtain ⟨⟨howner, hmode⟩, -⟩ := nested_nodes
  rw [resetRoot_wellFormed nested_wellFormed, Function.update_eq_self_iff, ← howner, ← hmode]

theorem session_sectors_nested :
    ∃ s₀ s₁, shellStart (firstSession nestedDisk (lit "exit\n")) oneDiskScan = .ok s₀ ∧
      Prompted (fun _ argv => writesDisk (effective argv) = false) s₀ s₁ ∧ s₁.shellExit = true ∧ s₁.nodes = nested ∧
      (shellFinish s₁).disk.drive.sectors = nestedDisk.drive.sectors := by
  have himage : StoredImage (diskInit oneDiskScan nestedDisk) (fsImage nested) :=
    storedImage_of_bytes (le_refl _) (rebooted_healthy _) nestedDisk_saved.header nestedDisk_saved.image rfl
  obtain ⟨hload, htable⟩ : (diskLoadFs fsInit (diskInit oneDiskScan nestedDisk)).1 = 0 ∧
      (diskLoadFs fsInit (diskInit oneDiskScan nestedDisk)).2.1 = nested := by
    have hloaded := diskLoadFs_saved nested_reachable.savable (d := diskInit oneDiskScan nestedDisk) (le_refl _)
      (rebooted_healthy _) nestedDisk_saved fsInit
    rwa [resetRoot_nested] at hloaded
  have wf : WellFormed (diskLoadFs fsInit (diskInit oneDiskScan nestedDisk)).2.1 := by
    rw [htable]
    exact nested_wellFormed
  obtain ⟨s₀, hstart, hnodes, hdisk, hexit, hkeys⟩ := shellStart_loaded (firstSession nestedDisk (lit "exit\n"))
    oneDiskScan (d := diskInit oneDiskScan nestedDisk) rfl rfl hload wf
  have hnested : s₀.nodes = nested := hnodes.trans htable
  obtain ⟨s₁, hstep, hwords, hexit', hnodes', hdisk'⟩ := shellIteration_exit (hnested.symm ▸ nested_wellFormed) hkeys
  have hrun : Prompted (fun _ argv => writesDisk (effective argv) = false) s₀ s₁ := by
    refine .step (o := ()) .start ⟨hexit, ?_⟩ hstep
    rw [hwords]
    show writesDisk (effective [.ofLit "exit"]) = false
    decide
  obtain ⟨hsame, hiff⟩ := session_sectors (firstSession nestedDisk (lit "exit\n")) oneDiskScan s₀ s₁ rfl hstart hrun
  refine ⟨s₀, s₁, hstart, hrun, hexit', hnodes'.trans hnested, hiff.mpr ?_⟩
  rw [hnodes', hnested]
  have hquiet := (shellStart_quiet hstart).trans hrun.quiet
  have hsectors : s₁.disk.drive.sectors = nestedDisk.drive.sectors := hsame
  refine savesWhatIsThere_of_read ?_ ?_ (hquiet.neverFails fun _ => rfl) fun k hk => ?_
  · rw [hsectors]
    exact nestedDisk_saved
  · rw [hsectors, nestedDisk_sectors]
    exact diskSaveFs_header (le_refl _) rfl nested
  · have hread := diskLoadFs_payload himage fsInit (k := k) (by omega) (by rw [sectorCount_image]; exact hk)
    rw [hsectors, hdisk', hdisk]
    exact hread

theorem not_installed_zero : (DiskHeader.ofSector fun _ => 0).installed = false := by decide

theorem diskLoadFs_blank : (diskLoadFs fsInit (diskInit oneDiskScan blankDisk)).1 = -1 := by
  refine (diskLoadFs_unstored ?_ fsInit).1
  intro hs
  obtain ⟨len, image, h⟩ := hs
  have hinstalled := h.installed
  have hzero : storedHeader (diskInit oneDiskScan blankDisk).drive.sectors =
    DiskHeader.ofSector fun _ => 0 := rfl
  rw [hzero, not_installed_zero] at hinstalled
  cases hinstalled

/-- A blank disk is written over. -/
theorem session_overwrites_blank :
    (diskLoadFs fsInit (diskInit oneDiskScan blankDisk)).1 = -1 ∧
      ∃ s₀ s₁, shellStart (firstSession blankDisk (lit "exit\n")) oneDiskScan = .ok s₀ ∧
        Prompted (fun _ argv => writesDisk (effective argv) = false) s₀ s₁ ∧ s₁.shellExit = true ∧
        (shellFinish s₁).disk.drive.sectors ≠ blankDisk.drive.sectors := by
  have hload := diskLoadFs_blank
  obtain ⟨s₀, s₁, hstart, hrun, hexit⟩ := firstSession_exit (d := blankDisk) (by rw [hload]; decide)
  have hquiet := (shellStart_quiet hstart).trans hrun.quiet
  have hsectors : s₁.disk.drive.sectors = blankDisk.drive.sectors := hquiet.sectors
  have hsel : diskAvailable s₁.disk = true := by
    unfold diskAvailable
    rw [hquiet.selectedDisk]
    rfl
  have hup : s₁.disk.drive.upcoming = .ok := by
    unfold Drive.upcoming
    rw [hquiet.outcome]
    rfl
  refine ⟨hload, s₀, s₁, hstart, hrun, hexit, fun hsame => ?_⟩
  obtain ⟨hheader, _⟩ := (shellFinish_sectors_iff hsel).mp (hsame.trans hsectors.symm)
  rw [hup, hsectors] at hheader
  have hinstalled := savedHeader_installed s₁.nodes
  have hsaved : DiskHeader.ofSector (headerSector s₁.nodes) = savedHeader s₁.nodes := by
    rw [headerSector, DiskHeader.ofSector, Foundation.Field.load_store]
  have hzero : headerSector s₁.nodes = fun _ => 0 := hheader
  rw [← hsaved, hzero, not_installed_zero] at hinstalled
  cases hinstalled

end FurOS
