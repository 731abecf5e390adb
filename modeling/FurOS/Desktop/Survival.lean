import FurOS.Desktop.Documents

/-! Which saved documents the terminal finds.

Opening the terminal empties the table and loads the disk. A document that was saved while a disk
was selected is on it, and stays there and in the table, whatever spares it. A document that was
saved before any disk was looked for is in the table alone, and the terminal empties that. -/
namespace FurOS.Desktop

/-! ### What spares the document -/

/-- The line neither replaces the table nor writes to the document or removes it. -/
def SparesLine (s : System) : Prop :=
  replacesTable (effective (nextWords s)) = false ∧
    ∀ rest (n : NodeId), (shellReadLine ⟨[], emptyLine_fits⟩ s.keys).2.2 = some rest →
      Overwrites s.nodes s.shellCwd rest (effective (nextWords s)) n →
      fsResolve s.nodes fsGetRoot document ≠ .ok (n.val : Int)

/-- The step saves no text over the document, and no line spoils it. -/
def Spares (d : State) (a : Action) : Prop :=
  match d.program, a with
  | .kate k, .key key => key = keyF2 → ∀ k' s, kateSave k d.sys ≠ .ok (0, k', s)
  | .unsavedPrompt k, .key key => key = keyF2 → ∀ k' s, kateSave k d.sys ≠ .ok (0, k', s)
  | .terminal, .line keys => SparesLine {d.sys with keys := d.sys.keys ++ keys}
  | _, _ => True

/-- However long the document is spared, the terminal starts and these bytes are in it. -/
def Survives (scan : Scan) (d : State) (bytes : List UInt8) : Prop :=
  ∀ d₁, Foundation.Reachable (State.step scan) Spares d d₁ → d₁.program = .desktop →
    ∃ d₂, d₁.step scan (.launch .terminal) = .ok d₂ ∧ Reads d₂.sys.nodes bytes

/-! ### A document that was saved to a disk -/

theorem DiskReads.available {d : Disk} {bytes : List UInt8} (h : DiskReads d bytes) : diskAvailable d = true := by
  by_contra hno
  exact diskLoadFs_unselected (by simpa using hno) fsInit h.1

theorem DiskReads.selected {d : Disk} {bytes : List UInt8} (h : DiskReads d bytes) : 0 ≤ d.selectedDisk :=
  of_decide_eq_true h.available

/-- The sectors say what a disk holds. -/
theorem DiskReads.congr {d d' : Disk} {bytes : List UInt8} (h : DiskReads d bytes) (hsel : 0 ≤ d'.selectedDisk)
    (hok : d.drive.NeverFails) (hok' : d'.drive.NeverFails) (hsectors : d'.drive.sectors = d.drive.sectors) :
    DiskReads d' bytes := by
  obtain ⟨hstatus, htable⟩ := diskLoadFs_congr h.selected hsel hok hok' hsectors fsInit
  exact ⟨hstatus.trans h.1, htable ▸ h.2⟩

/-- The document is on the disk that the scan finds, and in the table wherever that disk was found already. -/
structure Stored (scan : Scan) (s : System) (bytes : List UInt8) : Prop where
  disk : DiskReads (diskInit scan s.disk) bytes
  table : diskAvailable s.disk = true → Reads s.nodes bytes

section Stored
variable {scan : Scan} {drive : Drive} {s s' : System} {bytes : List UInt8}

theorem SoundSystem.neverFails (h : SoundSystem scan drive s) (hok : drive.NeverFails) :
    s.disk.drive.NeverFails := by
  intro n
  rw [h.outcome]
  exact hok n

/-- A disk that was found is the one that is found again. -/
theorem SoundSystem.found (h : SoundSystem scan drive s) (hav : diskAvailable s.disk = true) :
    0 ≤ scan.selected := by
  have hsel : 0 ≤ s.disk.selectedDisk := of_decide_eq_true hav
  rcases h.selected with hnone | hscan
  · omega
  · omega

/-- Saving the table to a disk stores the document. -/
theorem SoundSystem.saved (h : SoundSystem scan drive s) (hok : drive.NeverFails)
    (hav : diskAvailable s.disk = true) (ht : Savable s.nodes) (hreads : Reads s.nodes bytes) :
    Stored scan {s with disk := (diskSaveFs s.nodes s.disk).2} bytes where
  disk := diskSaveFs_reads ht hreads (of_decide_eq_true hav) (h.neverFails hok) (h.found hav)
    ((diskSaveFs_steady s.nodes s.disk).neverFails (h.neverFails hok)) rfl
  table _ := hreads

/-- The table is changed, and saved where it can be. -/
theorem Stored.sync (h : Stored scan s bytes) (hs : SoundSystem scan drive s) (hok : drive.NeverFails)
    {t : Nodes} (ht : Spared s.nodes t) : Stored scan (diskSync {s with nodes := t}) bytes := by
  unfold diskSync
  split
  · rename_i hav
    have hsound : SoundSystem scan drive {s with nodes := t} :=
      ⟨hs.outcome, hs.selected, fun _ => ht.savable (hs.savable hav), hs.slot⟩
    exact hsound.saved hok hav (hsound.savable hav) (ht.reads bytes (h.table hav))
  · rename_i hno
    exact ⟨h.disk, fun hav => absurd hav hno⟩

/-- Opening the terminal finds the document. -/
theorem Stored.start (h : Stored scan s bytes) (hs : SoundSystem scan drive s) (hok : drive.NeverFails)
    (hstart : shellStart s scan = .ok s') : Stored scan s' bytes ∧ Reads s'.nodes bytes := by
  obtain ⟨s₀, hstart', hstarts, _⟩ := shellStart_starts s scan
  rw [hstart] at hstart'
  cases hstart'
  have hreads : Reads s'.nodes bytes := by
    rcases hstarts with ⟨_, htable⟩ | ⟨hno, _⟩
    · rw [htable]
      exact h.disk.2
    · exact absurd h.disk.1 hno
  have hquiet := shellStart_quiet hstart
  have hsectors : (diskInit scan s'.disk).drive.sectors = (diskInit scan s.disk).drive.sectors := hquiet.sectors
  have hnever : (diskInit scan s.disk).drive.NeverFails := hs.neverFails hok
  have hnever' : (diskInit scan s'.disk).drive.NeverFails := hquiet.neverFails hnever
  exact ⟨⟨h.disk.congr h.disk.selected hnever hnever' hsectors, fun _ => hreads⟩, hreads⟩

/-- A round of the shell whose line spares the document. -/
theorem Stored.round (h : Stored scan s bytes) (hs : SoundSystem scan drive s) (hok : drive.NeverFails)
    (hav : diskAvailable s.disk = true) {keys : List UInt8} (hspares : SparesLine {s with keys := keys})
    (hround : shellIteration {s with keys := keys} = .ok s') : Stored scan s' bytes := by
  obtain ⟨rest, text, hrest, hdispatch⟩ := shellIteration_ok hround
  obtain ⟨uid, heffect⟩ := shellDispatch_effect hdispatch
  obtain ⟨hno, hother⟩ := hspares
  have hreads := h.table hav
  obtain ⟨f, hf⟩ := reads_iff.mp hreads
  have hres : fsResolve s.nodes fsGetRoot document = .ok (f.val : Int) := by
    have hroot : findChild s.nodes fsGetRoot document.chars = some f := hf.found
    rw [fsResolve_name s.nodes fsGetRoot plainName_document, hroot, toC_some]
  obtain ⟨hedits, _⟩ := heffect.edits (P := (· ≠ f)) hs.slot hno fun n hn hnf => by
    subst hnf
    exact hother rest n hrest hn hres
  have htable : Reads s'.nodes bytes := reads_iff.mpr ⟨f, hedits.holds hf⟩
  have hdisk : s'.disk = s.disk ∨ s'.nodes = s.nodes ∧ s'.disk = (diskSaveFs s.nodes s.disk).2 :=
    heffect.disk_kept hno
  refine ⟨?_, fun _ => htable⟩
  rcases hdisk with hsame | ⟨_, hsaved⟩
  · rw [hsame]
    exact h.disk
  · rw [hsaved]
    exact (hs.saved hok hav (hs.savable hav) hreads).disk

end Stored

/-- **Every step that spares the document keeps it stored.** -/
theorem Stored.step {scan : Scan} {drive : Drive} {d d' : State} {a : Action} {bytes : List UInt8}
    (h : Stored scan d.sys bytes) (hs : Sound scan drive d) (hok : drive.NeverFails) (hspares : Spares d a)
    (hstep : d.step scan a = .ok d') : Stored scan d'.sys bytes := by
  cases step_move hstep with
  | still hsys => exact hsys ▸ h
  | terminal _ hstart hsys =>
    rw [hsys]
    exact (h.start hs.toSoundSystem hok hstart).1
  | @kateSave k k' r s _ hk hsave hsys =>
    have hunsaved : ∀ k' s, kateSave k d.sys ≠ .ok (0, k', s) := by
      unfold Spares at hspares
      rcases hk with hk | hk
      · rw [hk] at hspares
        exact hspares rfl
      · rw [hk] at hspares
        exact hspares rfl
    rcases kateSave_eq (hs.untitled k hk) d.sys with ⟨hsame, _⟩ | ⟨t, hsaved, _⟩
    · rw [hsame] at hsave
      cases hsave
      exact hsys ▸ h
    · exact absurd hsaved (hunsaved _ _)
  | setSave _ hsave hsys =>
    obtain ⟨t, hspared, rfl⟩ := setSave_eq hsave
    rw [hsys]
    exact h.sync hs.toSoundSystem hok hspared
  | @line keys s _ ht hround hend =>
    unfold Spares at hspares
    rw [ht] at hspares
    have hav : diskAvailable d.sys.disk = true := by
      unfold diskAvailable
      rw [hs.terminal ht]
      exact h.disk.available
    have hstored := h.round hs.toSoundSystem hok hav hspares hround
    obtain ⟨hsound, _⟩ := hs.toSoundSystem.round _ hround
    rcases hend with ⟨_, hsys⟩ | ⟨_, hsys⟩
    · exact hsys ▸ hstored
    · rw [hsys]
      exact hstored.sync hsound hok (.refl s.nodes)

/-- Opening the terminal. -/
theorem step_terminal {scan : Scan} {d : State} {s : System} (hd : d.program = .desktop)
    (hstart : shellStart d.sys scan = .ok s) :
    d.step scan (.launch .terminal) = .ok {d with sys := s, program := .terminal} := by
  unfold State.step
  rw [hd]
  dsimp only
  rw [State.launch, hstart]
  rfl

/-- A document that is stored survives. -/
theorem Stored.survives {scan : Scan} {drive : Drive} {d : State} {bytes : List UInt8}
    (h : Stored scan d.sys bytes) (hs : Sound scan drive d) (hok : drive.NeverFails) : Survives scan d bytes := by
  intro d₁ hrun hd
  obtain ⟨hs₁, h₁⟩ := hrun.invariant (P := fun d => Sound scan drive d ∧ Stored scan d.sys bytes)
    (fun _ _ _ hboth hspares hstep => ⟨hboth.1.step hstep, hboth.2.step hboth.1 hok hspares hstep⟩) ⟨hs, h⟩
  obtain ⟨s, hstart, _⟩ := shellStart_starts d₁.sys scan
  exact ⟨_, step_terminal hd hstart, (h₁.start hs₁.toSoundSystem hok hstart).2⟩

/-! ### A document that was not -/

/-- The filesystem that start-up makes where none loads has no document, and room for one. -/
theorem seeded_document : ∃ t, shellSeedFilesystem fsInit = .ok t ∧ findChild t 0 document.chars = none ∧
    (t 100).used = false := by
  obtain ⟨t, hseed, hcheck⟩ : ∃ t, shellSeedFilesystem fsInit = .ok t ∧
      ((findChild t 0 document.chars).isNone && !(t 100).used) = true :=
    Foundation.exists_of_check (by decide +kernel)
  rw [Bool.and_eq_true, Option.isNone_iff_eq_none, Bool.not_eq_true'] at hcheck
  exact ⟨t, hseed, hcheck⟩

/-- What the terminal starts from has the document only where the disk has it. -/
theorem starts_reads_iff {d : Disk} {t : Nodes} {bytes : List UInt8} (h : Starts d t) :
    Reads t bytes ↔ DiskReads d bytes := by
  rcases h with ⟨hstatus, rfl⟩ | ⟨hstatus, hseed⟩
  · exact ⟨fun h => ⟨hstatus, h⟩, fun h => h.2⟩
  · refine ⟨fun hreads => ?_, fun h => absurd h.1 hstatus⟩
    obtain ⟨t', hseed', hnone, -⟩ := seeded_document
    rw [hseed] at hseed'
    cases hseed'
    obtain ⟨f, hf⟩ := reads_iff.mp hreads
    rw [hf.found] at hnone
    cases hnone

/-- The desktop is on the screen, or an editor with nothing to save. -/
def Idle (d : State) : Prop := (∃ k, d.program = .kate k ∧ k.modified = false) ∨ d.program = .desktop

/-- `F2` that saves leaves nothing to save. -/
theorem step_save (scan : Scan) {d : State} {k k' : Kate} {s : System} (hk : InEditor d k)
    (huntitled : Untitled k) (hsave : kateSave k d.sys = .ok (0, k', s)) :
    ∃ d', d.step scan (.key keyF2) = .ok d' ∧ d'.sys = s ∧ Idle d' := by
  have hmod : k'.modified = false := by
    rcases kateSave_eq huntitled d.sys with ⟨hfail, _⟩ | ⟨t, hsaved, _⟩
    · rw [hsave] at hfail
      cases hfail
    · rw [hsave] at hsaved
      cases hsaved
      rfl
  rcases hk with hk | hk
  · refine ⟨{d with sys := s, program := .kate k'}, ?_, rfl, .inl ⟨k', rfl, hmod⟩⟩
    unfold State.step
    rw [hk]
    dsimp only
    rw [kateKey, if_neg (by decide), if_pos rfl, hsave]
    rfl
  · refine ⟨{d with sys := s, program := .desktop}, ?_, rfl, .inr rfl⟩
    unfold State.step
    rw [hk]
    dsimp only
    rw [kateUnsavedPrompt, if_pos rfl, hsave]
    rfl

/-- An editor with nothing to save closes. -/
theorem Idle.closes (scan : Scan) {d : State} (h : Idle d) :
    ∃ d₁, Foundation.Reachable (State.step scan) Spares d d₁ ∧ d₁.program = .desktop ∧ d₁.sys = d.sys := by
  rcases h with ⟨k, hk, hmod⟩ | hd
  · have hstep : d.step scan (.key keyEsc) = .ok {d with program := .desktop} := by
      unfold State.step
      rw [hk]
      dsimp only
      rw [kateKey, if_pos rfl, hmod]
      rfl
    have hspares : Spares d (.key keyEsc) := by
      unfold Spares
      rw [hk]
      intro h
      exact absurd h (by decide)
    exact ⟨_, .step .start hspares hstep, rfl, rfl⟩
  · exact ⟨d, .start, hd, rfl⟩

/-- The terminal opened right after a save finds what the disk holds by then. -/
theorem Survives.diskReads {scan : Scan} {d : State} {bytes : List UInt8} (h : Survives scan d bytes)
    (hidle : Idle d) : DiskReads (diskInit scan d.sys.disk) bytes := by
  obtain ⟨d₁, hrun, hd, hsys⟩ := hidle.closes scan
  obtain ⟨s, hstart, hstarts, _⟩ := shellStart_starts d₁.sys scan
  obtain ⟨d₂, hlaunch, hreads⟩ := h d₁ hrun hd
  rw [step_terminal hd hstart] at hlaunch
  cases hlaunch
  rw [← hsys]
  exact (starts_reads_iff hstarts).mp hreads

/-! ### Which documents survive -/

/-- **A saved document survives exactly where a disk had been found by then**, or the disk that will be
found holds the same document already. -/
theorem kateSave_survives_iff (scan : Scan) (drive : Drive) (henv : scan.count = 0 ∨ drive.NeverFails) (d : State)
    (hrun : Foundation.Reachable (State.step scan) (fun _ _ => True) (boot drive) d) (k k' : Kate) (s : System)
    (hk : InEditor d k) (hsave : kateSave k d.sys = .ok (0, k', s)) :
    ∃ d', d.step scan (.key keyF2) = .ok d' ∧ d'.sys = s ∧ (Survives scan d' k.buf.chars ↔
      diskAvailable d.sys.disk = true ∨ DiskReads (diskInit scan d.sys.disk) k.buf.chars) := by
  have hs := sound_reachable hrun
  obtain ⟨d', hstep, hsys, hidle⟩ := step_save scan hk (hs.untitled k hk) hsave
  refine ⟨d', hstep, hsys, ?_⟩
  rcases kateSave_eq (hs.untitled k hk) d.sys with ⟨hfail, _⟩ | ⟨t, hsaved, hedits, hreads⟩
  · rw [hsave] at hfail
    cases hfail
  rw [hsave] at hsaved
  cases hsaved
  have hok : 0 ≤ scan.selected → drive.NeverFails := fun hsel => henv.resolve_left fun h0 => by
    simp [Scan.selected, h0] at hsel
  cases hav : diskAvailable d.sys.disk with
  | true =>
    have hsel := hs.toSoundSystem.found hav
    have hsound : SoundSystem scan drive {d.sys with nodes := t} :=
      ⟨hs.outcome, hs.selected, fun _ => hedits.savable (hs.savable hav), hs.slot⟩
    have hstored := hsound.saved (hok hsel) hav (hsound.savable hav) hreads
    have hsync : d'.sys = {d.sys with nodes := t, disk := (diskSaveFs t d.sys.disk).2} := by
      rw [hsys]
      exact if_pos hav
    rw [← hsync] at hstored
    exact ⟨fun _ => .inl rfl, fun _ => hstored.survives (hs.step hstep) (hok hsel)⟩
  | false =>
    have hsync : d'.sys = {d.sys with nodes := t} := by
      rw [hsys]
      exact if_neg (by simp [hav])
    have hdisk : d'.sys.disk = d.sys.disk := by rw [hsync]
    constructor
    · intro h
      have hdoc := h.diskReads hidle
      rw [hdisk] at hdoc
      exact .inr hdoc
    · intro hboth
      rcases hboth with h | h
      · cases h
      · have hstored : Stored scan d'.sys k.buf.chars := ⟨hdisk ▸ h, fun h' => by
          rw [hdisk, hav] at h'
          cases h'⟩
        exact hstored.survives (hs.step hstep) (hok h.selected)

/-- The editor when an `a` has been typed in it. -/
def typed : Kate := (Kate.opened fsGetRoot).edit 0x61

/-- The same, right after the system came up. -/
def typedState : State := {boot blankDisk.drive with program := .kate typed}

theorem typedState_reachable (scan : Scan) :
    Foundation.Reachable (State.step scan) (fun _ _ => True) (boot blankDisk.drive) typedState := by
  have hopen : State.step scan (.launch .kate) (boot blankDisk.drive) =
      .ok {boot blankDisk.drive with program := .kate (.opened fsGetRoot)} := rfl
  have htype : State.step scan (.key 0x61) {boot blankDisk.drive with program := .kate (.opened fsGetRoot)} =
      .ok typedState := rfl
  exact .step (.step .start trivial hopen) trivial htype

/-- It is saved to the table of zeros. -/
theorem typedState_saved : ∃ k' s, kateSave typed typedState.sys = .ok (0, k', s) := by
  have hcheck : ∃ x, kateSave typed typedState.sys = .ok x ∧ (x.1 == 0) = true :=
    Foundation.exists_of_check (by decide +kernel)
  obtain ⟨⟨r, k', s⟩, hsave, hr⟩ := hcheck
  obtain rfl : r = 0 := by simpa using hr
  exact ⟨k', s, hsave⟩

/-- Without a disk it is saved, and gone when the terminal is opened. -/
theorem kateSave_lost : ∃ k' s d', kateSave typed typedState.sys = .ok (0, k', s) ∧
    Foundation.Reachable (State.step noDiskScan) (fun _ _ => True) (boot blankDisk.drive) typedState ∧
    typedState.step noDiskScan (.key keyF2) = .ok d' ∧ ¬ Survives noDiskScan d' typed.buf.chars := by
  obtain ⟨k', s, hsave⟩ := typedState_saved
  have hk : InEditor typedState typed := .inl rfl
  obtain ⟨d', hstep, _, hidle⟩ := step_save noDiskScan hk (untitled_opened.edit 0x61) hsave
  refine ⟨k', s, d', hsave, typedState_reachable noDiskScan, hstep, fun h => ?_⟩
  have hav := (h.diskReads hidle).available
  cases hav

/-- A line in the terminal after which it is closed. -/
theorem step_logout (scan : Scan) {d : State} {keys : List UInt8} {s : System} (ht : d.program = .terminal)
    (hround : shellIteration {d.sys with keys := d.sys.keys ++ keys} = .ok s) (hexit : s.shellExit = true) :
    d.step scan (.line keys) = .ok {d with sys := shellFinish s, program := .desktop} := by
  unfold State.step
  rw [ht]
  dsimp only [State.line]
  rw [hround]
  dsimp only [bind, Except.bind]
  rw [if_pos hexit]
  rfl

/-- The terminal was opened and left again, and then the same text typed. -/
theorem typed_after_terminal : ∃ d : State,
    Foundation.Reachable (State.step oneDiskScan) (fun _ _ => True) (boot blankDisk.drive) d ∧ InEditor d typed ∧
      diskAvailable d.sys.disk = true ∧ shellSeedFilesystem fsInit = .ok d.sys.nodes := by
  obtain ⟨s₀, hstart, hseed, wf, -, -, -, hkeys⟩ :=
    shellStart_live (boot blankDisk.drive).sys oneDiskScan fun _ h => absurd (diskLoadFs_blank.symm.trans h) (by decide)
  obtain ⟨s₁, hround, -, hexit, hnodes, hdisk⟩ :=
    shellIteration_exit (s := {s₀ with keys := s₀.keys ++ lit "exit\n"}) wf (by rw [hkeys]; rfl)
  have hav : diskAvailable s₁.disk = true := by
    rw [hdisk]
    unfold diskAvailable
    rw [(shellStart_quiet hstart).selectedDisk]
    rfl
  have hnodes' : (shellFinish s₁).nodes = s₀.nodes := by
    unfold shellFinish
    rw [if_pos hav]
    exact hnodes
  have hav' : diskAvailable (shellFinish s₁).disk = true := by
    unfold shellFinish
    rw [if_pos hav]
    unfold diskAvailable
    rw [(diskSaveFs_steady s₁.nodes s₁.disk).selectedDisk]
    exact hav
  refine ⟨{boot blankDisk.drive with sys := shellFinish s₁, program := .kate typed}, ?_, .inl rfl, hav', ?_⟩
  · have hlaunch := step_terminal (d := boot blankDisk.drive) rfl hstart
    have hlogout := step_logout oneDiskScan
      (d := {boot blankDisk.drive with sys := s₀, program := .terminal}) rfl hround hexit
    exact .step (o := .key 0x61) (.step (o := .launch .kate) (.step (.step .start trivial hlaunch) trivial hlogout)
      trivial rfl) trivial rfl
  · rw [hnodes']
    exact hseed

/-- With a disk that was found it survives. -/
theorem kateSave_survives_found : ∃ (d d' : State) (k' : Kate) (s : System), kateSave typed d.sys = .ok (0, k', s) ∧
    d.step oneDiskScan (.key keyF2) = .ok d' ∧ d'.sys = s ∧ Survives oneDiskScan d' typed.buf.chars := by
  obtain ⟨d, hrun, hk, hav, hseed⟩ := typed_after_terminal
  obtain ⟨t, hseed', hnone, hfree⟩ := seeded_document
  rw [hseed] at hseed'
  cases hseed'
  obtain ⟨k', s, hsave⟩ : ∃ k' s, kateSave typed d.sys = .ok (0, k', s) := by
    rcases kateSave_cases (k := typed) rfl (show typed.cwdNd = (0 : Int32).toInt from rfl) rfl d.sys with ⟨hno, -⟩ | ⟨-, t, f, -, -, hsave⟩
    · exact absurd (.inr ⟨hnone, 100, by decide, hfree⟩) hno
    · exact ⟨_, _, hsave⟩
  obtain ⟨d', hstep, hsys, hiff⟩ := kateSave_survives_iff oneDiskScan blankDisk.drive (.inr fun _ => rfl) d hrun typed
    k' s hk hsave
  exact ⟨d, d', k', s, hsave, hstep, hsys, hiff.mpr (.inl hav)⟩

end FurOS.Desktop
