import FurOS.Desktop.Desktop
import FurOS.Fs.Contract
import FurOS.Fs.Names
import FurOS.Shell.Effects

/-! What becomes of a saved document.

The editor saves to `untitled.txt` in the root of the one table, and to the disk where one is
selected. Opening the terminal empties the table, looks for a disk and loads it. So a document is
there again where it was saved to a disk that had been found before, and only there. -/
namespace FurOS.Desktop

/-- The file that the editor saves to. -/
def document : CStr := .ofLit "untitled.txt"

theorem document_chars : document.chars = lit "untitled.txt" := by decide

theorem plainName_document : PlainName document.chars := by
  rw [document_chars]
  constructor <;> decide

/-- A read of the document gives these bytes. -/
abbrev Reads (t : Nodes) (bytes : List UInt8) : Prop := ReadsBytes t fsGetRoot document bytes

theorem reads_iff {t : Nodes} {bytes : List UInt8} : Reads t bytes ↔ ∃ f, Holds t document.chars bytes f := by
  have hread := fsReadFile_found (fsResolve_name t fsGetRoot plainName_document)
  have hroot : findChild t 0 document.chars = findChild t fsGetRoot document.chars := rfl
  unfold Reads ReadsBytes
  rw [hread]
  constructor
  · intro h
    obtain ⟨data, size, hfound, rfl⟩ := h
    obtain ⟨f, hf, hfile⟩ := Option.bind_eq_some_iff.mp (Except.ok.inj hfound)
    split at hfile
    · cases hfile
    · rename_i hdir
      cases hfile
      exact ⟨f, hroot.trans hf, by simpa using hdir, rfl⟩
  · intro h
    obtain ⟨f, hf, hfile, rfl⟩ := h
    refine ⟨(t f).data, (t f).size, ?_, rfl⟩
    rw [← hroot, hf, Option.bind_some, if_neg (by simp [hfile])]

/-! ### On the disk -/

/-- The disk holds a filesystem in which the document reads these bytes. -/
def DiskReads (d : Disk) (bytes : List UInt8) : Prop :=
  (diskLoadFs fsInit d).1 = 0 ∧ Reads (diskLoadFs fsInit d).2.1 bytes

/-- A save puts the document on the disk. -/
theorem diskSaveFs_reads {t : Nodes} (ht : Savable t) {bytes : List UInt8} (hreads : Reads t bytes) {d d' : Disk}
    (hsel : 0 ≤ d.selectedDisk) (hok : d.drive.NeverFails) (hsel' : 0 ≤ d'.selectedDisk)
    (hok' : d'.drive.NeverFails)
    (hsectors : d'.drive.sectors = (diskSaveFs t d).2.drive.sectors) : DiskReads d' bytes := by
  obtain ⟨_, _, hsaved⟩ := diskSaveFs_ok hsel (fun k _ => hok _) t
  rw [← hsectors] at hsaved
  obtain ⟨hstatus, htable⟩ := diskLoadFs_saved ht hsel' hok'.healthy hsaved fsInit
  obtain ⟨f, hf⟩ := reads_iff.mp hreads
  refine ⟨hstatus, ?_⟩
  rw [htable]
  exact reads_iff.mpr ⟨f, hf.resetRoot ht (by rw [document_chars]; decide)⟩

/-! ### In the table -/

/-- A table that can be saved still can, and the document reads as before. -/
structure Spared (t t' : Nodes) : Prop where
  savable : Savable t → Savable t'
  reads : ∀ bytes, Reads t bytes → Reads t' bytes

namespace Spared
variable {t t' t'' : Nodes}

theorem refl (t : Nodes) : Spared t t := ⟨id, fun _ => id⟩

theorem trans (h : Spared t t') (h' : Spared t' t'') : Spared t t'' :=
  ⟨fun ht => h'.savable (h.savable ht), fun bytes hb => h'.reads bytes (h.reads bytes hb)⟩

/-- Edits that neither fill nor free the file. -/
theorem of_edits (hany : Edits (fun _ => True) t t')
    (hfile : ∀ bytes f, Holds t document.chars bytes f → Edits (· ≠ f) t t') : Spared t t' := by
  refine ⟨hany.savable, fun bytes hb => ?_⟩
  obtain ⟨f, hf⟩ := reads_iff.mp hb
  exact reads_iff.mpr ⟨f, (hfile bytes f hf).holds hf⟩

end Spared

theorem fsMkdir_spared {t t' : Nodes} {c : NodeId} {path : CStr} {r : Int}
    (h : fsMkdir t (c.val : Int) path = .ok (r, t')) : Spared t t' :=
  .of_edits (fsMkdirAs_edits _ h) fun _ _ _ => fsMkdirAs_edits _ h

theorem fsWriteFile_spared {t t' : Nodes} {c : NodeId} {path : CStr} {bytes : List UInt8} {r : Int}
    (h : fsWriteFile t (c.val : Int) path (some bytes) bytes.length = .ok (r, t'))
    (hother : ∀ old f, Holds t document.chars old f → writeTarget t (c.val : Int) path ≠ .ok (f.val : Int)) :
    Spared t t' :=
  .of_edits (fsWriteFile_edits h fun _ _ => trivial) fun old f hf =>
    fsWriteFile_edits h fun _ hn hnf => hother old f hf (hnf ▸ hn)

/-! ### The editor -/

/-- The editor as `launch` opens it, whatever was typed since. -/
structure Untitled (k : Kate) : Prop where
  node : k.node = -1
  cwdNd : k.cwdNd = fsGetRoot
  fname : k.fname = document

theorem untitled_opened : Untitled (.opened fsGetRoot) := ⟨rfl, rfl, rfl⟩

/-- Editing changes the text and the cursor only. -/
theorem Kate.edit_same (k : Kate) (key : Installer.Key) :
    (k.edit key).node = k.node ∧ (k.edit key).cwdNd = k.cwdNd ∧ (k.edit key).fname = k.fname := by
  have hinsert : ∀ c, (k.insert c).node = k.node ∧ (k.insert c).cwdNd = k.cwdNd ∧
      (k.insert c).fname = k.fname := by
    intro c
    unfold insert
    split <;> exact ⟨rfl, rfl, rfl⟩
  unfold edit
  split
  · unfold moveUp
    split <;> exact ⟨rfl, rfl, rfl⟩
  split
  · unfold moveDown
    split <;> exact ⟨rfl, rfl, rfl⟩
  split
  · exact ⟨rfl, rfl, rfl⟩
  split
  · unfold moveRight
    split <;> exact ⟨rfl, rfl, rfl⟩
  split
  · exact ⟨rfl, rfl, rfl⟩
  split
  · exact ⟨rfl, rfl, rfl⟩
  split
  · unfold backspace
    split <;> exact ⟨rfl, rfl, rfl⟩
  split
  · unfold delkey
    split <;> exact ⟨rfl, rfl, rfl⟩
  split
  · exact hinsert 10
  split
  · exact hinsert key.toUInt8
  · exact ⟨rfl, rfl, rfl⟩

theorem Untitled.edit {k : Kate} (h : Untitled k) (key : Installer.Key) : Untitled (k.edit key) := by
  obtain ⟨hnode, hcwd, hname⟩ := k.edit_same key
  exact ⟨hnode.trans h.node, hcwd.trans h.cwdNd, hname.trans h.fname⟩

/-- **What `kate_save` returns and leaves**, whatever directory the editor was opened in. It fails only
where `untitled.txt` cannot be a file there, and otherwise it is one with the text. -/
theorem kateSave_cases {k : Kate} {cwd : Int32} (hnode : k.node = -1) (hcwd : k.cwdNd = cwd.toInt)
    (hname : k.fname = document) (s : System) :
    (¬ Accepts s.nodes cwd.toInt document.chars ∧ kateSave k s = .ok (-1, k, s)) ∨
      Accepts s.nodes cwd.toInt document.chars ∧ ∃ t f, HasFile t cwd.toInt document.chars f ∧
        fsTouch s.nodes cwd.toInt document = .ok (0, t) ∧ kateSave k s = .ok (0, {k with modified := false},
          diskSync {s with nodes := Function.update t f (fillNode (t f) k.buf.chars)}) := by
  have hneg : k.node < 0 := by
    rw [hnode]
    decide
  unfold kateSave
  rw [if_pos hneg, hcwd, hname]
  rcases fsTouch_name plainName_document s.nodes cwd with ⟨hno, htouch⟩ | ⟨hacc, t, f, htouch, hfile⟩
  · rw [htouch]
    exact .inl ⟨hno, rfl⟩
  · refine .inr ⟨hacc, t, f, hfile, htouch, ?_⟩
    rw [htouch, Foundation.ok_bind]
    dsimp only
    rw [if_neg (by decide), kateWrite, hcwd, hname, (fsWriteFile_hasFile plainName_document hfile k.buf.chars).1]
    rfl

/-- The same of the editor that `launch` opens. -/
theorem kateSave_eq {k : Kate} (hk : Untitled k) (s : System) :
    (kateSave k s = .ok (-1, k, s) ∧ ∀ bytes, ¬ Reads s.nodes bytes) ∨
      ∃ t, kateSave k s = .ok (0, {k with modified := false}, diskSync {s with nodes := t}) ∧
        Edits (fun _ => True) s.nodes t ∧ Reads t k.buf.chars := by
  have hcwd : k.cwdNd = (0 : Int32).toInt := hk.cwdNd
  rcases kateSave_cases hk.node hcwd hk.fname s with ⟨hno, hsave⟩ | ⟨_, t, f, hf, htouch, hsave⟩
  · refine .inl ⟨hsave, fun bytes hb => hno ?_⟩
    obtain ⟨f, hf⟩ := reads_iff.mp hb
    exact .inl ⟨f, hf.found, hf.file⟩
  · have hmade : Edits (fun _ => True) s.nodes t := fsTouchAs_edits (c := 0) _ htouch
    have hfilled := (fsWriteFile_hasFile plainName_document hf k.buf.chars).2
    refine .inr ⟨_, hsave, hmade.trans (.one (.filled _ trivial)),
      reads_iff.mpr ⟨f, hfilled.found, hfilled.file, ?_⟩⟩
    rw [Function.update_self]
    exact contents_fillNode_buffer _ k.buf

/-! ### The settings -/

theorem plainName_hostname : PlainName (CStr.ofLit "hostname").chars := by
  constructor <;> decide

theorem plainName_timezone : PlainName (CStr.ofLit "timezone").chars := by
  constructor <;> decide

theorem setWrite_spared {c : Settings} {t t' : Nodes} {etc : Int} (hetc : etc ≥ 0 → ∃ e : NodeId, etc = e.val)
    (h : setWrite c t etc = .ok t') : Spared t t' := by
  unfold setWrite at h
  split at h
  · rename_i h0
    obtain ⟨e, rfl⟩ := hetc h0
    obtain ⟨⟨r, t₁⟩, hhost, h⟩ := Foundation.bind_eq_ok.mp h
    obtain ⟨⟨r', t₂⟩, hzone, h⟩ := Foundation.bind_eq_ok.mp h
    cases h
    have hname : (CStr.ofLit "hostname").chars ≠ document.chars := by decide
    have hname' : (CStr.ofLit "timezone").chars ≠ document.chars := by decide
    have hfirst : Spared t t₁ := fsWriteFile_spared hhost fun _ _ hf =>
      writeTarget_ne plainName_hostname hname hf.found
    exact hfirst.trans (fsWriteFile_spared hzone fun _ _ hf => writeTarget_ne plainName_timezone hname' hf.found)
  · cases h
    exact .refl t

theorem plainName_etcPath : PlainName (CStr.ofLit "etc").chars := by
  constructor <;> decide

/-- The settings leave the document alone. -/
theorem setSave_eq {c : Settings} {s s' : System} (h : setSave c s = .ok s') :
    ∃ t, Spared s.nodes t ∧ s' = diskSync {s with nodes := t} := by
  obtain ⟨etc, hres, h⟩ := Foundation.bind_eq_ok.mp h
  split at h
  · obtain ⟨⟨r, t₁⟩, hmkdir, h⟩ := Foundation.bind_eq_ok.mp h
    obtain ⟨etc', hres', h⟩ := Foundation.bind_eq_ok.mp h
    obtain ⟨t₂, hwrite, h⟩ := Foundation.bind_eq_ok.mp h
    cases h
    have hmade : Spared s.nodes t₁ := fsMkdir_spared (c := 0) hmkdir
    exact ⟨t₂, hmade.trans (setWrite_spared (fsResolve_slot plainName_etcPath hres') hwrite), rfl⟩
  · obtain ⟨t₂, hwrite, h⟩ := Foundation.bind_eq_ok.mp h
    cases h
    exact ⟨t₂, setWrite_spared (fsResolve_slot plainName_etcPath hres) hwrite, rfl⟩

/-! ### Steps of the desktop -/

/-- The editor is open, with this text. -/
def InEditor (d : State) (k : Kate) : Prop := d.program = .kate k ∨ d.program = .unsavedPrompt k

/-- A text that is being edited is `untitled.txt`. -/
def AllUntitled (d : State) : Prop := ∀ k, InEditor d k → Untitled k

/-- What a step does to the system: nothing, or one of four things. -/
inductive Move (scan : Scan) (d : State) : Action → State → Prop where
  | still {a : Action} {d' : State} : d'.sys = d.sys → (d'.program = .terminal → d.program = .terminal) →
      (AllUntitled d → AllUntitled d') → Move scan d a d'
  | terminal {s : System} {d' : State} : d.program = .desktop → shellStart d.sys scan = .ok s → d'.sys = s →
      d'.program = .terminal → Move scan d (.launch .terminal) d'
  | kateSave {k k' : Kate} {r : Int} {s : System} {d' : State} : InEditor d k →
      kateSave k d.sys = .ok (r, k', s) → d'.sys = s → d'.program = .kate k' ∨ d'.program = .desktop →
      Move scan d (.key keyF2) d'
  | setSave {c c' : Settings} {s : System} {d' : State} : d.program = .settings c → setSave c d.sys = .ok s →
      d'.sys = s → d'.program = .settings c' → Move scan d (.key keyF2) d'
  | line {keys : List UInt8} {s : System} {d' : State} : d.program = .terminal →
      shellIteration {d.sys with keys := d.sys.keys ++ keys} = .ok s →
      d'.program = .terminal ∧ d'.sys = s ∨ d'.program = .desktop ∧ d'.sys = diskSync s →
      Move scan d (.line keys) d'

theorem orStop_eq_ok {α : Type} {x : Except Fault α} {a : α} (h : orStop x = .ok a) : x = .ok a := by
  cases x with
  | error f => cases h
  | ok b =>
    cases h
    rfl

theorem kateKey_move {scan : Scan} {d : State} {k : Kate} (hk : d.program = .kate k) {key : Installer.Key}
    {after : Editor × System} (h : kateKey k key d.sys = .ok after) :
    Move scan d (.key key) (d.edited after) := by
  unfold kateKey at h
  split at h
  · cases h
    split
    · exact .still rfl (fun h => by cases h) fun hall k' hk' => by
        rcases hk' with h | h
        · cases h
        · cases h
          exact hall k (.inl hk)
    · exact .still rfl (fun h => by cases h) fun _ k' hk' => by
        rcases hk' with h | h
        · cases h
        · cases h
  split at h
  · rename_i hkey
    subst hkey
    obtain ⟨⟨r, k', s⟩, hsave, h⟩ := Foundation.bind_eq_ok.mp h
    cases h
    exact .kateSave (.inl hk) hsave rfl (.inl rfl)
  · cases h
    exact .still rfl (fun h => by cases h) fun hall k' hk' => by
      rcases hk' with h | h
      · cases h
        exact (hall k (.inl hk)).edit key
      · cases h

theorem kateUnsavedPrompt_move {scan : Scan} {d : State} {k : Kate} (hk : d.program = .unsavedPrompt k)
    {key : Installer.Key} {after : Editor × System} (h : kateUnsavedPrompt k key d.sys = .ok after) :
    Move scan d (.key key) (d.edited after) := by
  unfold kateUnsavedPrompt at h
  split at h
  · rename_i hkey
    subst hkey
    obtain ⟨⟨r, k', s⟩, hsave, h⟩ := Foundation.bind_eq_ok.mp h
    cases h
    exact .kateSave (.inr hk) hsave rfl (.inr rfl)
  split at h
  · cases h
    exact .still rfl (fun h => by cases h) fun _ k' hk' => by
      rcases hk' with h | h
      · cases h
      · cases h
  split at h
  · cases h
    exact .still rfl (fun h => by cases h) fun hall k' hk' => by
      rcases hk' with h | h
      · cases h
        exact hall k (.inr hk)
      · cases h
  · cases h
    exact .still rfl (fun h => by cases h) fun hall k' hk' => by
      rcases hk' with h | h
      · cases h
      · cases h
        exact hall k (.inr hk)

theorem setKey_move {scan : Scan} {d : State} {c : Settings} (hc : d.program = .settings c)
    {key : Installer.Key} {after : Option Settings × System} (h : setKey c key d.sys = .ok after) :
    Move scan d (.key key) (d.set c.input after) := by
  have hnone : ∀ {o : Option Settings}, AllUntitled (d.set c.input (o, d.sys)) := by
    intro o k hk
    cases o with
    | none =>
      rcases hk with h | h
      · cases h
      · cases h
    | some c' =>
      rcases hk with h | h
      · cases h
      · cases h
  have hother : ∀ {o : Option Settings}, (d.set c.input (o, d.sys)).sys = d.sys ∧
      (d.set c.input (o, d.sys)).program ≠ .terminal := by
    intro o
    cases o with
    | none => exact ⟨rfl, by simp [State.set]⟩
    | some c' => exact ⟨rfl, by simp [State.set]⟩
  unfold setKey at h
  split at h
  · cases h
    exact .still hother.1 (fun h => absurd h hother.2) fun _ => hnone
  split at h
  · rename_i hkey
    subst hkey
    obtain ⟨s, hsave, h⟩ := Foundation.bind_eq_ok.mp h
    cases h
    exact .setSave hc hsave rfl rfl
  · cases h
    exact .still hother.1 (fun h => absurd h hother.2) fun _ => hnone

theorem launch_move {scan : Scan} {d d' : State} (hd : d.program = .desktop) {app : App}
    (h : d.launch scan app = .ok d') : Move scan d (.launch app) d' := by
  cases app with
  | terminal =>
    obtain ⟨s, hstart, h⟩ := Foundation.bind_eq_ok.mp h
    cases h
    exact .terminal hd hstart rfl rfl
  | kate =>
    cases h
    exact .still rfl (fun h => by cases h) fun _ k hk => by
      rcases hk with h | h
      · cases h
        exact untitled_opened
      · cases h
  | settings =>
    obtain ⟨c, _, h⟩ := Foundation.bind_eq_ok.mp h
    cases h
    exact .still rfl (fun h => by cases h) fun _ k hk => by
      rcases hk with h | h
      · cases h
      · cases h

/-- **What a step can do.** -/
theorem step_move {scan : Scan} {a : Action} {d d' : State} (h : d.step scan a = .ok d') : Move scan d a d' := by
  have hidle : Move scan d a d := .still rfl id id
  unfold State.step at h
  split at h
  · rename_i hd
    exact launch_move hd h
  · rename_i k key hk
    obtain ⟨after, hop, h⟩ := Foundation.bind_eq_ok.mp h
    cases h
    exact kateKey_move hk (orStop_eq_ok hop)
  · rename_i k key hk
    obtain ⟨after, hop, h⟩ := Foundation.bind_eq_ok.mp h
    cases h
    exact kateUnsavedPrompt_move hk (orStop_eq_ok hop)
  · rename_i c key hc
    obtain ⟨after, hop, h⟩ := Foundation.bind_eq_ok.mp h
    cases h
    exact setKey_move hc (orStop_eq_ok hop)
  · rename_i keys ht
    obtain ⟨s, hround, h⟩ := Foundation.bind_eq_ok.mp h
    refine .line ht hround ?_
    cases h
    split
    · exact .inr ⟨rfl, rfl⟩
    · exact .inl ⟨ht, rfl⟩
  · cases h
    exact hidle

/-! ### What every run keeps -/

/-- The disk is not looked for yet, or is what the scan finds; where there is one the table can be saved to it. -/
structure SoundSystem (scan : Scan) (drive : Drive) (s : System) : Prop where
  outcome : s.disk.drive.outcome = drive.outcome
  selected : s.disk.selectedDisk = -1 ∨ s.disk.selectedDisk = scan.selected
  savable : diskAvailable s.disk = true → Savable s.nodes
  slot : ∃ c : NodeId, s.shellCwd = c.val

structure Sound (scan : Scan) (drive : Drive) (d : State) : Prop extends SoundSystem scan drive d.sys where
  terminal : d.program = .terminal → d.sys.disk.selectedDisk = scan.selected
  untitled : AllUntitled d

section SoundSystem
variable {scan : Scan} {drive : Drive} {s s' : System}

theorem SoundSystem.next (h : SoundSystem scan drive s)
    (hkept : Kept s.nodes s.disk s.shellCwd s'.nodes s'.disk s'.shellCwd) : SoundSystem scan drive s' where
  outcome := hkept.steady.outcome.trans h.outcome
  selected := by
    rw [hkept.steady.selectedDisk]
    exact h.selected
  savable hav := hkept.savable (h.savable (hkept.steady.available ▸ hav))
  slot := hkept.slot h.slot

theorem diskSync_keeps (s : System) :
    Kept s.nodes s.disk s.shellCwd (diskSync s).nodes (diskSync s).disk (diskSync s).shellCwd := by
  unfold diskSync
  split
  · exact ⟨diskSaveFs_steady _ _, id, id⟩
  · exact .refl _ _ _

/-- Opening the terminal looks for a disk, and starts from a table that can be saved. -/
theorem SoundSystem.start (h : SoundSystem scan drive s) {s₀ : System} (hstart : shellStart s scan = .ok s₀) :
    SoundSystem scan drive s₀ ∧ s₀.disk.selectedDisk = scan.selected := by
  obtain ⟨s₁, hstart₁, hstarts, hcwd⟩ := shellStart_starts s scan
  rw [hstart] at hstart₁
  cases hstart₁
  have hquiet := shellStart_quiet hstart
  have hsel : s₀.disk.selectedDisk = scan.selected := hquiet.selectedDisk
  exact ⟨⟨hquiet.outcome.trans h.outcome, .inr hsel, fun _ => hstarts.savable, ⟨0, hcwd⟩⟩, hsel⟩

/-- A round of the shell. -/
theorem SoundSystem.round (h : SoundSystem scan drive s) (keys : List UInt8)
    (hround : shellIteration {s with keys := keys} = .ok s') :
    SoundSystem scan drive s' ∧ s'.disk.selectedDisk = s.disk.selectedDisk := by
  obtain ⟨rest, text, _, hdispatch⟩ := shellIteration_ok hround
  obtain ⟨uid, heffect⟩ := shellDispatch_effect hdispatch
  have hkept := heffect.keeps h.slot
  exact ⟨h.next hkept, hkept.steady.selectedDisk⟩

end SoundSystem

theorem kateSave_keeps {k k' : Kate} (hk : Untitled k) {s s' : System} {r : Int}
    (h : kateSave k s = .ok (r, k', s')) : Untitled k' ∧
      Kept s.nodes s.disk s.shellCwd s'.nodes s'.disk s'.shellCwd := by
  rcases kateSave_eq hk s with ⟨hsave, _⟩ | ⟨t, hsave, hedits, _⟩
  · rw [hsave] at h
    cases h
    exact ⟨hk, .refl _ _ _⟩
  · rw [hsave] at h
    cases h
    have hsync := diskSync_keeps {s with nodes := t}
    exact ⟨⟨hk.node, hk.cwdNd, hk.fname⟩, hsync.steady, fun ht => hsync.savable (hedits.savable ht), hsync.slot⟩

/-- **Every step keeps the desktop sound.** -/
theorem Sound.step {scan : Scan} {drive : Drive} {d d' : State} {a : Action} (h : Sound scan drive d)
    (hstep : d.step scan a = .ok d') : Sound scan drive d' := by
  cases step_move hstep with
  | still hsys hterm hkate => exact ⟨hsys ▸ h.toSoundSystem, fun ht => hsys ▸ h.terminal (hterm ht),
    hkate h.untitled⟩
  | terminal hd hstart hsys hprog =>
    obtain ⟨hsound, hsel⟩ := h.toSoundSystem.start hstart
    refine ⟨hsys ▸ hsound, fun _ => hsys ▸ hsel, fun k hk => ?_⟩
    rcases hk with hk | hk
    · rw [hprog] at hk
      cases hk
    · rw [hprog] at hk
      cases hk
  | kateSave hk hsave hsys hprog =>
    obtain ⟨huntitled, hkept⟩ := kateSave_keeps (h.untitled _ hk) hsave
    refine ⟨hsys ▸ h.toSoundSystem.next hkept, fun ht => ?_, fun k₁ hk₁ => ?_⟩
    · rcases hprog with hprog | hprog
      · rw [hprog] at ht
        cases ht
      · rw [hprog] at ht
        cases ht
    · rcases hprog with hprog | hprog
      · rcases hk₁ with hk₁ | hk₁
        · rw [hprog] at hk₁
          cases hk₁
          exact huntitled
        · rw [hprog] at hk₁
          cases hk₁
      · rcases hk₁ with hk₁ | hk₁
        · rw [hprog] at hk₁
          cases hk₁
        · rw [hprog] at hk₁
          cases hk₁
  | setSave hc hsave hsys hprog =>
    obtain ⟨t, hspared, rfl⟩ := setSave_eq hsave
    have hsync := diskSync_keeps {d.sys with nodes := t}
    have hkept : Kept d.sys.nodes d.sys.disk d.sys.shellCwd d'.sys.nodes d'.sys.disk d'.sys.shellCwd := by
      rw [hsys]
      exact ⟨hsync.steady, fun ht => hsync.savable (hspared.savable ht), hsync.slot⟩
    refine ⟨h.toSoundSystem.next hkept, fun ht => ?_, fun k hk => ?_⟩
    · rw [hprog] at ht
      cases ht
    · rcases hk with hk | hk
      · rw [hprog] at hk
        cases hk
      · rw [hprog] at hk
        cases hk
  | line ht hround hend =>
    obtain ⟨hsound, hsel⟩ := h.toSoundSystem.round _ hround
    have hnone : ∀ {p : Program}, d'.program = p → (∀ k, p ≠ .kate k ∧ p ≠ .unsavedPrompt k) →
      AllUntitled d' := by
      intro p hp hno k hk
      rcases hk with hk | hk
      · exact absurd (hp.symm.trans hk) (hno k).1
      · exact absurd (hp.symm.trans hk) (hno k).2
    rcases hend with ⟨hprog, hsys⟩ | ⟨hprog, hsys⟩
    · exact ⟨hsys ▸ hsound, fun _ => by rw [hsys, hsel]; exact h.terminal ht,
        hnone hprog fun k => ⟨by simp, by simp⟩⟩
    · refine ⟨hsys ▸ hsound.next (diskSync_keeps _), fun ht' => ?_, hnone hprog fun k => ⟨by simp, by simp⟩⟩
      rw [hprog] at ht'
      cases ht'

/-- The desktop comes up sound. -/
theorem sound_boot (scan : Scan) (drive : Drive) : Sound scan drive (boot drive) where
  outcome := rfl
  selected := .inl rfl
  savable h := by cases h
  slot := ⟨0, rfl⟩
  terminal h := by cases h
  untitled k hk := by
    rcases hk with hk | hk
    · cases hk
    · cases hk

/-- **Every run of the desktop is sound.** -/
theorem sound_reachable {scan : Scan} {drive : Drive} {d : State}
    (h : Foundation.Reachable (State.step scan) (fun _ _ => True) (boot drive) d) : Sound scan drive d :=
  h.invariant (P := Sound scan drive) (fun _ _ _ hs _ hstep => hs.step hstep) (sound_boot scan drive)

end FurOS.Desktop
