import FurOS.Fs.Bounds
import FurOS.Shell.Dispatch
import FurOS.Shell.Layout

/-! No command leaves an array while the numbers it indexes by stay inside the table.

This asks less than a well-formed table and a current directory in use: it goes on
holding when the current directory has been removed. A line that does not end waits
for a key in the editor. -/
namespace FurOS
open Foundation (Returns)

section Commands
variable {t : Nodes} {P : Int → Prop} (hP : Bounded t P)
include hP

theorem shellBuildPath_returns (node : Int) : Returns (shellBuildPath t node) fun _ => True := by
  have hpath : Returns (fsMakePath t node 128) fun _ => True := by
    obtain ⟨r, hr⟩ := fsMakePath_ok hP node 128
    exact ⟨r, hr, trivial⟩
  exact hpath.bind fun x _ => .ite (fun _ => .ok trivial) fun _ => .ok trivial

theorem cmdPwd_returns (cwd : Int) : Returns (cmdPwd t cwd) fun _ => True := by
  refine (shellBuildPath_returns hP cwd).bind fun o _ => ?_
  cases o with
  | none => exact .ok trivial
  | some path => exact .ok trivial

theorem lsEntry_returns (entry : NodeId) : Returns (lsEntry t entry) fun _ => True := by
  unfold lsEntry fsGetName
  cases hn : usedNode t entry.val with
  | none => exact .ok trivial
  | some i =>
    have hle := hP.name i (hP.used i (usedNode_eq_some.mp hn).2)
    have hname : Returns (readStr (t i).name) fun _ => True :=
      .ite (fun _ => .ok trivial) fun h => absurd h (by omega)
    exact hname.bind fun _ _ => .ok trivial

theorem lsEntries_returns (entries : List NodeId) : Returns (lsEntries t entries) fun _ => True := by
  induction entries with
  | nil => exact .ok trivial
  | cons entry rest ih => exact (lsEntry_returns hP entry).bind fun _ _ => ih.bind fun _ _ => .ok trivial

omit hP in
/-- A string read inside its array, and a last byte inside it. -/
theorem catData_returns {data : Fin 4096 → UInt8} {size : UInt64} (hdata : (cstr data).length < 4096)
    (hsize : size.toNat ≤ 4096) : Returns (catData data size) fun _ => True := by
  refine .ite (fun _ => .ok trivial) fun h0 => ?_
  have hpos : size.toNat ≠ 0 := fun h => h0 (UInt64.toNat_inj.mp h)
  have htext : Returns (readStr data) fun _ => True := .ite (fun _ => .ok trivial) fun h => absurd hdata h
  have hlast : Returns (dataByte data (size.toNat - 1)) fun _ => True :=
    ⟨_, dif_pos (by omega), trivial⟩
  exact htext.bind fun _ _ => hlast.bind fun _ _ => .ok trivial

variable {cwd : Int} (hcwd : P cwd)
include hcwd

theorem cmdLs_returns (args : List CStr) (uid : UInt16) : Returns (cmdLs t cwd args uid) fun _ => True := by
  have htarget : Returns (lsTarget t cwd args) fun _ => True := by
    cases args with
    | nil => exact .ok trivial
    | cons path _ => exact (fsResolve_bounded hP hcwd path).mono fun _ _ => trivial
  refine htarget.bind fun target _ => .ite (fun _ => .ok trivial) fun _ => .ite (fun _ => .ok trivial) fun _ =>
    .ite (fun _ => .ok trivial) fun _ => ?_
  cases fsList t target 128 with
  | none => exact .ok trivial
  | some x => exact .ite (fun _ => .ok trivial) fun _ => lsEntries_returns hP x.2

theorem cmdCd_returns (args : List CStr) (uid : UInt16) : Returns (cmdCd t cwd args uid) fun _ => True := by
  cases args with
  | nil => exact .ok trivial
  | cons path _ =>
    exact (fsResolve_bounded hP hcwd path).bind fun _ _ => .ite (fun _ => .ok trivial) fun _ =>
      .ite (fun _ => .ok trivial) fun _ => .ok trivial

theorem cmdCat_returns (args : List CStr) (uid : UInt16) : Returns (cmdCat t cwd args uid) fun _ => True := by
  cases args with
  | nil => exact .ok trivial
  | cons path _ =>
    refine (fsResolve_bounded hP hcwd path).bind fun _ _ => .ite (fun _ => .ok trivial) fun _ =>
      .ite (fun _ => .ok trivial) fun _ => ?_
    refine (fsReadFile_bounded hP hcwd path).bind fun o ho => ?_
    cases o with
    | none => exact .ok trivial
    | some x =>
      obtain ⟨hdata, hsize⟩ := ho x.1 x.2 rfl
      exact catData_returns hdata hsize

theorem ensureParentWritable_returns (path : CStr) (uid : UInt16) :
    Returns (ensureParentWritable t cwd path uid) fun _ => True := by
  have hparent : Returns (resolveParentPath t cwd path) fun _ => True := by
    refine .ite (fun _ => .ok trivial) fun _ => ?_
    split
    · exact .ok trivial
    · exact .ite (fun _ => .ok trivial) fun _ => .ite (fun _ => .ok trivial) fun _ =>
        .ite (fun _ => .ok trivial) fun _ => (fsResolve_bounded hP hcwd _).bind fun _ _ => .ok trivial
  refine hparent.bind fun o _ => ?_
  cases o with
  | none => exact .ok trivial
  | some parent => exact .ok trivial

theorem cmdMkdir_returns (args : List CStr) (uid : UInt16) : Returns (cmdMkdir t cwd args uid) fun _ => True := by
  cases args with
  | nil => exact .ok trivial
  | cons path _ =>
    refine (fsResolve_bounded hP hcwd path).bind fun _ _ => .ite (fun _ => .ok trivial) fun _ => ?_
    refine (ensureParentWritable_returns hP hcwd path uid).bind fun o _ => ?_
    cases o with
    | some text => exact .ok trivial
    | none => exact (fsMkdirAs_bounded hP hcwd path uid _).bind fun _ _ => .ok trivial

theorem cmdTouch_returns (args : List CStr) (uid : UInt16) : Returns (cmdTouch t cwd args uid) fun _ => True := by
  cases args with
  | nil => exact .ok trivial
  | cons path _ =>
    refine (fsResolve_bounded hP hcwd path).bind fun _ _ => .ite (fun _ => .ok trivial) fun _ => ?_
    refine (ensureParentWritable_returns hP hcwd path uid).bind fun o _ => ?_
    cases o with
    | some text => exact .ok trivial
    | none => exact (fsTouchAs_bounded hP hcwd path uid _).bind fun _ _ => .ok trivial

theorem cmdWrite_returns (args : List CStr) : Returns (cmdWrite t cwd args) fun _ => True := by
  unfold cmdWrite
  split
  · exact (fsWriteFile_bounded hP hcwd _ _).bind fun _ _ => .ok trivial
  · exact .ok trivial

theorem cmdRm_returns (args : List CStr) : Returns (cmdRm t cwd args) fun _ => True := by
  cases args with
  | nil => exact .ok trivial
  | cons path _ => exact (fsRemove_bounded hP hcwd path).bind fun _ _ => .ok trivial

theorem cmdChmod_returns (args : List CStr) (uid : UInt16) : Returns (cmdChmod t cwd args uid) fun _ => True := by
  unfold cmdChmod
  split
  · split
    · exact .ok trivial
    · exact (fsResolve_bounded hP hcwd _).bind fun _ _ => .ite (fun _ => .ok trivial) fun _ =>
        .ite (fun _ => .ok trivial) fun _ => .ok trivial
  · exact .ok trivial

theorem cmdChown_returns (args : List CStr) (uid : UInt16) : Returns (cmdChown t cwd args uid) fun _ => True := by
  unfold cmdChown
  split
  · split
    · exact .ok trivial
    split
    · exact .ok trivial
    · exact (fsResolve_bounded hP hcwd _).bind fun _ _ => .ite (fun _ => .ok trivial) fun _ => .ok trivial
  · exact .ok trivial

omit hP hcwd in
theorem nanoLoop_returns (h : KeepsBounds P t) (hcwd : P cwd) (path : CStr) (buffer : NanoBuffer)
    (dirty : Bool) (keys : List UInt8) : Returns (nanoLoop t cwd path buffer dirty keys) fun _ => True := by
  have hsave : ∀ {t : Nodes} (buffer : NanoBuffer), KeepsBounds P t →
      Returns (fsWriteFile t cwd path (some buffer.chars) buffer.chars.length) fun x => KeepsBounds P x.2 := by
    intro t buffer h
    obtain ⟨P', hP', hsub⟩ := h
    refine (fsWriteFile_bounded hP' (hsub _ hcwd) path buffer.chars).mono fun x hx => ?_
    obtain ⟨P'', hP'', hsub'⟩ := hx
    exact ⟨P'', hP'', fun i hi => hsub' i (hsub i hi)⟩
  induction keys generalizing t buffer dirty with
  | nil => exact .ok trivial
  | cons c keys ih =>
    rw [nanoLoop]
    refine .ite (fun _ => ?_) fun _ => .ite (fun _ => .ite (fun _ => ?_) fun _ => .ok trivial) fun _ => ?_
    · exact (hsave buffer h).bind fun x hx => (ih hx _ _).bind fun _ _ => .ok trivial
    · exact (hsave buffer h).bind fun x hx => .ok trivial
    · split
      · exact ih h _ _
      · exact (ih h _ _).bind fun _ _ => .ok trivial

theorem cmdNano_returns (args : List CStr) (keys : List UInt8) :
    Returns (cmdNano t cwd args keys) fun _ => True := by
  cases args with
  | nil => exact .ok trivial
  | cons path _ =>
    refine (fsTouchAs_bounded hP hcwd path 0 fsDefaultFileMode).bind fun x hx => ?_
    have hread : Returns (fsReadFile x.2 cwd path) fun _ => True := by
      obtain ⟨P', hP', hsub⟩ := hx
      exact (fsReadFile_bounded hP' (hsub _ hcwd) path).mono fun _ _ => trivial
    refine .ite (fun _ => .ok trivial) fun _ => hread.bind fun o _ => ?_
    cases o with
    | none => exact .ok trivial
    | some _ =>
      have hopen : Returns (nanoOpen x.2 cwd path) fun _ => True := by
        refine hread.bind fun o _ => ?_
        cases o with
        | none => exact .ok trivial
        | some y => exact .ok trivial
      exact hopen.bind fun buffer _ => (nanoLoop_returns hx hcwd path buffer false keys).bind fun _ _ =>
        .ok trivial

end Commands

/-! ### Command lines -/

section Ways
variable {s : System} (f : Fault)

theorem shows_ne_fault {x : Except Fault Text} (h : Returns x fun _ => True) :
    s.shows x ≠ .error (.fault f) := by
  obtain ⟨text, rfl, _⟩ := h
  simp [System.shows]

theorem edits_ne_fault {x : Except Fault (Text × Nodes)} (h : Returns x fun _ => True) :
    s.edits x ≠ .error (.fault f) := by
  obtain ⟨y, rfl, _⟩ := h
  simp [System.edits]

theorem moves_ne_fault {x : Except Fault (Text × Int)} (h : Returns x fun _ => True) :
    s.moves x ≠ .error (.fault f) := by
  obtain ⟨y, rfl, _⟩ := h
  simp [System.moves]

theorem types_ne_fault {x : Except Fault (Nodes × Text × Option (List UInt8))}
    (h : Returns x fun _ => True) : s.types x ≠ .error (.fault f) := by
  obtain ⟨⟨t, text, _ | keys⟩, rfl, _⟩ := h
  · simp [System.types]
  · simp [System.types]

end Ways

theorem installFiles_ends {s : System} (hs : s.nodes = fsInit) : ∃ s', installFiles s = .ok s' := by
  obtain ⟨t, ht, _⟩ := installFilesystem_ok
  unfold installFiles
  rw [hs, ht]
  dsimp only
  split
  · exact ⟨_, rfl⟩
  · exact ⟨_, rfl⟩

theorem cmdInstall_ends (s : System) : ∃ s', cmdInstall s = .ok s' := by
  unfold cmdInstall
  dsimp only
  split
  · exact ⟨_, rfl⟩
  split
  · exact ⟨_, rfl⟩
  · exact installFiles_ends (diskFormatFs_nodes s.disk)

/-- **A line leaves an array only where the numbers it indexes by already did.** -/
theorem shellDispatch_ne_fault {argv : List CStr} {s : System} {P : Int → Prop} (hP : Bounded s.nodes P)
    (hcwd : P s.shellCwd) (f : Fault) : shellDispatch argv s ≠ .error (.fault f) := by
  induction argv generalizing s with
  | nil => simp [shellDispatch]
  | cons name args ih =>
    rw [shellDispatch]
    cases hk : commandOf name with
    | help | clear | whoami | id | logout | apt | networkmanager | nmcli | ifconfig | unknown | disk | sync =>
      dsimp only
      simp
    | pwd => exact shows_ne_fault f (cmdPwd_returns hP _)
    | ls => exact shows_ne_fault f (cmdLs_returns hP hcwd args _)
    | cat => exact shows_ne_fault f (cmdCat_returns hP hcwd args _)
    | cd => exact moves_ne_fault f (cmdCd_returns hP hcwd args _)
    | mkdir => exact edits_ne_fault f (cmdMkdir_returns hP hcwd args _)
    | touch => exact edits_ne_fault f (cmdTouch_returns hP hcwd args _)
    | write => exact edits_ne_fault f (cmdWrite_returns hP hcwd args)
    | rm => exact edits_ne_fault f (cmdRm_returns hP hcwd args)
    | chmod => exact edits_ne_fault f (cmdChmod_returns hP hcwd args _)
    | chown => exact edits_ne_fault f (cmdChown_returns hP hcwd args _)
    | nano => exact types_ne_fault f (cmdNano_returns hP hcwd args _)
    | «sudo» => exact fun h => ih (s := {s with shellUid := shellUidRoot}) hP hcwd (cmdSudo_eq_error h).2
    | install =>
      obtain ⟨s', hs'⟩ := cmdInstall_ends s
      dsimp only
      rw [hs']
      simp

/-! ### Waiting -/

/-- The editor waits only when no Ctrl+X is to come. -/
theorem nanoLoop_waits {t t' : Nodes} {cwd : Int} {path : CStr} {buffer : NanoBuffer} {dirty : Bool}
    {keys : List UInt8} {text : Text} (h : nanoLoop t cwd path buffer dirty keys = .ok (t', text, none)) :
    keyExit ∉ keys := by
  induction keys generalizing t buffer dirty text with
  | nil => simp
  | cons c keys ih =>
    rw [nanoLoop] at h
    split at h
    · rename_i hc
      obtain ⟨_, _, h⟩ := Foundation.bind_eq_ok.mp h
      obtain ⟨⟨t₂, _, rest⟩, hloop, h⟩ := Foundation.bind_eq_ok.mp h
      cases h
      have hne : keyExit ≠ keySave := by decide
      simp [hc, hne, ih hloop]
    split at h
    · split at h
      · obtain ⟨_, _, h⟩ := Foundation.bind_eq_ok.mp h
        cases h
      · cases h
    · rename_i hx
      split at h
      · simp [Ne.symm hx, ih h]
      · obtain ⟨⟨t₂, _, rest⟩, hloop, h⟩ := Foundation.bind_eq_ok.mp h
        cases h
        simp [Ne.symm hx, ih hloop]

theorem cmdNano_waits {t t' : Nodes} {cwd : Int} {args : List CStr} {keys : List UInt8} {text : Text}
    (h : cmdNano t cwd args keys = .ok (t', text, none)) : keyExit ∉ keys := by
  cases args with
  | nil => cases h
  | cons path _ =>
    obtain ⟨x, _, h⟩ := Foundation.bind_eq_ok.mp h
    dsimp only at h
    split at h
    · cases h
    obtain ⟨o, _, h⟩ := Foundation.bind_eq_ok.mp h
    cases o with
    | none => cases h
    | some _ =>
      obtain ⟨buffer, _, h⟩ := Foundation.bind_eq_ok.mp h
      obtain ⟨⟨t₂, _, rest⟩, hloop, h⟩ := Foundation.bind_eq_ok.mp h
      cases h
      exact nanoLoop_waits hloop

/-- Only `nano` waits, under any number of `sudo`, and only while Ctrl+X has not come. -/
theorem shellDispatch_waits {argv : List CStr} {s s' : System}
    (h : shellDispatch argv s = .error (.waiting s')) :
    (∃ name args, effective argv = name :: args ∧ commandOf name = .nano) ∧ keyExit ∉ s.keys := by
  have hshows : ∀ {s : System} {x : Except Fault Text}, s.shows x ≠ .error (.waiting s') := by
    intro s x
    cases x <;> simp [System.shows]
  have hedits : ∀ {s : System} {x : Except Fault (Text × Nodes)}, s.edits x ≠ .error (.waiting s') := by
    intro s x
    cases x <;> simp [System.edits]
  have hmoves : ∀ {s : System} {x : Except Fault (Text × Int)}, s.moves x ≠ .error (.waiting s') := by
    intro s x
    cases x <;> simp [System.moves]
  induction argv generalizing s with
  | nil => cases h
  | cons name args ih =>
    rw [shellDispatch] at h
    cases hk : commandOf name with
    | help | clear | whoami | id | logout | apt | networkmanager | nmcli | ifconfig | unknown | disk | sync =>
      rw [hk] at h
      cases h
    | pwd | ls | cat =>
      rw [hk] at h
      exact absurd h hshows
    | cd =>
      rw [hk] at h
      exact absurd h hmoves
    | mkdir | touch | write | rm | chmod | chown =>
      rw [hk] at h
      exact absurd h hedits
    | nano =>
      rw [hk] at h
      have hname : ¬ name.is "sudo" = true := fun hs => by
        rw [commandOf_sudo_iff.mpr hs] at hk
        cases hk
      refine ⟨⟨name, args, by rw [effective, if_neg hname], hk⟩, ?_⟩
      cases hx : cmdNano s.nodes s.shellCwd args s.keys with
      | error f =>
        simp only [hx] at h
        cases h
      | ok y =>
        obtain ⟨t, text, _ | keys⟩ := y
        · exact cmdNano_waits hx
        · simp only [hx] at h
          cases h
    | «sudo» =>
      rw [hk] at h
      rw [effective, if_pos (commandOf_sudo_iff.mp hk)]
      exact ih (s := {s with shellUid := shellUidRoot}) (cmdSudo_eq_error h).2
    | install =>
      rw [hk] at h
      obtain ⟨s₁, hs₁⟩ := cmdInstall_ends s
      dsimp only at h
      rw [hs₁] at h
      cases h

end FurOS
