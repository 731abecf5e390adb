import FurOS.Disk.Formatting
import FurOS.Fs.Decoding
import FurOS.Shell.Privilege
import FurOS.Shell.Session

/-! The working directory over a session.

`shell_cwd` is an index kept outside the table, and three things take the directory
away from under it: `rm` of the directory itself, a format whose save fails, and an
installation that fails. Where a load or a format succeeds the shell goes to the root;
on these paths it stays where it was (`shellDispatch_sound`). -/
namespace FurOS
open Foundation.Buffer (slice)

/-! ### Images of well-formed filesystems -/

/-- What can be loaded from the disk is the image of a well-formed filesystem. -/
def SavedImages (d : Disk) : Prop :=
  ∀ (len : Nat) (image : Fin len → UInt8), StoredImage d image →
    ∃ t, WellFormed t ∧ readRecords image = some fun i => .ofNode (t i)

/-- A record keeps a name that `is_valid_name` accepts. -/
theorem shortName_ofNode {n : FsNode} (h : (cstr n.name).length ≤ 31) :
    (FsDiskNode.ofNode n).shortName = cstr n.name := by
  have hshort : (FsDiskNode.ofNode n).shortName = cstr (Function.update n.name 31 0) :=
    (cstr_update_last n.name).symm
  rw [hshort]
  have hno : (0 : UInt8) ∉ cstr n.name := Foundation.Buffer.not_mem_text 0 n.name
  obtain ⟨hcells, hend⟩ := (Foundation.Buffer.text_eq_iff 0 n.name (cstr n.name) hno (by omega)).mp rfl
  refine (Foundation.Buffer.text_eq_iff 0 _ (cstr n.name) hno (by omega)).mpr ⟨fun i hi => ?_, ?_⟩
  · rw [Function.update_of_ne (by intro heq; have := congrArg Fin.val heq; simp at this; omega)]
    exact hcells i hi
  · by_cases hlast : (cstr n.name).length = 31
    · have hcell : (⟨(cstr n.name).length, by omega⟩ : Fin 32) = 31 := Fin.ext hlast
      rw [hcell, Function.update_self]
    · rw [Function.update_of_ne (by intro heq; exact hlast (congrArg Fin.val heq))]
      exact hend

/-- The records of a well-formed table. -/
theorem WellFormed.soundRecords {t : Nodes} (wf : WellFormed t) : SoundRecords fun i => .ofNode (t i) := by
  have hu : ∀ i, (FsDiskNode.ofNode (t i)).used ≠ 0 ↔ (t i).used = true := by
    intro i
    simp [FsDiskNode.ofNode]
  have hd : ∀ i, (FsDiskNode.ofNode (t i)).isDir ≠ 0 ↔ (t i).isDir = true := by
    intro i
    simp [FsDiskNode.ofNode]
  have hname : ∀ i, (t i).used = true → (FsDiskNode.ofNode (t i)).shortName = cstr (t i).name :=
    fun i hi => shortName_ofNode (wf.name_le i hi)
  refine ⟨wf.tree.congr hu (fun i _ => hd i) fun _ _ _ => rfl, fun i hi h0 => ?_, fun i hi h0 => ?_,
    fun i j hi hj hi0 hj0 hp hn => ?_⟩
  · rw [hname i ((hu i).mp hi)]
    exact wf.name_ne i ((hu i).mp hi) h0
  · rw [hname i ((hu i).mp hi)]
    exact wf.name_slash i ((hu i).mp hi) h0
  · rw [hname i ((hu i).mp hi), hname j ((hu j).mp hj)] at hn
    exact wf.siblings i j ((hu i).mp hi) ((hu j).mp hj) hi0 hj0 hp hn

theorem WellFormed.rootRecord {t : Nodes} (wf : WellFormed t) : RootRecord fun i => .ofNode (t i) := by
  constructor
  · simp [FsDiskNode.ofNode, wf.root_used]
  · simp [FsDiskNode.ofNode, wf.root_dir]

/-- A disk to which a well-formed filesystem was saved. -/
theorem Saved.savedImages {t : Nodes} {d : Disk} (h : Saved t d.drive.sectors) (wf : WellFormed t) :
    SavedImages d := by
  intro len image himage
  have hlen := himage.length
  rw [h.header, savedHeader_payloadSize] at hlen
  subst hlen
  have heq : image = fsImage t := funext fun x => (himage.bytes x).trans (h.image x)
  rw [heq]
  exact ⟨t, wf, readRecords_fsImage t⟩

/-- A load of such a disk fails and changes nothing, or gives a well-formed table. -/
theorem diskLoadFs_sound {d : Disk} (h : SavedImages d) (t : Nodes) :
    (diskLoadFs t d).1 = 0 ∧ WellFormed (diskLoadFs t d).2.1 ∨
      (diskLoadFs t d).1 ≠ 0 ∧ (diskLoadFs t d).2.1 = t := by
  by_cases hstored : ∃ (len : Nat) (image : Fin len → UInt8), StoredImage d image
  · obtain ⟨len, image, himage⟩ := hstored
    obtain ⟨saved, wf, hrecords⟩ := h len image himage
    obtain ⟨hstatus, htable⟩ := diskLoadFs_stored himage t
    rw [fsDeserialize_accepted hrecords wf.rootRecord] at hstatus htable
    refine .inl ⟨hstatus, ?_⟩
    rw [htable]
    exact decoded_wellFormed ((decoded_structural_iff wf.rootRecord).mpr wf.soundRecords)
  · obtain ⟨hstatus, htable⟩ := diskLoadFs_unstored hstored t
    exact .inr ⟨by rw [hstatus]; decide, htable⟩

/-! ### Lines that keep the directory -/

/-- What an installation must find for the directory `cwd` to be there afterwards: a format that is
saved, or the root; and then a second save, or one of the directories that were made. -/
def InstallKeeps (d : Disk) (cwd : Int) : Prop :=
  (SaveSucceeds d ∨ cwd = fsGetRoot) ∧ (SaveSucceeds d → SaveSucceeds (diskFormatFs d).2.2 ∨ cwd < 8)

/-- The line does not take the working directory away: it does not remove it, and it formats or
installs only where that is saved or the directory will be there again. -/
def KeepsCwd (s : System) : List CStr → Prop
  | [] => True
  | name :: args =>
    match commandOf name, args with
    | .rm, path :: _ => fsResolve s.nodes s.shellCwd path = .ok s.shellCwd → s.shellCwd ≠ fsGetRoot →
        ∃ i, (s.nodes i).used = true ∧ (s.nodes i).parent.toInt = s.shellCwd
    | .disk, sub :: _ => sub.is "format" = true → SaveSucceeds s.disk ∨ s.shellCwd = fsGetRoot
    | .install, _ => diskAvailable s.disk = true → InstallKeeps s.disk s.shellCwd
    | _, _ => True

/-- The line loads from the disk. -/
def loadsDisk : List CStr → Bool
  | name :: sub :: _ => name.is "disk" && sub.is "load"
  | _ => false

/-- The table is in order and `cwd` is a used directory of it. -/
structure Standing (t : Nodes) (cwd : Int) : Prop where
  wf : WellFormed t
  dir : UsedDir t cwd

theorem Standing.extends {t t' : Nodes} {cwd : Int} (h : Standing t cwd) (wf : WellFormed t')
    (hext : Extends t t') : Standing t' cwd := ⟨wf, hext.usedDir h.dir⟩

/-- The line has left a table in order, and the working directory in it exactly when `P`. -/
def Left (P : Prop) (s : System) : Prop := WellFormed s.nodes ∧ (UsedDir s.nodes s.shellCwd ↔ P)

theorem Standing.left {P : Prop} {s : System} (h : Standing s.nodes s.shellCwd) (hP : P) : Left P s :=
  ⟨h.wf, iff_of_true h.dir hP⟩

theorem usedDir_fsInit_iff {cwd : Int} : UsedDir fsInit cwd ↔ cwd = fsGetRoot := by
  constructor
  · intro h
    obtain ⟨c, rfl, hu, _⟩ := h
    rw [(fsInit_used c).mp hu]
    rfl
  · intro heq
    subst heq
    exact wellFormed_fsInit.usedDir_root

theorem diskFormat_left (s : System) : Left (SaveSucceeds s.disk ∨ s.shellCwd = fsGetRoot) (diskFormat s) := by
  have hnodes := diskFormatFs_nodes s.disk
  unfold Left diskFormat
  dsimp only
  by_cases hsave : SaveSucceeds s.disk
  · rw [if_neg (by simpa using diskFormatFs_eq_zero_iff.mpr hsave)]
    simp only [System.print, hnodes]
    exact ⟨wellFormed_fsInit, iff_of_true wellFormed_fsInit.usedDir_root (.inl hsave)⟩
  · rw [if_pos (fun h => hsave (diskFormatFs_eq_zero_iff.mp h))]
    simp only [System.print, hnodes]
    refine ⟨wellFormed_fsInit, usedDir_fsInit_iff.trans ?_⟩
    simp [hsave]

/-- A load that succeeds takes the shell to the root, and one that fails changes nothing. -/
theorem diskLoad_standing {s : System} (h : Standing s.nodes s.shellCwd) (himage : SavedImages s.disk) :
    Standing (diskLoad s).nodes (diskLoad s).shellCwd := by
  unfold diskLoad
  dsimp only
  rcases diskLoadFs_sound himage s.nodes with ⟨hstatus, hload⟩ | ⟨hstatus, hsame⟩
  · rw [if_neg (by simpa using hstatus)]
    exact ⟨hload, hload.usedDir_root⟩
  · rw [if_pos hstatus]
    simp only [System.print, hsame]
    exact h

theorem installFiles_left {s s' : System} (hnodes : s.nodes = fsInit) (h0 : 0 ≤ s.shellCwd)
    (h : installFiles s = .ok s') : Left (SaveSucceeds s.disk ∨ s.shellCwd < 8) s' := by
  obtain ⟨t, ht, wf, _⟩ := installFilesystem_ok
  unfold installFiles at h
  rw [hnodes, ht] at h
  dsimp only at h
  split at h
  · rename_i hstatus
    have hsave : ¬ SaveSucceeds s.disk := fun hsave => hstatus (diskSaveFs_eq_zero_iff.mpr hsave)
    cases h
    refine ⟨wf, (installFilesystem_usedDir_iff ht h0).trans ?_⟩
    simp [hsave]
  · rename_i hstatus
    have hsave : SaveSucceeds s.disk := diskSaveFs_eq_zero_iff.mp (not_not.mp hstatus)
    cases h
    exact ⟨wf, iff_of_true wf.usedDir_root (.inl hsave)⟩

theorem cmdInstall_left {s s' : System} (hs : Standing s.nodes s.shellCwd) (h : cmdInstall s = .ok s') :
    Left (diskAvailable s.disk = true → InstallKeeps s.disk s.shellCwd) s' := by
  have h0 : 0 ≤ s.shellCwd := by
    obtain ⟨c, hc, _⟩ := hs.dir
    omega
  have hnodes := diskFormatFs_nodes s.disk
  unfold cmdInstall at h
  dsimp only at h
  split at h
  · rename_i hno
    cases h
    refine hs.left fun hav => ?_
    have hno' : (!diskAvailable s.disk) = true := hno
    simp [hav] at hno'
  · rename_i hav
    have hav' : diskAvailable s.disk = true := by
      have hav : ¬ (!diskAvailable s.disk) = true := hav
      simpa using hav
    simp only [hav', forall_const, InstallKeeps]
    split at h
    · rename_i hstatus
      have hsave : ¬ SaveSucceeds s.disk := fun hsave => hstatus (diskFormatFs_eq_zero_iff.mpr hsave)
      cases h
      have hleft : WellFormed fsInit ∧ (UsedDir fsInit s.shellCwd ↔ s.shellCwd = fsGetRoot) :=
        ⟨wellFormed_fsInit, usedDir_fsInit_iff⟩
      rw [← hnodes] at hleft
      refine ⟨hleft.1, hleft.2.trans ?_⟩
      simp [hsave]
    · rename_i hstatus
      have hsave : SaveSucceeds s.disk := diskFormatFs_eq_zero_iff.mp (not_not.mp hstatus)
      have hleft := (fun hn hz => installFiles_left hn hz h) hnodes h0
      refine ⟨hleft.1, hleft.2.trans ?_⟩
      simp [hsave]

/-- `rm` takes the working directory away exactly where its path leads there and it is an empty
directory. -/
theorem Removal.left {t t' : Nodes} (wf : WellFormed t) {c : NodeId} (hc : (t c).used = true)
    (hd : (t c).isDir = true) {path : CStr} {r : Int} (h : Removal t c path r t') :
    UsedDir t' c.val ↔ (fsResolve t c.val path = .ok (c.val : Int) → (c.val : Int) ≠ fsGetRoot →
      ∃ i, (t i).used = true ∧ (t i).parent.toInt = c.val) := by
  have hroot : (c.val : Int) ≠ fsGetRoot → c ≠ 0 := by
    rintro hne rfl
    exact hne rfl
  cases h with
  | failed hwhy =>
    refine iff_of_true ⟨c, rfl, hc, hd⟩ fun hres hne => ?_
    exact hwhy c ((fsResolve_eq_some wf.navigable hc).mp hres) (hroot hne)
  | @removed n hr h0 hu hleaf =>
    have hres : fsResolve t c.val path = .ok (n.val : Int) := (fsResolve_eq_some wf.navigable hc).mpr hr
    by_cases hnc : n = c
    · subst hnc
      refine iff_of_false ?_ fun h => ?_
      · intro hs
        obtain ⟨m, hm, hused, _⟩ := hs
        rw [← Fin.ext (by exact_mod_cast hm : n.val = m.val), Function.update_self] at hused
        cases hused
      · have hne : (n.val : Int) ≠ fsGetRoot := by
          intro heq
          have hzero : (n.val : Int) = 0 := heq
          exact h0 (Fin.ext (by show n.val = 0; omega))
        obtain ⟨i, hi, hparent⟩ := h hres hne
        exact hleaf i hi hparent
    · refine iff_of_true ⟨c, rfl, ?_, ?_⟩ fun hto => ?_
      · rw [Function.update_of_ne (Ne.symm hnc), hc]
      · rw [Function.update_of_ne (Ne.symm hnc), hd]
      · rw [hres] at hto
        exact absurd (Fin.ext (by exact_mod_cast Except.ok.inj hto)) hnc

/-- A table in which every slot is used as before, by a node of the same kind. -/
theorem UsedDir.of_same {t t' : Nodes} {cwd : Int} (h : UsedDir t cwd) (hused : ∀ i, (t' i).used = (t i).used)
    (hdir : ∀ i, (t' i).isDir = (t i).isDir) : UsedDir t' cwd := by
  obtain ⟨c, hc, hu, hd⟩ := h
  exact ⟨c, hc, (hused c).trans hu, (hdir c).trans hd⟩

theorem fsSetMode_usedDir {t : Nodes} {cwd : Int} (h : UsedDir t cwd) (node : Int) (mode : UInt16) :
    UsedDir (fsSetMode t node mode).2 cwd := by
  unfold fsSetMode
  cases usedNode t node with
  | none => exact h
  | some n =>
    exact h.of_same (fun i => update_field (m := {t n with mode := mode &&& 0o777}) FsNode.used rfl i)
      (fun i => update_field (m := {t n with mode := mode &&& 0o777}) FsNode.isDir rfl i)

theorem fsSetOwner_usedDir {t : Nodes} {cwd : Int} (h : UsedDir t cwd) (node : Int) (owner : UInt16) :
    UsedDir (fsSetOwner t node owner).2 cwd := by
  unfold fsSetOwner
  cases usedNode t node with
  | none => exact h
  | some n =>
    exact h.of_same (fun i => update_field (m := {t n with owner := owner}) FsNode.used rfl i)
      (fun i => update_field (m := {t n with owner := owner}) FsNode.isDir rfl i)

/-- What `KeepsCwd` looks at. -/
theorem keepsCwd_congr {s s' : System} (hnodes : s'.nodes = s.nodes) (hcwd : s'.shellCwd = s.shellCwd)
    (hdisk : s'.disk = s.disk) (argv : List CStr) : KeepsCwd s' argv ↔ KeepsCwd s argv := by
  cases argv with
  | nil => exact Iff.rfl
  | cons name args =>
    unfold KeepsCwd
    rw [hnodes, hcwd, hdisk]

/-! ### Commands that keep it -/

section Commands
variable {t t' : Nodes} {cwd : Int} (hs : Standing t cwd) {args : List CStr} {uid : UInt16} {text : Text}
include hs

theorem cmdCd_standing {cwd' : Int} (h : cmdCd t cwd args uid = .ok (text, cwd')) : Standing t cwd' := by
  obtain ⟨c, rfl, hu, hd⟩ := hs.dir
  obtain ⟨text', cwd', hcmd, hdir⟩ := cmdCd_ok hs.wf hu hd args uid
  rw [hcmd] at h
  cases h
  exact ⟨hs.wf, hdir⟩

theorem cmdMkdir_standing (h : cmdMkdir t cwd args uid = .ok (text, t')) : Standing t' cwd := by
  have hext := cmdMkdir_extends h
  obtain ⟨c, rfl, hu, hd⟩ := hs.dir
  obtain ⟨text', t', hcmd, hout⟩ := cmdMkdir_ok hs.wf hu hd args uid
  rw [hcmd] at h
  cases h
  rcases hout with rfl | ⟨path, r, _, hcr⟩
  · exact hs
  · exact hs.extends (hcr.wellFormed hs.wf) hext

theorem cmdTouch_standing (h : cmdTouch t cwd args uid = .ok (text, t')) : Standing t' cwd := by
  have hext := cmdTouch_extends h
  obtain ⟨c, rfl, hu, hd⟩ := hs.dir
  obtain ⟨text', t', hcmd, hout⟩ := cmdTouch_ok hs.wf hu hd args uid
  rw [hcmd] at h
  cases h
  rcases hout with rfl | ⟨path, r, _, hcr⟩
  · exact hs
  · exact hs.extends (hcr.wellFormed hs.wf) hext

theorem cmdWrite_standing (h : cmdWrite t cwd args = .ok (text, t')) : Standing t' cwd := by
  have hext := cmdWrite_extends h
  obtain ⟨c, rfl, hu, hd⟩ := hs.dir
  obtain _ | ⟨path, _ | ⟨word, words⟩⟩ := args
  · cases h
    exact hs
  · cases h
    exact hs
  · obtain ⟨text', r, t', hcmd, hw⟩ := cmdWrite_ok hs.wf hu hd path word words
    rw [hcmd] at h
    cases h
    exact hs.extends (hw.wellFormed hs.wf) hext

theorem cmdNano_standing {keys : List UInt8} {rest : Option (List UInt8)}
    (h : cmdNano t cwd args keys = .ok (t', text, rest)) : Standing t' cwd := by
  have hext := cmdNano_extends h
  obtain ⟨c, rfl, hu, hd⟩ := hs.dir
  cases args with
  | nil =>
    cases h
    exact hs
  | cons path args =>
    obtain ⟨t', text', rest', hcmd, hedit⟩ := cmdNano_ok hs.wf hu hd path args keys
    rw [hcmd] at h
    cases h
    exact hs.extends (hedit.wellFormed hs.wf hu) hext

theorem cmdChmod_standing (h : cmdChmod t cwd args uid = .ok (text, t')) : Standing t' cwd := by
  obtain ⟨c, rfl, hu, hd⟩ := hs.dir
  obtain ⟨text', t', hcmd, hout⟩ := cmdChmod_ok hs.wf hu args uid
  rw [hcmd] at h
  cases h
  rcases hout with rfl | ⟨node, mode, rfl⟩
  · exact hs
  · exact ⟨fsSetMode_wellFormed hs.wf node mode, fsSetMode_usedDir hs.dir node mode⟩

theorem cmdChown_standing (h : cmdChown t cwd args uid = .ok (text, t')) : Standing t' cwd := by
  obtain ⟨c, rfl, hu, hd⟩ := hs.dir
  obtain ⟨text', t', hcmd, hout⟩ := cmdChown_ok hs.wf hu args uid
  rw [hcmd] at h
  cases h
  rcases hout with rfl | ⟨node, owner, rfl⟩
  · exact hs
  · exact ⟨fsSetOwner_wellFormed hs.wf node owner, fsSetOwner_usedDir hs.dir node owner⟩

end Commands

/-! ### Lines -/

theorem cmdRm_left {s : System} (hs : Standing s.nodes s.shellCwd) (path : CStr) (rest : List CStr) {text : Text}
    {t' : Nodes} (h : cmdRm s.nodes s.shellCwd (path :: rest) = .ok (text, t')) :
    Left (fsResolve s.nodes s.shellCwd path = .ok s.shellCwd → s.shellCwd ≠ fsGetRoot →
      ∃ i, (s.nodes i).used = true ∧ (s.nodes i).parent.toInt = s.shellCwd) ({s with nodes := t'}.print text) := by
  obtain ⟨c, hc, hu, hd⟩ := hs.dir
  obtain ⟨text', r, t', hcmd, hr⟩ := cmdRm_ok hs.wf hu path rest
  rw [hc, hcmd] at h
  cases h
  refine ⟨hr.wellFormed hs.wf, ?_⟩
  simp only [System.print, hc]
  exact hr.left hs.wf hu hd

theorem cmdDisk_left {s : System} (hs : Standing s.nodes s.shellCwd) (sub : CStr) (rest : List CStr)
    (himage : sub.is "load" = true → SavedImages s.disk) :
    Left (sub.is "format" = true → SaveSucceeds s.disk ∨ s.shellCwd = fsGetRoot) (cmdDisk (sub :: rest) s) := by
  have hother : ∀ {text : String}, sub.is text = true → 0 ∉ lit text → (CStr.ofLit text).is "format" = false →
      sub.is "format" = true → SaveSucceeds s.disk ∨ s.shellCwd = fsGetRoot := by
    intro text htext h0 hno hformat
    rw [is_ofLit htext h0, hno] at hformat
    cases hformat
  unfold cmdDisk
  dsimp only
  split
  · exact hs.left (hother ‹_› (by decide) (by decide))
  split
  · exact (diskLoad_standing hs (himage ‹_›)).left (hother ‹_› (by decide) (by decide))
  split
  · obtain ⟨disk, text, heq⟩ := cmdSync_eq s
    rw [heq]
    exact hs.left (hother ‹_› (by decide) (by decide))
  split
  · rename_i hformat
    have hleft := diskFormat_left s
    exact ⟨hleft.1, hleft.2.trans (by simp [hformat])⟩
  · exact hs.left fun hformat => absurd hformat ‹_›

/-- **A line leaves the table in order, and the working directory in it exactly when it keeps it.** -/
theorem shellDispatch_left {argv : List CStr} {s s' : System} (hs : Standing s.nodes s.shellCwd)
    (himage : loadsDisk (effective argv) = true → SavedImages s.disk) (h : shellDispatch argv s = .ok s') :
    Left (KeepsCwd s (effective argv)) s' := by
  induction argv generalizing s s' with
  | nil =>
    cases h
    exact hs.left trivial
  | cons name args ih =>
    simp only [shellDispatch] at h
    by_cases hsudo : name.is "sudo" = true
    · rw [commandOf_sudo_iff.mpr hsudo] at h
      rw [effective, if_pos hsudo] at himage ⊢
      rcases cmdSudo_eq_ok h with ⟨rfl, text, rfl⟩ | ⟨s₁, h₁, rfl⟩
      · exact hs.left trivial
      · have hleft := ih (s := {s with shellUid := shellUidRoot}) hs himage h₁
        exact ⟨hleft.1, hleft.2.trans (keepsCwd_congr rfl rfl rfl (effective args))⟩
    rw [effective, if_neg hsudo] at himage ⊢
    simp only [KeepsCwd]
    cases hk : commandOf name with
    | help | clear | whoami | id | logout | apt | networkmanager | nmcli | ifconfig | unknown =>
      rw [hk] at h
      cases h
      exact hs.left trivial
    | pwd | ls | cat =>
      rw [hk] at h
      obtain ⟨text, _, rfl⟩ := shows_eq_ok h
      exact hs.left trivial
    | cd =>
      rw [hk] at h
      obtain ⟨text, cwd, hop, rfl⟩ := moves_eq_ok h
      exact (cmdCd_standing hs hop).left trivial
    | mkdir =>
      rw [hk] at h
      obtain ⟨text, t, hop, rfl⟩ := edits_eq_ok h
      exact (cmdMkdir_standing hs hop).left trivial
    | touch =>
      rw [hk] at h
      obtain ⟨text, t, hop, rfl⟩ := edits_eq_ok h
      exact (cmdTouch_standing hs hop).left trivial
    | write =>
      rw [hk] at h
      obtain ⟨text, t, hop, rfl⟩ := edits_eq_ok h
      exact (cmdWrite_standing hs hop).left trivial
    | nano =>
      rw [hk] at h
      obtain ⟨t, text, keys, hop, rfl⟩ := types_eq_ok h
      exact (cmdNano_standing hs hop).left trivial
    | chmod =>
      rw [hk] at h
      obtain ⟨text, t, hop, rfl⟩ := edits_eq_ok h
      exact (cmdChmod_standing hs hop).left trivial
    | chown =>
      rw [hk] at h
      obtain ⟨text, t, hop, rfl⟩ := edits_eq_ok h
      exact (cmdChown_standing hs hop).left trivial
    | rm =>
      rw [hk] at h
      obtain ⟨text, t, hop, rfl⟩ := edits_eq_ok h
      cases args with
      | nil =>
        cases hop
        exact hs.left trivial
      | cons path rest => exact cmdRm_left hs path rest hop
    | sync =>
      rw [hk] at h
      cases h
      obtain ⟨disk, text, heq⟩ := cmdSync_eq s
      rw [heq]
      exact hs.left trivial
    | disk =>
      rw [hk] at h
      cases h
      cases args with
      | nil => exact hs.left trivial
      | cons sub rest =>
        refine cmdDisk_left hs sub rest fun hload => himage ?_
        simp [loadsDisk, commandOf_disk_iff.mp hk, hload]
    | install =>
      rw [hk] at h
      exact cmdInstall_left hs h
    | «sudo» => exact absurd (commandOf_sudo_iff.mp hk) hsudo

/-! ### Sessions -/

theorem seedLive_ok {s : System} (hnodes : s.nodes = fsInit) : ∃ s', seedLive s = .ok s' ∧ WellFormed s'.nodes := by
  obtain ⟨t, ht, wf, _⟩ := shellSeedFilesystem_ok
  unfold seedLive System.edits
  rw [hnodes, ht]
  exact ⟨_, rfl, wf⟩

/-- Start-up ends, and its prompt is at the root of a well-formed table. -/
theorem shellStart_ok {s : System} {scan : Scan} (himage : SavedImages (diskInit scan s.disk)) :
    ∃ s₀, shellStart s scan = .ok s₀ ∧ Standing s₀.nodes s₀.shellCwd := by
  have hload : ∃ s₁,
      loadOrSeed {s with nodes := fsInit, disk := diskInit scan s.disk, shellExit := false} = .ok s₁ ∧
      WellFormed s₁.nodes := by
    unfold loadOrSeed
    split
    · exact seedLive_ok rfl
    dsimp only
    rcases diskLoadFs_sound himage fsInit with ⟨hstatus, hload⟩ | ⟨hstatus, hsame⟩
    · rw [if_pos hstatus]
      exact ⟨_, rfl, hload⟩
    · rw [if_neg hstatus]
      exact seedLive_ok hsame
  obtain ⟨s₁, h₁, wf⟩ := hload
  obtain ⟨motd, hmotd, _⟩ := shellMotd_returns wf
  unfold shellStart
  rw [h₁, Foundation.ok_bind]
  dsimp only
  rw [hmotd]
  exact ⟨_, rfl, wf, wf.usedDir_root⟩

/-- Where the line loads from the disk, the disk has been saved to. -/
def LoadsSaved (s : System) (argv : List CStr) : Prop :=
  loadsDisk (effective argv) = true → SavedImages s.disk

theorem shellIteration_left {s s' : System} (hs : Standing s.nodes s.shellCwd)
    (himage : LoadsSaved s (nextWords s)) (h : shellIteration s = .ok s') :
    Left (KeepsCwd s (effective (nextWords s))) s' := by
  obtain ⟨keys, text, _, hdispatch⟩ := shellIteration_ok h
  have hleft := shellDispatch_left (s := {s with keys := keys}.print text) hs (fun h => himage h) hdispatch
  exact ⟨hleft.1, hleft.2.trans (keepsCwd_congr rfl rfl rfl _)⟩

/-- **At every prompt of a session the working directory is in order exactly while every line keeps it.** -/
theorem session_standing_iff (s : System) (scan : Scan) (s₀ : System)
    (himage : SavedImages (diskInit scan s.disk)) (hstart : shellStart s scan = .ok s₀) :
    (∀ s₁, Prompted LoadsSaved s₀ s₁ → Standing s₁.nodes s₁.shellCwd) ↔
      ∀ s₁ s₂, Prompted LoadsSaved s₀ s₁ → s₁.shellExit = false → LoadsSaved s₁ (nextWords s₁) →
        shellIteration s₁ = .ok s₂ → KeepsCwd s₁ (effective (nextWords s₁)) := by
  constructor
  · intro hall s₁ s₂ hrun hexit hload hstep
    have hleft := shellIteration_left (hall s₁ hrun) hload hstep
    exact hleft.2.mp (hall s₂ (.step (o := ()) hrun ⟨hexit, hload⟩ hstep)).dir
  · intro hkeeps s₁ hrun
    induction hrun with
    | start =>
      obtain ⟨s₀', hstart', hs⟩ := shellStart_ok himage
      rw [hstart] at hstart'
      cases hstart'
      exact hs
    | step hrun hadmit hstep ih =>
      have hleft := shellIteration_left ih hadmit.2 hstep
      exact ⟨hleft.1, hleft.2.mpr (hkeeps _ _ hrun hadmit.1 hadmit.2 hstep)⟩

/-- On a disk to which the empty filesystem was saved. -/
theorem session_standing_saved : ∃ s₀,
    shellStart (firstSession (rebooted (diskSaveFs fsInit blankDisk).2) (lit "cd ..\n")) oneDiskScan = .ok s₀ ∧
      ((∀ s₁, Prompted LoadsSaved s₀ s₁ → Standing s₁.nodes s₁.shellCwd) ↔
        ∀ s₁ s₂, Prompted LoadsSaved s₀ s₁ → s₁.shellExit = false → LoadsSaved s₁ (nextWords s₁) →
          shellIteration s₁ = .ok s₂ → KeepsCwd s₁ (effective (nextWords s₁))) := by
  have himage : SavedImages (diskInit oneDiskScan (rebooted (diskSaveFs fsInit blankDisk).2)) :=
    Saved.savedImages (diskSaveFs_blankDisk fsInit).2 wellFormed_fsInit
  obtain ⟨s₀, hstart, _⟩ := shellStart_ok
    (s := firstSession (rebooted (diskSaveFs fsInit blankDisk).2) (lit "cd ..\n")) himage
  exact ⟨s₀, hstart, session_standing_iff _ oneDiskScan s₀ himage hstart⟩

/-! ### A session that loses its directory -/

theorem savedImages_noDisk (d : Disk) : SavedImages (diskInit noDiskScan d) := by
  intro len image h
  have hsel : (0 : Int) ≤ -1 := h.selected
  exact absurd hsel (by decide)

/-- The live filesystem has an empty directory `tmp` that everyone may enter. -/
theorem seeded_tmp : ∃ t, shellSeedFilesystem fsInit = .ok t ∧
    (leadsTo t fsGetRoot "tmp" 5 && fsCheckAccess t 5 shellUidDebian fsAccessExec &&
      (List.finRange 128).all fun i => !(t i).used || (t i).parent != 5) = true :=
  Foundation.exists_of_check (by decide +kernel)

/-- `.` is the directory itself. -/
theorem resolve_dot (t : Nodes) (c : NodeId) : resolve t c (CStr.ofLit ".").chars = some c := by
  have hnames : Foundation.components slash (CStr.ofLit ".").chars = [lit "."] := by decide
  have hstart : startOf c (CStr.ofLit ".").chars = c := if_neg (by decide)
  unfold resolve
  rw [hnames, hstart, Foundation.walk_cons, stepName, if_pos rfl]
  rfl

/-- `cd tmp` at the first prompt. -/
theorem shellIteration_cd {s : System} (wf : WellFormed s.nodes) (hcwd : s.shellCwd = fsGetRoot)
    (hkeys : s.keys = lit "cd tmp\nrm .\n") (htmp : leadsTo s.nodes fsGetRoot "tmp" 5 = true)
    (haccess : fsCheckAccess s.nodes 5 s.shellUid fsAccessExec = true) :
    ∃ s', shellIteration s = .ok s' ∧ nextWords s = [.ofLit "cd", .ofLit "tmp"] ∧ s'.nodes = s.nodes ∧
      s'.shellCwd = ((5 : NodeId).val : Int) ∧ s'.shellExit = s.shellExit ∧ s'.keys = lit "rm .\n" := by
  have hwords : nextWords s = [.ofLit "cd", .ofLit "tmp"] := by
    unfold nextWords
    rw [hkeys]
    decide
  have hrest : (shellReadLine ⟨[], emptyLine_fits⟩ s.keys).2.2 = some (lit "rm .\n") := by
    rw [hkeys]
    decide
  obtain ⟨hres, c, hc, hu, hd⟩ := leadsTo_spec htmp
  have hcd : cmdCd s.nodes s.shellCwd [.ofLit "tmp"] s.shellUid = .ok ([], ((5 : NodeId).val : Int)) := by
    have hisdir : fsIsDir s.nodes ((5 : NodeId).val : Int) = true := by
      rw [hc, fsIsDir, usedNode_ofNat s.nodes c hu]
      exact hd
    have hmay : fsCheckAccess s.nodes ((5 : NodeId).val : Int) s.shellUid fsAccessExec = true := haccess
    unfold cmdCd
    dsimp only
    rw [hcwd, hres, Foundation.ok_bind, hisdir, hmay]
    rfl
  obtain ⟨text, hstep⟩ := shellIteration_eq wf hrest
  rw [hwords, shellDispatch, show commandOf (.ofLit "cd") = .cd by decide] at hstep
  refine ⟨({({s with keys := lit "rm .\n"}.print text) with shellCwd := ((5 : NodeId).val : Int)}.print []),
    hstep.trans ?_, hwords, rfl, rfl, rfl, rfl⟩
  show System.moves _ (cmdCd s.nodes s.shellCwd [.ofLit "tmp"] s.shellUid) = _
  rw [hcd]
  rfl

/-- `rm .` in a directory that is empty. -/
theorem shellIteration_rm {s : System} (wf : WellFormed s.nodes) {c : NodeId} (hcwd : s.shellCwd = (c.val : Int))
    (h0 : c ≠ 0) (hu : (s.nodes c).used = true) (hd : (s.nodes c).isDir = true)
    (hempty : ∀ i, (s.nodes i).used = true → (s.nodes i).parent.toInt ≠ c.val) (hkeys : s.keys = lit "rm .\n") :
    ∃ s', shellIteration s = .ok s' ∧ nextWords s = [.ofLit "rm", .ofLit "."] ∧ ¬ UsedDir s'.nodes s'.shellCwd := by
  have hwords : nextWords s = [.ofLit "rm", .ofLit "."] := by
    unfold nextWords
    rw [hkeys]
    decide
  have hrest : (shellReadLine ⟨[], emptyLine_fits⟩ s.keys).2.2 = some [] := by
    rw [hkeys]
    decide
  obtain ⟨text, r, t', hrm, hremoval⟩ := cmdRm_ok wf hu (.ofLit ".") []
  obtain ⟨echo, hstep⟩ := shellIteration_eq wf hrest
  rw [hwords, shellDispatch, show commandOf (.ofLit "rm") = .rm by decide] at hstep
  refine ⟨{{s with keys := []}.print echo with nodes := t'}.print text, hstep.trans ?_, hwords, fun hdir => ?_⟩
  · show System.edits _ (cmdRm s.nodes s.shellCwd [.ofLit "."]) = _
    rw [hcwd, hrm]
    rfl
  · have hdir' : UsedDir t' c.val := hcwd ▸ hdir
    have hroot : (c.val : Int) ≠ fsGetRoot := by
      intro heq
      have hzero : (c.val : Int) = 0 := heq
      exact h0 (Fin.ext (by show c.val = 0; omega))
    have hdot := (fsResolve_eq_some wf.navigable hu).mpr (resolve_dot s.nodes c)
    obtain ⟨i, hi, hparent⟩ := (hremoval.left wf hu hd).mp hdir' hdot hroot
    exact hempty i hi hparent

/-- `cd tmp` and `rm .` leave the shell in a slot that is free. -/
theorem session_dangling : ∃ s₀ s₁,
    SavedImages (diskInit noDiskScan (firstSession blankDisk (lit "cd tmp\nrm .\n")).disk) ∧
      shellStart (firstSession blankDisk (lit "cd tmp\nrm .\n")) noDiskScan = .ok s₀ ∧
      Prompted LoadsSaved s₀ s₁ ∧ ¬ UsedDir s₁.nodes s₁.shellCwd := by
  obtain ⟨s₀, hstart, hseed, wf, hcwd, huid, hexit, hkeys⟩ :=
    shellStart_live (firstSession blankDisk (lit "cd tmp\nrm .\n")) noDiskScan fun h => absurd h (by decide)
  obtain ⟨t, ht, hcheck⟩ := seeded_tmp
  rw [hseed] at ht
  cases ht
  simp only [Bool.and_eq_true, List.all_eq_true] at hcheck
  obtain ⟨⟨htmp, haccess⟩, hempty⟩ := hcheck
  rw [← huid] at haccess
  obtain ⟨s₁, hcd, hwords, hnodes₁, hcwd₁, hexit₁, hkeys₁⟩ := shellIteration_cd wf hcwd hkeys htmp haccess
  obtain ⟨_, c, hc, hu, hd⟩ := leadsTo_spec htmp
  rw [hc] at hcwd₁
  have hfive : c = 5 := Fin.ext (by exact_mod_cast hc.symm)
  rw [← hnodes₁] at wf hu hd
  have hchildless : ∀ i, (s₁.nodes i).used = true → (s₁.nodes i).parent.toInt ≠ c.val := by
    intro i hi hparent
    have hslot := hempty i (List.mem_finRange i)
    rw [hnodes₁] at hi hparent
    have hchild : (s₀.nodes i).parent = 5 := Int32.toInt_inj.mp (by rw [hparent, hfive]; rfl)
    simp [hi, hchild] at hslot
  obtain ⟨s₂, hrm, hwords₁, hdangling⟩ := shellIteration_rm wf hcwd₁ (by rw [hfive]; decide) hu hd hchildless hkeys₁
  have hquiet : loadsDisk (effective [.ofLit "cd", .ofLit "tmp"]) = false := by decide
  have hquiet₁ : loadsDisk (effective [.ofLit "rm", .ofLit "."]) = false := by decide
  refine ⟨s₀, s₂, savedImages_noDisk _, hstart, .step (o := ()) (.step (o := ()) .start ⟨hexit, ?_⟩ hcd)
    ⟨hexit₁.trans hexit, ?_⟩ hrm, hdangling⟩
  · intro h
    rw [hwords, hquiet] at h
    cases h
  · intro h
    rw [hwords₁, hquiet₁] at h
    cases h

end FurOS
