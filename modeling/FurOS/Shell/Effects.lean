import FurOS.Fs.Edits
import FurOS.Shell.Session

/-! What a command line does to the table, the disk and the working directory.

`shellDispatch_effect` says once, command by command, what a line that ends can change, however
many `sudo`s stand before it. A line that does not replace the table edits it: it fills and frees
only the slots that its words lead to (`Overwrites`), on any table. -/
namespace FurOS

/-! ### One line -/

/-- What the words without `sudo` leave of the table, the disk and the working directory. -/
inductive Effect (s : System) (uid : UInt16) : List CStr → Nodes → Disk → Int → Prop where
  | still (argv : List CStr) : Effect s uid argv s.nodes s.disk s.shellCwd
  | cd {name : CStr} {args : List CStr} {text : Text} {cwd : Int} : commandOf name = .cd →
      cmdCd s.nodes s.shellCwd args uid = .ok (text, cwd) → Effect s uid (name :: args) s.nodes s.disk cwd
  | mkdir {name : CStr} {args : List CStr} {text : Text} {t : Nodes} : commandOf name = .mkdir →
      cmdMkdir s.nodes s.shellCwd args uid = .ok (text, t) → Effect s uid (name :: args) t s.disk s.shellCwd
  | touch {name : CStr} {args : List CStr} {text : Text} {t : Nodes} : commandOf name = .touch →
      cmdTouch s.nodes s.shellCwd args uid = .ok (text, t) → Effect s uid (name :: args) t s.disk s.shellCwd
  | write {name : CStr} {args : List CStr} {text : Text} {t : Nodes} : commandOf name = .write →
      cmdWrite s.nodes s.shellCwd args = .ok (text, t) → Effect s uid (name :: args) t s.disk s.shellCwd
  | nano {name : CStr} {args : List CStr} {text : Text} {t : Nodes} {rest : Option (List UInt8)} :
      commandOf name = .nano → cmdNano s.nodes s.shellCwd args s.keys = .ok (t, text, rest) →
      Effect s uid (name :: args) t s.disk s.shellCwd
  | rm {name : CStr} {args : List CStr} {text : Text} {t : Nodes} : commandOf name = .rm →
      cmdRm s.nodes s.shellCwd args = .ok (text, t) → Effect s uid (name :: args) t s.disk s.shellCwd
  | chmod {name : CStr} {args : List CStr} {text : Text} {t : Nodes} : commandOf name = .chmod →
      cmdChmod s.nodes s.shellCwd args uid = .ok (text, t) → Effect s uid (name :: args) t s.disk s.shellCwd
  | chown {name : CStr} {args : List CStr} {text : Text} {t : Nodes} : commandOf name = .chown →
      cmdChown s.nodes s.shellCwd args uid = .ok (text, t) → Effect s uid (name :: args) t s.disk s.shellCwd
  | sync {name : CStr} {args : List CStr} : commandOf name = .sync →
      Effect s uid (name :: args) s.nodes (diskSaveFs s.nodes s.disk).2 s.shellCwd
  | disk {name : CStr} {args : List CStr} : commandOf name = .disk →
      Effect s uid (name :: args) (cmdDisk args {s with shellUid := uid}).nodes
        (cmdDisk args {s with shellUid := uid}).disk (cmdDisk args {s with shellUid := uid}).shellCwd
  | install {name : CStr} {args : List CStr} {s' : System} : commandOf name = .install →
      cmdInstall {s with shellUid := uid} = .ok s' → Effect s uid (name :: args) s'.nodes s'.disk s'.shellCwd

/-- Whose line it was before does not matter. -/
theorem Effect.asUser {s : System} {u uid : UInt16} {argv : List CStr} {t : Nodes} {d : Disk} {cwd : Int}
    (h : Effect {s with shellUid := u} uid argv t d cwd) : Effect s uid argv t d cwd := by
  cases h with
  | still => exact .still _
  | cd hk hop => exact .cd hk hop
  | mkdir hk hop => exact .mkdir hk hop
  | touch hk hop => exact .touch hk hop
  | write hk hop => exact .write hk hop
  | nano hk hop => exact .nano hk hop
  | rm hk hop => exact .rm hk hop
  | chmod hk hop => exact .chmod hk hop
  | chown hk hop => exact .chown hk hop
  | sync hk => exact .sync hk
  | disk hk => exact .disk hk
  | install hk hop => exact .install hk hop

theorem cmdSync_effect (s : System) :
    (cmdSync s).nodes = s.nodes ∧ (cmdSync s).disk = (diskSaveFs s.nodes s.disk).2 ∧
    (cmdSync s).shellCwd = s.shellCwd := by
  unfold cmdSync
  dsimp only
  split
  · exact ⟨rfl, rfl, rfl⟩
  · exact ⟨rfl, rfl, rfl⟩

/-- What a line without `sudo` can do, as the user whose line it is. -/
theorem shellDispatch_effect_plain {name : CStr} {args : List CStr} {s s' : System} (hsudo : name.is "sudo" = false)
    (h : shellDispatch (name :: args) s = .ok s') :
    Effect s s.shellUid (name :: args) s'.nodes s'.disk s'.shellCwd := by
  simp only [shellDispatch] at h
  cases hk : commandOf name with
  | help | clear | whoami | id | logout | apt | networkmanager | nmcli | ifconfig | unknown =>
    rw [hk] at h
    cases h
    exact .still _
  | pwd | ls | cat =>
    rw [hk] at h
    obtain ⟨text, _, rfl⟩ := shows_eq_ok h
    exact .still _
  | cd =>
    rw [hk] at h
    obtain ⟨text, cwd, hop, rfl⟩ := moves_eq_ok h
    exact .cd hk hop
  | mkdir =>
    rw [hk] at h
    obtain ⟨text, t, hop, rfl⟩ := edits_eq_ok h
    exact .mkdir hk hop
  | touch =>
    rw [hk] at h
    obtain ⟨text, t, hop, rfl⟩ := edits_eq_ok h
    exact .touch hk hop
  | write =>
    rw [hk] at h
    obtain ⟨text, t, hop, rfl⟩ := edits_eq_ok h
    exact .write hk hop
  | nano =>
    rw [hk] at h
    obtain ⟨t, text, keys, hop, rfl⟩ := types_eq_ok h
    exact .nano hk hop
  | rm =>
    rw [hk] at h
    obtain ⟨text, t, hop, rfl⟩ := edits_eq_ok h
    exact .rm hk hop
  | chmod =>
    rw [hk] at h
    obtain ⟨text, t, hop, rfl⟩ := edits_eq_ok h
    exact .chmod hk hop
  | chown =>
    rw [hk] at h
    obtain ⟨text, t, hop, rfl⟩ := edits_eq_ok h
    exact .chown hk hop
  | sync =>
    rw [hk] at h
    cases h
    obtain ⟨hnodes, hdisk, hcwd⟩ := cmdSync_effect s
    rw [hnodes, hdisk, hcwd]
    exact .sync hk
  | disk =>
    rw [hk] at h
    cases h
    exact .disk hk
  | install =>
    rw [hk] at h
    exact .install hk h
  | «sudo» => exact absurd (commandOf_sudo_iff.mp hk) (by simp [hsudo])

/-- **What a line that ends can do.** -/
theorem shellDispatch_effect {argv : List CStr} {s s' : System} (h : shellDispatch argv s = .ok s') :
    ∃ uid, Effect s uid (effective argv) s'.nodes s'.disk s'.shellCwd := by
  induction argv generalizing s s' with
  | nil =>
    cases h
    exact ⟨s.shellUid, .still []⟩
  | cons name args ih =>
    cases hsudo : name.is "sudo" with
    | true =>
      simp only [shellDispatch] at h
      rw [commandOf_sudo_iff.mpr hsudo] at h
      rw [effective, if_pos hsudo]
      rcases cmdSudo_eq_ok h with ⟨_, text, rfl⟩ | ⟨s₁, h₁, rfl⟩
      · exact ⟨s.shellUid, .still _⟩
      · obtain ⟨uid, heffect⟩ := ih h₁
        exact ⟨uid, heffect.asUser⟩
    | false =>
      rw [effective, if_neg (by simp [hsudo])]
      exact ⟨s.shellUid, shellDispatch_effect_plain hsudo h⟩

/-! ### Commands that edit the table -/

/-- The node that `nano` edits, and the texts that its keys save there. -/
def nanoEdits (t : Nodes) (cwd : Int) (path : CStr) (keys : List UInt8) :
    Except Fault (Int × List (List UInt8)) := do
  let (_, t) ← fsTouch t cwd path
  let node ← fsResolve t cwd path
  match ← fsReadFile t cwd path with
  | none => return (node, [])
  | some (data, size) => return (node, saves (.ofData data size) false keys)

section Commands
variable {P : NodeId → Prop} {t t' : Nodes} {c : NodeId} {args : List CStr} {uid : UInt16} {text : Text}

theorem cmdMkdir_edits (h : cmdMkdir t (c.val : Int) args uid = .ok (text, t')) : Edits P t t' := by
  rcases cmdMkdir_eq_ok h with rfl | ⟨path, r, hop⟩
  · exact .refl t'
  · exact fsMkdirAs_edits P hop

theorem cmdTouch_edits (h : cmdTouch t (c.val : Int) args uid = .ok (text, t')) : Edits P t t' := by
  rcases cmdTouch_eq_ok h with rfl | ⟨path, r, hop⟩
  · exact .refl t'
  · exact fsTouchAs_edits P hop

theorem cmdWrite_edits (h : cmdWrite t (c.val : Int) args = .ok (text, t'))
    (hP : ∀ path word words (n : NodeId), args = path :: word :: words →
      writeTarget t (c.val : Int) path = .ok (n.val : Int) → P n) : Edits P t t' := by
  rcases cmdWrite_eq_ok h with rfl | ⟨path, word, words, r, hargs, hop⟩
  · exact .refl t'
  · exact fsWriteFile_edits hop fun n hn => hP path word words n hargs hn

theorem cmdRm_edits (h : cmdRm t (c.val : Int) args = .ok (text, t'))
    (hP : ∀ path rest (n : NodeId), args = path :: rest →
      fsResolve t (c.val : Int) path = .ok (n.val : Int) → P n) :
    Edits P t t' := by
  rcases cmdRm_eq_ok h with rfl | ⟨path, rest, r, hargs, hop⟩
  · exact .refl t'
  · exact fsRemove_edits hop fun n hn => hP path rest n hargs hn

/-- `nano` saves to the file that `fs_touch` leaves at its path, if there is one. -/
theorem cmdNano_edits {keys : List UInt8} {rest : Option (List UInt8)}
    (h : cmdNano t (c.val : Int) args keys = .ok (t', text, rest))
    (hP : ∀ path words (n : NodeId) texts, args = path :: words →
      nanoEdits t (c.val : Int) path keys = .ok ((n.val : Int), texts) → texts ≠ [] → P n) : Edits P t t' := by
  cases args with
  | nil =>
    cases h
    exact .refl t
  | cons path words =>
    have hstep := h
    obtain ⟨⟨status, t₁⟩, htouch, hstep⟩ := Foundation.bind_eq_ok.mp hstep
    have hmade : Edits P t t₁ := fsTouchAs_edits P htouch
    dsimp only at hstep
    split at hstep
    · cases hstep
      exact hmade
    rename_i hstatus
    obtain ⟨o, hread, hstep⟩ := Foundation.bind_eq_ok.mp hstep
    cases o with
    | none =>
      cases hstep
      exact hmade
    | some x =>
      obtain ⟨n, hres, hfile, hdata, hsize⟩ := fsReadFile_eq_some hread
      have hok : status = 0 := not_not.mp hstatus
      subst hok
      have hsaved : nanoEdits t (c.val : Int) path keys =
          .ok ((n.val : Int), saves (.ofData (t₁ n).data (t₁ n).size) false keys) := by
        unfold nanoEdits
        simp only [htouch, Foundation.ok_bind, hres, hread]
        rw [hdata, hsize]
        rfl
      obtain ⟨text', rest', hopened, _⟩ := cmdNano_opened htouch hres hfile words keys
      rw [h] at hopened
      cases hopened
      exact hmade.trans (saveAll_edits t₁ _ fun hne => hP path words n _ rfl hsaved hne)

theorem cmdChmod_edits (h : cmdChmod t (c.val : Int) args uid = .ok (text, t')) : Edits P t t' := by
  rcases cmdChmod_eq_ok h with rfl | ⟨node, mode, _, rfl⟩
  · exact .refl t'
  · exact fsSetMode_edits P t node mode

theorem cmdChown_edits (h : cmdChown t (c.val : Int) args uid = .ok (text, t')) : Edits P t t' := by
  rcases cmdChown_eq_ok h with rfl | ⟨node, owner, _, rfl⟩
  · exact .refl t'
  · exact fsSetOwner_edits P t node owner

/-- `cd` stays in the table. -/
theorem cmdCd_slot {cwd' : Int} (h : cmdCd t (c.val : Int) args uid = .ok (text, cwd')) :
    ∃ d : NodeId, cwd' = d.val := by
  cases args with
  | nil =>
    cases h
    exact ⟨0, rfl⟩
  | cons path _ =>
    obtain ⟨target, _, h⟩ := Foundation.bind_eq_ok.mp h
    split at h
    · cases h
      exact ⟨c, rfl⟩
    rename_i hdir
    split at h
    · cases h
      exact ⟨c, rfl⟩
    · cases h
      cases hn : usedNode t cwd' with
      | none => simp [fsIsDir, hn] at hdir
      | some d => exact ⟨d, (usedNode_eq_some.mp hn).1⟩

end Commands

/-! ### Lines that edit the table -/

/-- The line replaces the whole table: `install`, `disk load` or `disk format`. -/
def replacesTable : List CStr → Bool
  | [] => false
  | name :: args =>
    name.is "install" ||
      name.is "disk" && match args with
        | [] => false
        | sub :: _ => sub.is "load" || sub.is "format"

/-- The line fills or frees the slot `n`: it writes to it, edits and saves it, or removes it. -/
def Overwrites (t : Nodes) (cwd : Int) (keys : List UInt8) (argv : List CStr) (n : NodeId) : Prop :=
  match argv with
  | [] => False
  | name :: args =>
    match commandOf name, args with
    | .write, path :: _ :: _ => writeTarget t cwd path = .ok (n.val : Int)
    | .nano, path :: _ => ∃ texts, nanoEdits t cwd path keys = .ok ((n.val : Int), texts) ∧ texts ≠ []
    | .rm, path :: _ => fsResolve t cwd path = .ok (n.val : Int)
    | _, _ => False

/-- `disk` without `load` and `format` leaves the table and the directory alone. -/
theorem cmdDisk_kept (args : List CStr) (s : System)
    (h : ∀ sub rest, args = sub :: rest → sub.is "load" = false ∧ sub.is "format" = false) :
    (cmdDisk args s).nodes = s.nodes ∧ (cmdDisk args s).shellCwd = s.shellCwd := by
  cases args with
  | nil => exact ⟨rfl, rfl⟩
  | cons sub rest =>
    obtain ⟨hload, hformat⟩ := h sub rest rfl
    unfold cmdDisk
    dsimp only
    split
    · exact ⟨rfl, rfl⟩
    rw [if_neg (by simp [hload])]
    split
    · exact ⟨(cmdSync_effect s).1, (cmdSync_effect s).2.2⟩
    rw [if_neg (by simp [hformat])]
    exact ⟨rfl, rfl⟩

/-- **A line that does not replace the table edits it**, and fills and frees only what it leads to. -/
theorem Effect.edits {P : NodeId → Prop} {s : System} {uid : UInt16} {argv : List CStr} {t : Nodes} {d : Disk}
    {cwd : Int} (h : Effect s uid argv t d cwd) (hcwd : ∃ c : NodeId, s.shellCwd = c.val)
    (hno : replacesTable argv = false) (hP : ∀ n, Overwrites s.nodes s.shellCwd s.keys argv n → P n) :
    Edits P s.nodes t ∧ ∃ c : NodeId, cwd = c.val := by
  obtain ⟨c, hc⟩ := hcwd
  have hslot : ∃ c : NodeId, s.shellCwd = c.val := ⟨c, hc⟩
  unfold Overwrites at hP
  cases h with
  | still => exact ⟨.refl _, hslot⟩
  | cd hk hop =>
    rw [hc] at hop
    exact ⟨.refl _, cmdCd_slot hop⟩
  | mkdir hk hop =>
    rw [hc] at hop
    exact ⟨cmdMkdir_edits hop, hslot⟩
  | touch hk hop =>
    rw [hc] at hop
    exact ⟨cmdTouch_edits hop, hslot⟩
  | write hk hop =>
    rw [hc] at hop
    refine ⟨cmdWrite_edits hop fun path word words n hargs hn => hP n ?_, hslot⟩
    simp only [hk, hargs, hc]
    exact hn
  | nano hk hop =>
    rw [hc] at hop
    refine ⟨cmdNano_edits hop fun path words n texts hargs hn hne => hP n ?_, hslot⟩
    simp only [hk, hargs, hc]
    exact ⟨texts, hn, hne⟩
  | rm hk hop =>
    rw [hc] at hop
    refine ⟨cmdRm_edits hop fun path rest n hargs hn => hP n ?_, hslot⟩
    simp only [hk, hargs, hc]
    exact hn
  | chmod hk hop =>
    rw [hc] at hop
    exact ⟨cmdChmod_edits hop, hslot⟩
  | chown hk hop =>
    rw [hc] at hop
    exact ⟨cmdChown_edits hop, hslot⟩
  | sync hk => exact ⟨.refl _, hslot⟩
  | @disk name args hk =>
    have hkept := cmdDisk_kept args {s with shellUid := uid} fun sub rest hargs => by
      simpa [replacesTable, commandOf_disk_iff.mp hk, hargs] using (Bool.or_eq_false_iff.mp hno).2
    rw [hkept.1, hkept.2]
    exact ⟨.refl _, hslot⟩
  | install hk hop => simp [replacesTable, commandOf_install_iff.mp hk] at hno

/-- Such a line leaves the disk alone, or saves the table, which it then leaves alone. -/
theorem Effect.disk_kept {s : System} {uid : UInt16} {argv : List CStr} {t : Nodes} {d : Disk} {cwd : Int}
    (h : Effect s uid argv t d cwd) (hno : replacesTable argv = false) :
    d = s.disk ∨ t = s.nodes ∧ d = (diskSaveFs s.nodes s.disk).2 := by
  cases h with
  | sync hk => exact .inr ⟨rfl, rfl⟩
  | install hk hop => simp [replacesTable, commandOf_install_iff.mp hk] at hno
  | @disk name args hk =>
    cases args with
    | nil => exact .inl rfl
    | cons sub rest =>
      have hsub : sub.is "load" = false ∧ sub.is "format" = false := by
        simpa [replacesTable, commandOf_disk_iff.mp hk] using (Bool.or_eq_false_iff.mp hno).2
      unfold cmdDisk
      dsimp only
      split
      · exact .inl rfl
      rw [if_neg (by simp [hsub.1])]
      split
      · obtain ⟨hnodes, hdisk, _⟩ := cmdSync_effect {s with shellUid := uid}
        exact .inr ⟨hnodes, hdisk⟩
      rw [if_neg (by simp [hsub.2])]
      exact .inl rfl
  | _ => exact .inl rfl

/-! ### What no line breaks -/

theorem fsDeserialize_savable {t : Nodes} (ht : Savable t) {len : Nat} (inp : Fin len → UInt8) :
    Savable (fsDeserialize t inp).2 := by
  cases hr : readRecords inp with
  | none =>
    rw [fsDeserialize_unread hr]
    exact ht
  | some records =>
    by_cases hroot : RootRecord records
    · rw [fsDeserialize_accepted hr hroot]
      refine ⟨resetRoot_normal fun i => load_normal (records i), ?_, ?_⟩
      · show (resetRoot (fun i => (records i).load) 0).used = true
        rw [resetRoot_self]
        rfl
      · show (resetRoot (fun i => (records i).load) 0).isDir = true
        rw [resetRoot_self]
        rfl
    · rw [fsDeserialize_rootless hr hroot]
      exact fsInit_savable

theorem diskLoadFs_savable {t : Nodes} (ht : Savable t) (d : Disk) : Savable (diskLoadFs t d).2.1 := by
  by_cases hstored : ∃ (len : Nat) (image : Fin len → UInt8), StoredImage d image
  · obtain ⟨len, image, himage⟩ := hstored
    rw [(diskLoadFs_stored himage t).2]
    exact fsDeserialize_savable ht image
  · rw [(diskLoadFs_unstored hstored t).2]
    exact ht

theorem Edits.savable {P : NodeId → Prop} {t t' : Nodes} (h : Edits P t t') (ht : Savable t) : Savable t' := by
  obtain ⟨hu, hd⟩ := h.root ⟨ht.used, ht.dir⟩
  exact ⟨h.normal ht.normal, hu, hd⟩

/-- A load changes the root, and no file in it. -/
theorem Holds.resetRoot {t : Nodes} (ht : Savable t) {name bytes : List UInt8} {f : NodeId}
    (hname : name ≠ lit "/") (h : Holds t name bytes f) : Holds (resetRoot t) name bytes f := by
  have hf : f ≠ 0 := by
    intro heq
    subst heq
    have hfile := h.file
    rw [ht.dir] at hfile
    cases hfile
  have hroot : cstr (FurOS.resetRoot t 0).name = lit "/" := by
    rw [resetRoot_self]
    exact cstr_kstrcpy _ _ (by decide) (by decide)
  refine ⟨findChild_kept h.found ?_ fun j hj => ?_, ?_, ?_⟩
  · unfold Matches
    rw [resetRoot_other t hf]
    exact (findChild_eq_some_iff.mp h.found).1
  · by_cases h0 : j = 0
    · subst h0
      exact absurd (hj.2.2.symm.trans hroot) hname
    · unfold Matches at hj ⊢
      rwa [resetRoot_other t h0] at hj
  · rw [resetRoot_other t hf, h.file]
  · rw [resetRoot_other t hf, h.bytes]

section Seeding
variable {P : NodeId → Prop} {t t' : Nodes}

theorem makeDir_edits {c : NodeId} {path : String} {owner : UInt16}
    (h : makeDir t (c.val : Int) path owner = .ok t') : Edits P t t' := by
  obtain ⟨⟨r, t₁⟩, hop, h⟩ := Foundation.bind_eq_ok.mp h
  cases h
  exact fsMkdirAs_edits P hop

theorem writeText_edits {c : NodeId} {path text : String} (h : writeText t (c.val : Int) path text = .ok t') :
    Edits (fun _ => True) t t' := by
  obtain ⟨⟨r, t₁⟩, hop, h⟩ := Foundation.bind_eq_ok.mp h
  cases h
  exact fsWriteFile_edits hop fun _ _ => trivial

theorem makeDirs_edits {paths : List String} (h : makeDirs t paths = .ok t') : Edits P t t' := by
  induction paths generalizing t with
  | nil =>
    cases h
    exact .refl _
  | cons path rest ih =>
    obtain ⟨t₁, hdir, h⟩ := Foundation.bind_eq_ok.mp h
    have hmade : Edits P _ t₁ := makeDir_edits (c := 0) hdir
    exact hmade.trans (ih h)

theorem writeTexts_edits {texts : List (String × String)} (h : writeTexts t texts = .ok t') :
    Edits (fun _ => True) t t' := by
  induction texts generalizing t with
  | nil =>
    cases h
    exact .refl _
  | cons x rest ih =>
    obtain ⟨t₁, htext, h⟩ := Foundation.bind_eq_ok.mp h
    have hwritten : Edits (fun _ => True) _ t₁ := writeText_edits (c := 0) htext
    exact hwritten.trans (ih h)

/-- A path of one name is followed to a slot of the table, or nowhere. -/
theorem fsResolve_slot {cwd node : Int} {path : CStr} (hname : PlainName path.chars)
    (h : fsResolve t cwd path = .ok node) (h0 : node ≥ 0) : ∃ n : NodeId, node = n.val := by
  rw [fsResolve_name t cwd hname] at h
  have hnode := Except.ok.inj h
  cases hc : findChild t cwd path.chars with
  | none =>
    rw [hc, toC_none] at hnode
    omega
  | some n => exact ⟨n, by rw [← hnode, hc, toC_some]⟩

theorem plainName_home : PlainName (CStr.ofLit "home").chars := by
  constructor <;> decide

theorem plainName_debian : PlainName (CStr.ofLit "debian").chars := by
  constructor <;> decide

theorem installHome_edits (h : installHome t = .ok t') : Edits P t t' := by
  obtain ⟨home, hres, h⟩ := Foundation.bind_eq_ok.mp h
  split at h
  · rename_i h0
    obtain ⟨c, rfl⟩ := fsResolve_slot plainName_home hres h0
    exact makeDir_edits h
  · cases h
    exact .refl t

theorem seedHome_edits (h : seedHome t = .ok t') : Edits (fun _ => True) t t' := by
  obtain ⟨home, hres, h⟩ := Foundation.bind_eq_ok.mp h
  split at h
  · rename_i h0
    obtain ⟨c, rfl⟩ := fsResolve_slot plainName_home hres h0
    obtain ⟨t₁, hdir, h⟩ := Foundation.bind_eq_ok.mp h
    obtain ⟨deb, hdeb, h⟩ := Foundation.bind_eq_ok.mp h
    have hmade := makeDir_edits (P := fun _ => True) hdir
    split at h
    · rename_i h1
      obtain ⟨d, rfl⟩ := fsResolve_slot plainName_debian hdeb h1
      exact hmade.trans (writeText_edits h)
    · cases h
      exact hmade
  · cases h
    exact .refl t

theorem installFilesystem_edits (h : installFilesystem t = .ok t') : Edits (fun _ => True) t t' := by
  obtain ⟨t₁, hdirs, h⟩ := Foundation.bind_eq_ok.mp h
  obtain ⟨t₂, hhome, h⟩ := Foundation.bind_eq_ok.mp h
  exact ((makeDirs_edits hdirs).trans (installHome_edits hhome)).trans (writeTexts_edits h)

theorem shellSeedFilesystem_edits (h : shellSeedFilesystem t = .ok t') : Edits (fun _ => True) t t' := by
  obtain ⟨t₁, hdirs, h⟩ := Foundation.bind_eq_ok.mp h
  obtain ⟨t₂, hhome, h⟩ := Foundation.bind_eq_ok.mp h
  exact ((makeDirs_edits hdirs).trans (seedHome_edits hhome)).trans (writeTexts_edits h)

end Seeding

/-- What every line leaves as it has to be: the drive with its outcomes to come, the selected disk, a table
that can be saved, and a directory inside the table. -/
structure Kept (t₀ : Nodes) (d₀ : Disk) (cwd₀ : Int) (t : Nodes) (d : Disk) (cwd : Int) : Prop where
  steady : Steady d₀ d
  savable : Savable t₀ → Savable t
  slot : (∃ c : NodeId, cwd₀ = c.val) → ∃ c : NodeId, cwd = c.val

theorem Kept.refl (t : Nodes) (d : Disk) (cwd : Int) : Kept t d cwd t d cwd := ⟨.refl d, id, id⟩

theorem cmdDisk_keeps (args : List CStr) (s : System) :
    Kept s.nodes s.disk s.shellCwd (cmdDisk args s).nodes (cmdDisk args s).disk (cmdDisk args s).shellCwd := by
  cases args with
  | nil => exact .refl _ _ _
  | cons sub rest =>
    unfold cmdDisk
    dsimp only
    split
    · exact .refl _ _ _
    split
    · have hload : Savable s.nodes → Savable (diskLoadFs s.nodes s.disk).2.1 := fun h => diskLoadFs_savable h s.disk
      have hsteady := diskLoadFs_steady s.nodes s.disk
      unfold diskLoad
      dsimp only
      split
      · exact ⟨hsteady, hload, id⟩
      · exact ⟨hsteady, hload, fun _ => ⟨0, rfl⟩⟩
    split
    · obtain ⟨hnodes, hdisk, hcwd⟩ := cmdSync_effect s
      rw [hnodes, hdisk, hcwd]
      exact ⟨diskSaveFs_steady _ _, id, id⟩
    split
    · have hformat : Savable s.nodes → Savable (diskFormatFs s.disk).2.1 := fun _ => by
        rw [diskFormatFs_nodes]
        exact fsInit_savable
      have hsteady := diskFormatFs_steady s.disk
      unfold diskFormat
      dsimp only
      split
      · exact ⟨hsteady, hformat, id⟩
      · exact ⟨hsteady, hformat, fun _ => ⟨0, rfl⟩⟩
    · exact .refl _ _ _

theorem installFiles_keeps {s s' : System} (h : installFiles s = .ok s') :
    Kept s.nodes s.disk s.shellCwd s'.nodes s'.disk s'.shellCwd := by
  unfold installFiles at h
  cases ht : installFilesystem s.nodes with
  | error f =>
    rw [ht] at h
    cases h
  | ok t =>
    have hsavable : Savable s.nodes → Savable t := (installFilesystem_edits ht).savable
    have hsteady := diskSaveFs_steady t s.disk
    rw [ht] at h
    dsimp only at h
    split at h
    · cases h
      exact ⟨hsteady, hsavable, id⟩
    · cases h
      exact ⟨hsteady, hsavable, fun _ => ⟨0, rfl⟩⟩

theorem cmdInstall_keeps {s s' : System} (h : cmdInstall s = .ok s') :
    Kept s.nodes s.disk s.shellCwd s'.nodes s'.disk s'.shellCwd := by
  have hnodes := diskFormatFs_nodes s.disk
  have hsteady := diskFormatFs_steady s.disk
  have hformat : Savable (diskFormatFs s.disk).2.1 := by
    rw [hnodes]
    exact fsInit_savable
  unfold cmdInstall at h
  dsimp only at h
  split at h
  · cases h
    exact .refl _ _ _
  split at h
  · cases h
    exact ⟨hsteady, fun _ => hformat, id⟩
  · have hkept := installFiles_keeps h
    exact ⟨hsteady.trans hkept.steady, fun _ => hkept.savable hformat, hkept.slot⟩

theorem commandOf_of_replaces {name : CStr} {args : List CStr} (h : replacesTable (name :: args) = true) :
    commandOf name = .install ∨ commandOf name = .disk := by
  simp only [replacesTable, Bool.or_eq_true, Bool.and_eq_true] at h
  exact h.imp commandOf_install_iff.mpr fun h => commandOf_disk_iff.mpr h.1

/-- **No line breaks these**, whatever it does. -/
theorem Effect.keeps {s : System} {uid : UInt16} {argv : List CStr} {t : Nodes} {d : Disk} {cwd : Int}
    (h : Effect s uid argv t d cwd) (hslot : ∃ c : NodeId, s.shellCwd = c.val) :
    Kept s.nodes s.disk s.shellCwd t d cwd := by
  cases hrep : replacesTable argv with
  | false =>
    obtain ⟨hedits, hcwd⟩ := h.edits (P := fun _ => True) hslot hrep fun _ _ => trivial
    refine ⟨?_, hedits.savable, fun _ => hcwd⟩
    cases h with
    | sync hk => exact diskSaveFs_steady _ _
    | @disk _ args _ => exact (cmdDisk_keeps args {s with shellUid := uid}).steady
    | install hk hop => exact (cmdInstall_keeps (s := {s with shellUid := uid}) hop).steady
    | _ => exact .refl _
  | true =>
    cases h with
    | still => exact .refl _ _ _
    | @disk _ args _ => exact cmdDisk_keeps args {s with shellUid := uid}
    | install hk hop => exact cmdInstall_keeps (s := {s with shellUid := uid}) hop
    | cd hk _ | mkdir hk _ | touch hk _ | write hk _ | nano hk _ | rm hk _ | chmod hk _ | chown hk _ | sync hk =>
      rcases commandOf_of_replaces hrep with hother | hother
      · rw [hk] at hother
        cases hother
      · rw [hk] at hother
        cases hother

/-! ### Start-up on any disk -/

theorem plainName_etc : PlainName (lit "etc") := by
  constructor <;> decide

theorem plainName_motd : PlainName (lit "motd") := by
  constructor <;> decide

/-- The message of the day is read from any table whose data end inside their arrays. -/
theorem shellMotd_normal {t : Nodes} (hn : ∀ i, Normal (t i)) : ∃ text, shellMotd t = .ok text := by
  have hpath : (CStr.ofLit "etc/motd").chars = lit "etc" ++ lit "/" ++ lit "motd" := by decide
  have hread := fsReadFile_found (fsResolve_names t fsGetRoot hpath plainName_etc plainName_motd)
  unfold shellMotd
  rw [hread, Foundation.ok_bind]
  cases hc : (findChild t fsGetRoot (lit "etc")).bind fun i => findChild t i.val (lit "motd") with
  | none => exact ⟨[], rfl⟩
  | some n =>
    have hc := hn n
    have hend := Foundation.Buffer.text_length_le_of_eq 0 (t n).data _ hc.data
    have hstr : readStr (t n).data = .ok (cstr (t n).data) := if_pos (Nat.lt_of_le_of_lt hend hc.size)
    rw [Option.bind_some]
    cases (t n).isDir with
    | true => exact ⟨[], rfl⟩
    | false =>
      rw [if_neg (by decide)]
      dsimp only
      split
      · exact ⟨[], rfl⟩
      · rw [hstr]
        exact ⟨_, rfl⟩

/-- What start-up takes over: the filesystem of the disk where it loads, and a new one where none does. -/
def Starts (d : Disk) (t : Nodes) : Prop :=
  (diskLoadFs fsInit d).1 = 0 ∧ t = (diskLoadFs fsInit d).2.1 ∨
    (diskLoadFs fsInit d).1 ≠ 0 ∧ shellSeedFilesystem fsInit = .ok t

theorem Starts.savable {d : Disk} {t : Nodes} (h : Starts d t) : Savable t := by
  rcases h with ⟨_, rfl⟩ | ⟨_, hseed⟩
  · exact diskLoadFs_savable fsInit_savable d
  · exact (shellSeedFilesystem_edits hseed).savable fsInit_savable

/-- A disk that is not selected loads nothing. -/
theorem diskLoadFs_unselected {d : Disk} (h : diskAvailable d = false) (t : Nodes) : (diskLoadFs t d).1 ≠ 0 := by
  unfold diskLoadFs
  rw [if_pos (by simp [h])]
  simp

theorem seedLive_fsInit {s : System} (h : s.nodes = fsInit) : ∃ t text, shellSeedFilesystem fsInit = .ok t ∧
    seedLive s = .ok ({s with nodes := t}.print text) := by
  obtain ⟨t, ht, _⟩ := shellSeedFilesystem_ok
  unfold seedLive System.edits
  rw [h, ht]
  exact ⟨t, _, rfl, rfl⟩

/-- **Start-up ends on any disk**, at the root of a table that can be saved. -/
theorem shellStart_starts (s : System) (scan : Scan) : ∃ s₀, shellStart s scan = .ok s₀ ∧
    Starts (diskInit scan s.disk) s₀.nodes ∧ s₀.shellCwd = fsGetRoot := by
  have hload : ∃ s₁,
      loadOrSeed {s with nodes := fsInit, disk := diskInit scan s.disk, shellExit := false} = .ok s₁ ∧
      Starts (diskInit scan s.disk) s₁.nodes := by
    unfold loadOrSeed
    dsimp only
    split
    · rename_i hno
      obtain ⟨t, text, hseed, h⟩ := seedLive_fsInit
        (s := {s with nodes := fsInit, disk := diskInit scan s.disk, shellExit := false}) rfl
      exact ⟨_, h, .inr ⟨diskLoadFs_unselected (by simpa using hno) fsInit, hseed⟩⟩
    · by_cases hstatus : (diskLoadFs fsInit (diskInit scan s.disk)).1 = 0
      · rw [if_pos hstatus]
        exact ⟨_, rfl, .inl ⟨hstatus, rfl⟩⟩
      · rw [if_neg hstatus]
        have hempty := diskLoadFs_fsInit hstatus
        obtain ⟨t, text, hseed, h⟩ := seedLive_fsInit
          (s := {s with
            nodes := (diskLoadFs fsInit (diskInit scan s.disk)).2.1
            disk := (diskLoadFs fsInit (diskInit scan s.disk)).2.2
            shellExit := false}) hempty
        exact ⟨_, h, .inr ⟨hstatus, hseed⟩⟩
  obtain ⟨s₁, h₁, hstarts⟩ := hload
  obtain ⟨motd, hmotd⟩ := shellMotd_normal hstarts.savable.normal
  unfold shellStart
  rw [h₁, Foundation.ok_bind]
  dsimp only
  rw [hmotd]
  exact ⟨_, rfl, hstarts, rfl⟩

end FurOS
