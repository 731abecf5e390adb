import FurOS.Shell.Effects
import FurOS.Shell.Faults

/-! What a command line can do to the user, and to owners and modes.

`sudo` gives the user back however deep it is nested. Without `sudo`, `disk` and
`install`, a user other than root changes the mode of no node but their own, and no
owner at all: creating and writing leave every used node its shape, removing frees a
slot, and `chmod` asks for the owner. None of this needs the table to be in order. -/
namespace FurOS

/-- Every node used before and after has its owner, and its mode unless `u` owned it. -/
structure MetadataKept (u : UInt16) (t t' : Nodes) : Prop where
  owner : ∀ i, (t i).used = true → (t' i).used = true → (t' i).owner = (t i).owner
  mode : ∀ i, (t i).used = true → (t' i).used = true → (t i).owner ≠ u → (t' i).mode = (t i).mode

theorem MetadataKept.refl (u : UInt16) (t : Nodes) : MetadataKept u t t :=
  ⟨fun _ _ _ => rfl, fun _ _ _ _ => rfl⟩

theorem Extends.metadataKept {t t' : Nodes} (h : Extends t t') (u : UInt16) : MetadataKept u t t' :=
  ⟨fun i hi _ => FsNode.shape_field FsNode.owner (fun _ => rfl) (h i hi),
    fun i hi _ _ => FsNode.shape_field FsNode.mode (fun _ => rfl) (h i hi)⟩

/-! ### Commands that create or write -/

section Growing
variable {t t' : Nodes} {cwd : Int} {args : List CStr} {uid : UInt16} {text : Text}

theorem cmdMkdir_extends (h : cmdMkdir t cwd args uid = .ok (text, t')) : Extends t t' := by
  rcases cmdMkdir_eq_ok h with rfl | ⟨path, r, hop⟩
  · exact .refl t'
  · exact fsMkdirAs_extends hop

theorem cmdTouch_extends (h : cmdTouch t cwd args uid = .ok (text, t')) : Extends t t' := by
  rcases cmdTouch_eq_ok h with rfl | ⟨path, r, hop⟩
  · exact .refl t'
  · exact fsTouchAs_extends hop

theorem cmdWrite_extends (h : cmdWrite t cwd args = .ok (text, t')) : Extends t t' := by
  rcases cmdWrite_eq_ok h with rfl | ⟨path, word, words, r, _, hop⟩
  · exact .refl t'
  · exact fsWriteFile_extends hop

theorem nanoLoop_extends {path : CStr} {buffer : NanoBuffer} {dirty : Bool} {keys : List UInt8}
    {rest : Option (List UInt8)} (h : nanoLoop t cwd path buffer dirty keys = .ok (t', text, rest)) :
    Extends t t' := by
  induction keys generalizing t buffer dirty text with
  | nil =>
    cases h
    exact .refl _
  | cons c keys ih =>
    rw [nanoLoop] at h
    split at h
    · obtain ⟨⟨_, t₁⟩, hsave, h⟩ := Foundation.bind_eq_ok.mp h
      obtain ⟨⟨t₂, _, _⟩, hloop, h⟩ := Foundation.bind_eq_ok.mp h
      cases h
      exact (fsWriteFile_extends hsave).trans (ih hloop)
    split at h
    · split at h
      · obtain ⟨⟨_, t₁⟩, hsave, h⟩ := Foundation.bind_eq_ok.mp h
        cases h
        exact fsWriteFile_extends hsave
      · cases h
        exact .refl _
    · split at h
      · exact ih h
      · obtain ⟨⟨t₁, _, _⟩, hloop, h⟩ := Foundation.bind_eq_ok.mp h
        cases h
        exact ih hloop

theorem cmdNano_extends {keys : List UInt8} {rest : Option (List UInt8)}
    (h : cmdNano t cwd args keys = .ok (t', text, rest)) : Extends t t' := by
  cases args with
  | nil =>
    cases h
    exact .refl t
  | cons path _ =>
    obtain ⟨⟨status, t₁⟩, htouch, h⟩ := Foundation.bind_eq_ok.mp h
    have hext := fsTouchAs_extends htouch
    dsimp only at h
    split at h
    · cases h
      exact hext
    obtain ⟨o, _, h⟩ := Foundation.bind_eq_ok.mp h
    cases o with
    | none =>
      cases h
      exact hext
    | some _ =>
      obtain ⟨buffer, _, h⟩ := Foundation.bind_eq_ok.mp h
      obtain ⟨⟨t₂, _, _⟩, hloop, h⟩ := Foundation.bind_eq_ok.mp h
      cases h
      exact hext.trans (nanoLoop_extends hloop)

end Growing

/-! ### Commands that free a slot or set a field -/

section Setting
variable {t t' : Nodes} {cwd : Int} {args : List CStr} {text : Text}

theorem fsRemove_metadataKept {path : CStr} {r : Int} (h : fsRemove t cwd path = .ok (r, t')) (u : UInt16) :
    MetadataKept u t t' := by
  obtain ⟨node, _, h⟩ := Foundation.bind_eq_ok.mp h
  split at h
  · cases h
    exact .refl u t
  obtain ⟨n, _, h⟩ := Foundation.bind_eq_ok.mp h
  split at h
  · cases h
    exact .refl u t
  · cases h
    exact ⟨fun i _ _ => update_field (t := t) (m := {t n with used := false}) FsNode.owner rfl i,
      fun i _ _ _ => update_field (t := t) (m := {t n with used := false}) FsNode.mode rfl i⟩

theorem cmdRm_metadataKept (h : cmdRm t cwd args = .ok (text, t')) (u : UInt16) : MetadataKept u t t' := by
  rcases cmdRm_eq_ok h with rfl | ⟨path, rest, r, _, hop⟩
  · exact .refl u t'
  · exact fsRemove_metadataKept hop u

/-- `fs_set_mode` on a node that `u` owns. -/
theorem fsSetMode_metadataKept {node : Int} {mode u : UInt16}
    (h : ∀ n, usedNode t node = some n → (t n).owner = u) : MetadataKept u t (fsSetMode t node mode).2 := by
  unfold fsSetMode
  cases hn : usedNode t node with
  | none => exact .refl u t
  | some n =>
    refine ⟨fun i _ _ => update_field (t := t) (m := {t n with mode := mode &&& 0o777}) FsNode.owner rfl i,
      fun i _ _ hne => ?_⟩
    have hin : i ≠ n := by
      intro heq
      subst heq
      exact hne (h i hn)
    show (Function.update t n _ i).mode = (t i).mode
    rw [Function.update_of_ne hin]

theorem ofInt_toNat (x : UInt16) : UInt16.ofInt (x.toNat : Int) = x := by
  have hx := x.toNat_lt
  have hmod : ((x.toNat : Int) % 2 ^ 16).toNat = x.toNat := by omega
  rw [UInt16.ofInt, hmod, UInt16.ofNat_toNat]

/-- `chmod` by a user other than root reaches the user's own nodes only. -/
theorem cmdChmod_metadataKept {uid : UInt16} (h0 : uid ≠ 0)
    (h : cmdChmod t cwd args uid = .ok (text, t')) : MetadataKept uid t t' := by
  rcases cmdChmod_eq_ok h with rfl | ⟨node, mode, howner, rfl⟩
  · exact .refl uid t'
  refine fsSetMode_metadataKept fun n hn => ?_
  have hget : UInt16.ofInt (fsGetOwner t node) = (t n).owner := by
    rw [fsGetOwner, hn]
    exact ofInt_toNat _
  by_contra hne
  exact howner ⟨h0, by rwa [hget]⟩

/-- `chown` is root's. -/
theorem cmdChown_eq {uid : UInt16} (h0 : uid ≠ 0) (h : cmdChown t cwd args uid = .ok (text, t')) : t' = t := by
  rcases cmdChown_eq_ok h with heq | ⟨node, owner, hroot, _⟩
  · exact heq
  · have hne : uid ≠ shellUidRoot := h0
    rw [requireRoot, if_pos hne] at hroot
    cases hroot

end Setting

/-! ### Command lines -/

/-- **Every line that ends gives the user back.** -/
theorem shellDispatch_shellUid {argv : List CStr} {s s' : System} (h : shellDispatch argv s = .ok s') :
    s'.shellUid = s.shellUid := by
  cases argv with
  | nil =>
    cases h
    rfl
  | cons name args =>
    simp only [shellDispatch] at h
    cases hk : commandOf name with
    | help | clear | whoami | id | logout | apt | networkmanager | nmcli | ifconfig | unknown =>
      rw [hk] at h
      cases h
      rfl
    | pwd | ls | cat =>
      rw [hk] at h
      obtain ⟨text, _, rfl⟩ := shows_eq_ok h
      rfl
    | cd =>
      rw [hk] at h
      obtain ⟨text, cwd, _, rfl⟩ := moves_eq_ok h
      rfl
    | mkdir | touch | write | rm | chmod | chown =>
      rw [hk] at h
      obtain ⟨text, t, _, rfl⟩ := edits_eq_ok h
      rfl
    | nano =>
      rw [hk] at h
      obtain ⟨t, text, keys, _, rfl⟩ := types_eq_ok h
      rfl
    | «sudo» =>
      rw [hk] at h
      rcases cmdSudo_eq_ok h with ⟨_, text, rfl⟩ | ⟨s₁, _, rfl⟩
      · rfl
      · rfl
    | install =>
      rw [hk] at h
      exact cmdInstall_shellUid h
    | disk =>
      rw [hk] at h
      cases h
      exact cmdDisk_shellUid args s
    | sync =>
      rw [hk] at h
      cases h
      obtain ⟨disk, text, heq⟩ := cmdSync_eq s
      rw [heq]
      rfl

/-- What the words of a user other than root do to owners, and to modes of others. -/
theorem Effect.metadataKept {s : System} {uid : UInt16} {argv : List CStr} {t : Nodes} {d : Disk} {cwd : Int}
    (h : Effect s uid argv t d cwd) (h0 : uid ≠ 0) (hpriv : privileged argv = false) :
    MetadataKept uid s.nodes t := by
  cases h with
  | still | cd _ _ | sync _ => exact .refl _ _
  | mkdir _ hop => exact (cmdMkdir_extends hop).metadataKept _
  | touch _ hop => exact (cmdTouch_extends hop).metadataKept _
  | write _ hop => exact (cmdWrite_extends hop).metadataKept _
  | nano _ hop => exact (cmdNano_extends hop).metadataKept _
  | rm _ hop => exact cmdRm_metadataKept hop _
  | chmod _ hop => exact cmdChmod_metadataKept h0 hop
  | chown _ hop =>
    rw [cmdChown_eq h0 hop]
    exact .refl _ _
  | disk hk =>
    rw [privileged_of_commandOf (.inr (.inl hk))] at hpriv
    cases hpriv
  | install hk _ =>
    rw [privileged_of_commandOf (.inr (.inr hk))] at hpriv
    cases hpriv

/-- A line of a user other than root that is not privileged keeps owners, and modes of others. -/
theorem shellDispatch_metadataKept {argv : List CStr} {s s' : System} (h : shellDispatch argv s = .ok s')
    (h0 : s.shellUid ≠ 0) (hpriv : privileged argv = false) :
    MetadataKept s.shellUid s.nodes s'.nodes := by
  cases argv with
  | nil =>
    cases h
    exact .refl _ _
  | cons name args => exact (shellDispatch_effect_plain (not_sudo_of_privileged hpriv) h).metadataKept h0 hpriv

/-- **Privilege is contained.** A line that ends gives the user back, and without `sudo`, `disk` and
`install` a user other than root changes no owner and no mode but of their own nodes. A line that
does not end waits in the editor for Ctrl+X, or has left an array by a number that was out of
bounds before. -/
theorem shellDispatch_contained (argv : List CStr) (s : System) :
    (∀ s', shellDispatch argv s = .ok s' → s'.shellUid = s.shellUid ∧
      (s.shellUid ≠ 0 → privileged argv = false → MetadataKept s.shellUid s.nodes s'.nodes)) ∧
    (∀ s', shellDispatch argv s = .error (.waiting s') →
      (∃ name args, effective argv = name :: args ∧ commandOf name = .nano) ∧ keyExit ∉ s.keys) ∧
    ∀ f, shellDispatch argv s = .error (.fault f) → ∀ P, Bounded s.nodes P → ¬ P s.shellCwd :=
  ⟨fun _ h => ⟨shellDispatch_shellUid h, shellDispatch_metadataKept h⟩, fun _ => shellDispatch_waits,
    fun f h _ hP hcwd => shellDispatch_ne_fault hP hcwd f h⟩

/-! ### Lines that do not end -/

/-- The user `debian` at the root of the first filesystem, who presses no key. -/
def silentShell : System := {firstSession blankDisk [] with nodes := fsInit, shellUid := shellUidDebian}

/-- The editor has come up and waits. -/
def editorWaits (x : Except Fault (Nodes × Text × Option (List UInt8))) : Bool :=
  match x with
  | .ok (_, _, none) => true
  | _ => false

theorem types_waits {s : System} {x : Except Fault (Nodes × Text × Option (List UInt8))} (h : editorWaits x = true) :
    ∃ s', s.types x = .error (.waiting s') ∧ s'.shellUid = s.shellUid := by
  unfold editorWaits at h
  split at h
  · exact ⟨_, rfl, rfl⟩
  · cases h

theorem silent_nano : editorWaits (cmdNano fsInit 0 [.ofLit "a"] []) = true := by decide +kernel

/-- A line need not end: the editor waits, with `sudo` as root, and a current directory outside the table is an index
like any other. -/
theorem shellDispatch_not_contained :
    (∃ s', shellDispatch [.ofLit "nano", .ofLit "a"] silentShell = .error (.waiting s')) ∧
    (∃ s', shellDispatch [.ofLit "sudo", .ofLit "nano", .ofLit "a"] silentShell = .error (.waiting s') ∧
      s'.shellUid ≠ silentShell.shellUid) ∧
    shellDispatch [.ofLit "cd", .ofLit ".."] {silentShell with shellCwd := 200} = .error (.fault (.nodes 200)) := by
  have hnano : commandOf (.ofLit "nano") = .nano := by decide
  have hsudo : commandOf (.ofLit "sudo") = .sudo := by decide
  have hcd : commandOf (.ofLit "cd") = .cd := by decide
  have hline (s : System) (hnodes : s.nodes = fsInit) (hcwd : s.shellCwd = 0) (hkeys : s.keys = []) :
      ∃ s', shellDispatch [.ofLit "nano", .ofLit "a"] s = .error (.waiting s') ∧ s'.shellUid = s.shellUid := by
    rw [shellDispatch, hnano]
    dsimp only
    rw [hnodes, hcwd, hkeys]
    exact types_waits silent_nano
  obtain ⟨s₁, h₁, -⟩ := hline silentShell rfl rfl rfl
  obtain ⟨s₂, h₂, hroot⟩ := hline {silentShell with shellUid := shellUidRoot} rfl rfl rfl
  refine ⟨⟨s₁, h₁⟩, ⟨s₂, ?_, ?_⟩, ?_⟩
  · rw [shellDispatch, hsudo]
    dsimp only
    rw [cmdSudo, if_neg (by simp), h₂]
    rfl
  · rw [hroot]
    decide
  · rw [shellDispatch, hcd]
    have hfault : cmdCd fsInit 200 [.ofLit ".."] shellUidDebian = .error (.nodes 200) := by
      rfl
    show System.moves _ (cmdCd fsInit 200 [.ofLit ".."] shellUidDebian) = _
    rw [hfault]
    rfl

end FurOS
