import FurOS.Fs.Contract
import FurOS.Shell.Effects
import FurOS.Shell.Faults

/-! Who owns a new node.

`mkdir` and `touch` give the nodes they make to the user. `write` and `nano` make the file they
are asked to fill through `fs_touch`, which gives it to root (`newNodes_owned_iff`). -/
namespace FurOS

/-! ### What a line leaves -/

/-- The line has run, or waits in the editor for the next key. -/
def Leaves (argv : List CStr) (s s' : System) : Prop :=
  shellDispatch argv s = .ok s' ∨ shellDispatch argv s = .error (.waiting s')

theorem Leaves.effect {argv : List CStr} {s s' : System} (h : Leaves argv s s')
    (hpriv : privileged argv = false) :
    Effect s s.shellUid argv s'.nodes s'.disk s'.shellCwd := by
  cases argv with
  | nil =>
    rcases h with h | h
    · cases h
      exact .still []
    · cases h
  | cons name args =>
    have hsudo := not_sudo_of_privileged hpriv
    rcases h with h | h
    · exact shellDispatch_effect_plain hsudo h
    · obtain ⟨⟨_, _, heff, hk⟩, _⟩ := shellDispatch_waits h
      rw [effective, if_neg (by simp [hsudo])] at heff
      cases heff
      rw [shellDispatch, hk] at h
      cases hx : cmdNano s.nodes s.shellCwd args s.keys with
      | error f =>
        simp only [hx] at h
        cases h
      | ok x =>
        obtain ⟨t, text, _ | keys⟩ := x
        · simp only [hx] at h
          cases h
          exact .nano hk hx
        · simp only [hx] at h
          cases h

/-! ### New nodes -/

/-- Every node that is new in `t'` is this user's. -/
def NewOwned (uid : UInt16) (t t' : Nodes) : Prop :=
  ∀ i, (t i).used = false → (t' i).used = true → (t' i).owner = uid

theorem NewOwned.of_used {uid : UInt16} {t t' : Nodes} (h : ∀ i, (t' i).used = true → (t i).used = true) :
    NewOwned uid t t' := by
  intro i hold hnew
  rw [h i hnew] at hold
  cases hold

theorem Created.newOwned_iff {t t' : Nodes} {n p : NodeId} {leaf : Name} {dir : Bool} {owner mode : UInt16}
    (h : Created t t' n p leaf dir owner mode) (uid : UInt16) : NewOwned uid t t' ↔ owner = uid := by
  constructor
  · intro hall
    rw [← h.owner]
    exact hall n h.free h.used
  · rintro rfl i hold hnew
    rcases (h.used_iff i).mp hnew with hused | rfl
    · rw [hused] at hold
      cases hold
    · exact h.owner

theorem Creation.newOwned {t t' : Nodes} {c : NodeId} {path : CStr} {dir : Bool} {owner mode : UInt16} {r : Int}
    (h : Creation t c path dir owner mode r t') : NewOwned owner t t' := by
  cases h with
  | failed => exact .of_used fun _ hi => hi
  | found => exact .of_used fun _ hi => hi
  | created _ _ _ _ hcr => exact (hcr.newOwned_iff owner).mpr rfl

/-- `fs_touch` finds a directory to make the file in, no node called so, and a slot. -/
def CreatesFile (t : Nodes) (cwd : Int) (path : CStr) : Prop :=
  ∃ p leaf, resolveParentAndLeaf t cwd path = .ok (some (p, leaf)) ∧ findChild t p leaf.chars = none ∧
    allocNode t ≠ none

/-- What `fs_touch` leaves: it makes a file exactly where it can. -/
theorem Creation.newOwned_iff {t t' : Nodes} {c : NodeId} {path : CStr} {owner mode : UInt16} {r : Int}
    (h : Creation t c path false owner mode r t') (uid : UInt16) :
    NewOwned uid t t' ↔ owner = uid ∨ ¬ CreatesFile t (c.val : Int) path := by
  cases h with
  | failed hwhy =>
    refine iff_of_true (.of_used fun _ hi => hi) (.inr ?_)
    intro hs
    obtain ⟨p, leaf, hres, hfree, hslot⟩ := hs
    rcases hwhy p leaf hres with ⟨e, he, _⟩ | ⟨_, hfull⟩
    · rw [hfree] at he
      cases he
    · exact hslot hfull
  | found _ hres he _ =>
    refine iff_of_true (.of_used fun _ hi => hi) (.inr ?_)
    intro hs
    obtain ⟨p, leaf, hres', hfree, _⟩ := hs
    rw [hres] at hres'
    cases hres'
    rw [hfree] at he
    cases he
  | created _ hres hf hslot hcr =>
    have hnew : CreatesFile t (c.val : Int) path := ⟨_, _, hres, hf, hslot⟩
    rw [hcr.newOwned_iff]
    exact ⟨.inl, fun h => h.resolve_right fun hno => hno hnew⟩

/-- New bytes in a file make nobody else its owner. -/
theorem SameBut.newOwned_iff {t t₁ t' : Nodes} {e : NodeId} (h : SameBut e t₁ t') (uid : UInt16) :
    NewOwned uid t t' ↔ NewOwned uid t t₁ := by
  have howner : ∀ i, (t' i).owner = (t₁ i).owner := h.field FsNode.owner fun _ => rfl
  unfold NewOwned
  simp only [h.used, howner]

/-- What `fs_write_file` leaves: it makes a file where the path leads nowhere. -/
theorem Writing.newOwned_iff {t t' : Nodes} {c : NodeId} {path : CStr} {bytes : List UInt8} {r : Int}
    (h : Writing t c path bytes r t') (uid : UInt16) :
    NewOwned uid t t' ↔ 0 = uid ∨ ¬ (CreatesFile t (c.val : Int) path ∧ resolve t c path.chars = none) := by
  cases h with
  | directory hres _ =>
    refine iff_of_true (.of_used fun _ hi => hi) (.inr fun hnew => ?_)
    rw [hres] at hnew
    cases hnew.2
  | failed _ hwhy =>
    refine iff_of_true (.of_used fun _ hi => hi) (.inr ?_)
    intro hs
    obtain ⟨⟨p, leaf, hres, hfree, hslot⟩, _⟩ := hs
    exact hslot (hwhy p leaf hres hfree)
  | @filled n hres _ _ =>
    have hsame : SameBut n t (Function.update t n (fillNode (t n) bytes)) := .update_self rfl
    rw [hsame.newOwned_iff]
    refine iff_of_true (.of_used fun _ hi => hi) (.inr fun hnew => ?_)
    rw [hres] at hnew
    cases hnew.2
  | @created n p leaf t₁ hnone _ hres hf hslot hcr =>
    have hsame : SameBut n t₁ (Function.update t₁ n (fillNode (t₁ n) bytes)) := .update_self rfl
    have hnew : CreatesFile t (c.val : Int) path := ⟨_, _, hres, hf, hslot⟩
    rw [hsame.newOwned_iff, hcr.newOwned_iff]
    exact ⟨.inl, fun h => h.resolve_right fun hno => hno ⟨hnew, hnone⟩⟩

/-- What `nano` leaves: it makes a file wherever `fs_touch` can. -/
theorem Editing.newOwned_iff {t t' : Nodes} {c : NodeId} {path : CStr} {keys : List UInt8}
    {rest : Option (List UInt8)} (h : Editing t c path keys t' rest) (uid : UInt16) :
    NewOwned uid t t' ↔ 0 = uid ∨ ¬ CreatesFile t (c.val : Int) path := by
  cases h with
  | unopened hcr _ => exact hcr.newOwned_iff uid
  | opened hcr _ _ hfill _ => rw [hfill.newOwned_iff, hcr.newOwned_iff]

/-! ### One line -/

/-- The line is a `write` with a text or a `nano`, and the file has to be made first. -/
def FillsNewFile (s : System) : List CStr → Prop
  | name :: path :: rest => CreatesFile s.nodes s.shellCwd path ∧ (name.is "nano" = true ∨
      name.is "write" = true ∧ rest ≠ [] ∧ fsResolve s.nodes s.shellCwd path = .ok (-1))
  | _ => False

/-- Every node that the line makes is the user's. -/
def OwnsNew (argv : List CStr) (s : System) : Prop :=
  ∀ s', Leaves argv s s' → NewOwned s.shellUid s.nodes s'.nodes

theorem commandOf_write_iff {name : CStr} : commandOf name = .write ↔ name.is "write" = true :=
  commandOf_iff (by decide) (by decide) (by decide) (by simp [commands])

/-- A line leaves one state. -/
theorem Leaves.ownsNew_iff {argv : List CStr} {s s₁ : System} (h : Leaves argv s s₁) :
    OwnsNew argv s ↔ NewOwned s.shellUid s.nodes s₁.nodes := by
  refine ⟨fun hall => hall s₁ h, fun hone s' h' => ?_⟩
  have hsame : s' = s₁ := by
    rcases h with h | h
    · rcases h' with h' | h'
      · cases h.symm.trans h'
        rfl
      · cases h.symm.trans h'
    · rcases h' with h' | h'
      · cases h.symm.trans h'
      · cases h.symm.trans h'
        rfl
  rwa [hsame]

/-- Owners and modes are set on nodes that exist. -/
theorem fsSet_used (t : Nodes) (node : Int) (mode owner : UInt16) (i : NodeId) :
    ((fsSetMode t node mode).2 i).used = (t i).used ∧ ((fsSetOwner t node owner).2 i).used = (t i).used := by
  unfold fsSetMode fsSetOwner
  cases usedNode t node with
  | none => exact ⟨rfl, rfl⟩
  | some n =>
    exact ⟨update_field (m := {t n with mode := mode &&& 0o777}) FsNode.used rfl i,
      update_field (m := {t n with owner := owner}) FsNode.used rfl i⟩

section Line
variable {s : System} (wf : WellFormed s.nodes) {c : NodeId} (hcwd : s.shellCwd = c.val)
  (hc : (s.nodes c).used = true) (hd : (s.nodes c).isDir = true)
include wf hcwd hc hd

theorem ownsNew_write {name : CStr} (hk : commandOf name = .write) (args : List CStr) :
    OwnsNew (name :: args) s ↔ s.shellUid = 0 ∨ ¬ FillsNewFile s (name :: args) := by
  have hrun : shellDispatch (name :: args) s = s.edits (cmdWrite s.nodes s.shellCwd args) := by
    rw [shellDispatch, hk]
  have hwrite := commandOf_write_iff.mp hk
  have hnano : name.is "nano" ≠ true := fun h => by
    rw [commandOf_nano_iff.mpr h] at hk
    cases hk
  rcases args with _ | ⟨path, _ | ⟨word, words⟩⟩
  · rw [Leaves.ownsNew_iff (.inl hrun)]
    exact iff_of_true (.of_used fun _ hi => hi) (.inr id)
  · rw [Leaves.ownsNew_iff (.inl hrun)]
    refine iff_of_true (.of_used fun _ hi => hi) (.inr ?_)
    intro hs
    obtain ⟨_, h | h⟩ := hs
    · exact hnano h
    · exact h.2.1 rfl
  · obtain ⟨text, r, t', hop, hw⟩ := cmdWrite_ok wf hc hd path word words
    rw [hcwd, hop] at hrun
    rw [Leaves.ownsNew_iff (.inl hrun)]
    show NewOwned s.shellUid s.nodes t' ↔ _
    have hnowhere : fsResolve s.nodes (c.val : Int) path = .ok (-1) ↔ resolve s.nodes c path.chars = none := by
      rw [fsResolve_eq wf.navigable hc]
      cases resolve s.nodes c path.chars with
      | none => simp
      | some n => simp
    rw [hw.newOwned_iff, FillsNewFile, hcwd, hnowhere, eq_comm]
    simp [hnano, hwrite]

theorem ownsNew_nano {name : CStr} (hk : commandOf name = .nano) (args : List CStr) :
    OwnsNew (name :: args) s ↔ s.shellUid = 0 ∨ ¬ FillsNewFile s (name :: args) := by
  have hrun : shellDispatch (name :: args) s = s.types (cmdNano s.nodes s.shellCwd args s.keys) := by
    rw [shellDispatch, hk]
  cases args with
  | nil =>
    rw [Leaves.ownsNew_iff (.inl hrun)]
    exact iff_of_true (.of_used fun _ hi => hi) (.inr id)
  | cons path args =>
    obtain ⟨t', text, rest, hop, hedit⟩ := cmdNano_ok wf hc hd path args s.keys
    rw [hcwd, hop] at hrun
    obtain ⟨s₁, hleaves, hnodes⟩ : ∃ s₁, Leaves (name :: path :: args) s s₁ ∧ s₁.nodes = t' := by
      cases rest with
      | none => exact ⟨_, .inr hrun, rfl⟩
      | some keys => exact ⟨_, .inl hrun, rfl⟩
    rw [hleaves.ownsNew_iff, hnodes, hedit.newOwned_iff, FillsNewFile, hcwd, eq_comm]
    simp [commandOf_nano_iff.mp hk]

/-- The other commands make nodes for the user, or none. -/
theorem Effect.newOwned {uid : UInt16} {argv : List CStr} {t : Nodes} {d : Disk} {cwd : Int}
    (h : Effect s uid argv t d cwd) (hpriv : privileged argv = false)
    (hk : ∀ name args, argv = name :: args → commandOf name ≠ .write ∧ commandOf name ≠ .nano) :
    NewOwned uid s.nodes t := by
  have hstill : NewOwned uid s.nodes s.nodes := .of_used fun _ hi => hi
  cases h with
  | still => exact hstill
  | cd => exact hstill
  | sync => exact hstill
  | @mkdir _ args text _ _ hop =>
    obtain ⟨text', t', hop', hmade⟩ := cmdMkdir_ok wf hc hd args uid
    rw [hcwd, hop'] at hop
    cases hop
    rcases hmade with rfl | ⟨_, _, _, hcr⟩
    · exact hstill
    · exact hcr.newOwned
  | @touch _ args text _ _ hop =>
    obtain ⟨text', t', hop', hmade⟩ := cmdTouch_ok wf hc hd args uid
    rw [hcwd, hop'] at hop
    cases hop
    rcases hmade with rfl | ⟨_, _, _, hcr⟩
    · exact hstill
    · exact hcr.newOwned
  | write hcmd _ => exact absurd hcmd (hk _ _ rfl).1
  | nano hcmd _ => exact absurd hcmd (hk _ _ rfl).2
  | @rm _ args text _ _ hop =>
    cases args with
    | nil =>
      cases hop
      exact hstill
    | cons path rest =>
      obtain ⟨text', r, t', hop', hremoved⟩ := cmdRm_ok wf hc path rest
      rw [hcwd, hop'] at hop
      cases hop
      cases hremoved with
      | failed => exact hstill
      | @removed n _ _ hn _ =>
        refine .of_used fun i hi => ?_
        by_cases hin : i = n
        · rw [hin]
          exact hn
        · rwa [Function.update_of_ne hin] at hi
  | @chmod _ args text _ _ hop =>
    obtain ⟨text', t', hop', hset⟩ := cmdChmod_ok wf hc args uid
    rw [hcwd, hop'] at hop
    cases hop
    rcases hset with rfl | ⟨node, mode, rfl⟩
    · exact hstill
    · exact .of_used fun i hi => by rwa [(fsSet_used _ node mode 0 i).1] at hi
  | @chown _ args text _ _ hop =>
    obtain ⟨text', t', hop', hset⟩ := cmdChown_ok wf hc args uid
    rw [hcwd, hop'] at hop
    cases hop
    rcases hset with rfl | ⟨node, owner, rfl⟩
    · exact hstill
    · exact .of_used fun i hi => by rwa [(fsSet_used _ node 0 owner i).2] at hi
  | disk hcmd =>
    rw [privileged_of_commandOf (.inr (.inl hcmd))] at hpriv
    cases hpriv
  | install hcmd _ =>
    rw [privileged_of_commandOf (.inr (.inr hcmd))] at hpriv
    cases hpriv

end Line

/-- **New nodes belong to their creator**, for root, and for other users unless a `write` or `nano` has
to make its file. -/
theorem newNodes_owned_iff (s : System) (wf : WellFormed s.nodes) (hcwd : UsedDir s.nodes s.shellCwd)
    (argv : List CStr) (hpriv : privileged argv = false) :
    OwnsNew argv s ↔ s.shellUid = 0 ∨ ¬ FillsNewFile s argv := by
  obtain ⟨c, hcwd, hc, hd⟩ := hcwd
  by_cases hfills : ∃ name args, argv = name :: args ∧ (commandOf name = .write ∨ commandOf name = .nano)
  · obtain ⟨name, args, rfl, hk | hk⟩ := hfills
    · exact ownsNew_write wf hcwd hc hd hk args
    · exact ownsNew_nano wf hcwd hc hd hk args
  · have hk : ∀ name args, argv = name :: args → commandOf name ≠ .write ∧ commandOf name ≠ .nano :=
      fun name args h => ⟨fun hw => hfills ⟨name, args, h, .inl hw⟩, fun hn => hfills ⟨name, args, h, .inr hn⟩⟩
    refine iff_of_true (fun s' h => (h.effect hpriv).newOwned wf hcwd hc hd hpriv hk) (.inr ?_)
    rcases argv with _ | ⟨name, _ | ⟨path, rest⟩⟩
    · exact id
    · exact id
    · obtain ⟨hw, hn⟩ := hk name (path :: rest) rfl
      intro hs
      obtain ⟨_, hname | hname⟩ := hs
      · exact hn (commandOf_nano_iff.mpr hname)
      · exact hw (commandOf_write_iff.mpr hname.1)

/-- The user `debian` in an empty filesystem. -/
def debianShell : System := {firstSession blankDisk [] with nodes := fsInit, shellUid := shellUidDebian}

theorem newNodes_owned_mkdir : OwnsNew [.ofLit "mkdir", .ofLit "d"] debianShell ↔
    debianShell.shellUid = 0 ∨ ¬ FillsNewFile debianShell [.ofLit "mkdir", .ofLit "d"] :=
  newNodes_owned_iff debianShell wellFormed_fsInit wellFormed_fsInit.usedDir_root _ (by decide)

theorem createsFile_fsInit : CreatesFile fsInit 0 (.ofLit "a") := by
  have hparent : parentNode fsInit 0 (.ofLit "a") = some (0, ⟨lit "a", by decide, by decide⟩) := rfl
  exact ⟨_, _, (resolveParentAndLeaf_eq_some wellFormed_fsInit.navigable wellFormed_fsInit.root_used).mpr hparent,
    findChild_fsInit (by decide), allocNode_fsInit⟩

/-- The file that `debian` makes by `write a b` is root's. -/
theorem newNodes_write_root : ¬ OwnsNew [.ofLit "write", .ofLit "a", .ofLit "b"] debianShell := by
  have hnowhere : fsResolve fsInit 0 (.ofLit "a") = .ok (-1) := by
    have hres := fsResolve_eq wellFormed_fsInit.navigable wellFormed_fsInit.root_used (.ofLit "a")
    rwa [resolve_fsInit] at hres
  have hfills : FillsNewFile debianShell [.ofLit "write", .ofLit "a", .ofLit "b"] :=
    ⟨createsFile_fsInit, .inr ⟨by decide, by decide, hnowhere⟩⟩
  rw [ownsNew_write (c := 0) (s := debianShell) wellFormed_fsInit rfl wellFormed_fsInit.root_used
    wellFormed_fsInit.root_dir (by decide)]
  intro h
  rcases h with huid | hno
  · cases huid
  · exact hno hfills

end FurOS
