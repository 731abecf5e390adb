import FurOS.Shell.Outcomes

/-! Command lines, taken apart.

`commandOf` answers `sudo`, `disk` or `install` for these words only. Each way of
running a command (`shows`, `edits`, `moves`, `types`) is inverted once, and a line
under any number of `sudo` comes to the line without them (`effective`). -/
namespace FurOS

/-! ### Names of commands -/

theorem commandOf_mem {name : CStr} {k : Command} (h : commandOf name = k) (hk : k ≠ .unknown) :
    ∃ text, (text, k) ∈ commands ∧ name.is text = true := by
  unfold commandOf at h
  split at h
  · exact absurd h.symm hk
  · rename_i c hc
    subst h
    exact ⟨c.1, List.mem_of_find?_eq_some hc, (List.find?_some hc :)⟩

theorem is_ofLit {name : CStr} {text : String} (h : name.is text = true) (h0 : 0 ∉ lit text) :
    name = .ofLit text := by
  have hchars : name.chars = lit text := by simpa [CStr.is] using h
  have hlit : (CStr.ofLit text).chars = lit text := by
    refine List.takeWhile_eq_self_iff.mpr fun c hc => ?_
    simp only [decide_eq_true_eq]
    intro heq
    subst heq
    exact h0 hc
  obtain ⟨chars, noNul⟩ := name
  simp only [CStr.ofLit, CStr.ofChars] at hlit ⊢
  subst hchars
  simp only [hlit]

/-- A command with one name is run by that name and no other. -/
theorem commandOf_iff {name : CStr} {text : String} {k : Command} (hk : k ≠ .unknown) (h0 : 0 ∉ lit text)
    (hself : commandOf (.ofLit text) = k) (honly : ∀ t, (t, k) ∈ commands → t = text) :
    commandOf name = k ↔ name.is text = true := by
  constructor
  · intro h
    obtain ⟨t, hmem, hname⟩ := commandOf_mem h hk
    rwa [honly t hmem] at hname
  · intro h
    rw [is_ofLit h h0, hself]

theorem commandOf_sudo_iff {name : CStr} : commandOf name = .sudo ↔ name.is "sudo" = true :=
  commandOf_iff (by decide) (by decide) (by decide) (by simp [commands])

theorem commandOf_nano_iff {name : CStr} : commandOf name = .nano ↔ name.is "nano" = true :=
  commandOf_iff (by decide) (by decide) (by decide) (by simp [commands])

theorem commandOf_disk_iff {name : CStr} : commandOf name = .disk ↔ name.is "disk" = true :=
  commandOf_iff (by decide) (by decide) (by decide) (by simp [commands])

theorem commandOf_install_iff {name : CStr} : commandOf name = .install ↔ name.is "install" = true :=
  commandOf_iff (by decide) (by decide) (by decide) (by simp [commands])

/-- The first word is `sudo`, `disk` or `install`. -/
def privileged : List CStr → Bool
  | [] => false
  | name :: _ => name.is "sudo" || name.is "disk" || name.is "install"

theorem privileged_of_commandOf {name : CStr} {args : List CStr}
    (h : commandOf name = .sudo ∨ commandOf name = .disk ∨ commandOf name = .install) :
    privileged (name :: args) = true := by
  rcases h with h | h | h
  · simp [privileged, commandOf_sudo_iff.mp h]
  · simp [privileged, commandOf_disk_iff.mp h]
  · simp [privileged, commandOf_install_iff.mp h]

theorem not_sudo_of_privileged {name : CStr} {args : List CStr} (h : privileged (name :: args) = false) :
    name.is "sudo" = false := by
  simp only [privileged, Bool.or_eq_false_iff] at h
  exact h.1.1

/-- The words after the leading `sudo`s. -/
def effective : List CStr → List CStr
  | [] => []
  | name :: args => if name.is "sudo" then effective args else name :: args

/-! ### Ways of running a command -/

namespace System
variable (s : System) (text : Text)

@[simp] theorem print_nodes : (s.print text).nodes = s.nodes := rfl
@[simp] theorem print_disk : (s.print text).disk = s.disk := rfl
@[simp] theorem print_shellCwd : (s.print text).shellCwd = s.shellCwd := rfl
@[simp] theorem print_shellUid : (s.print text).shellUid = s.shellUid := rfl
@[simp] theorem print_screen : (s.print text).screen = s.screen ++ text := rfl

theorem print_print (more : Text) : (s.print text).print more = s.print (text ++ more) := by
  unfold print
  rw [List.append_assoc]

end System

section Ways
variable {s s' : System}

theorem shows_eq_ok {x : Except Fault Text} (h : s.shows x = .ok s') :
    ∃ text, x = .ok text ∧ s' = s.print text := by
  cases x with
  | error f => cases h
  | ok text =>
    cases h
    exact ⟨text, rfl, rfl⟩

theorem edits_eq_ok {x : Except Fault (Text × Nodes)} (h : s.edits x = .ok s') :
    ∃ text t, x = .ok (text, t) ∧ s' = {s with nodes := t}.print text := by
  cases x with
  | error f => cases h
  | ok y =>
    cases h
    exact ⟨y.1, y.2, rfl, rfl⟩

theorem moves_eq_ok {x : Except Fault (Text × Int)} (h : s.moves x = .ok s') :
    ∃ text cwd, x = .ok (text, cwd) ∧ s' = {s with shellCwd := cwd}.print text := by
  cases x with
  | error f => cases h
  | ok y =>
    cases h
    exact ⟨y.1, y.2, rfl, rfl⟩

theorem types_eq_ok {x : Except Fault (Nodes × Text × Option (List UInt8))} (h : s.types x = .ok s') :
    ∃ t text keys, x = .ok (t, text, some keys) ∧
      s' = {s with nodes := t, keys := keys}.print text := by
  rcases x with f | ⟨t, text, _ | keys⟩
  · cases h
  · cases h
  · cases h
    exact ⟨t, text, keys, rfl, rfl⟩

theorem cmdSudo_eq_ok {dispatch : System → Except Stop System} {args : List CStr}
    (h : cmdSudo dispatch args s = .ok s') :
    (args = [] ∧ ∃ text, s' = s.print text) ∨
      ∃ s₁, dispatch {s with shellUid := shellUidRoot} = .ok s₁ ∧ s' = {s₁ with shellUid := s.shellUid} := by
  unfold cmdSudo at h
  split at h
  · rename_i hargs
    cases h
    exact .inl ⟨hargs, _, rfl⟩
  · obtain ⟨s₁, h₁, h⟩ := Foundation.bind_eq_ok.mp h
    cases h
    exact .inr ⟨s₁, h₁, rfl⟩

/-- The error of what `sudo` runs is its own. -/
theorem cmdSudo_eq_error {dispatch : System → Except Stop System} {args : List CStr} {e : Stop}
    (h : cmdSudo dispatch args s = .error e) :
    args ≠ [] ∧ dispatch {s with shellUid := shellUidRoot} = .error e := by
  unfold cmdSudo at h
  split at h
  · cases h
  · rename_i hargs
    refine ⟨hargs, ?_⟩
    cases hd : dispatch {s with shellUid := shellUidRoot} with
    | error e' =>
      rw [hd] at h
      cases h
      rfl
    | ok s₁ =>
      rw [hd] at h
      cases h

end Ways

/-! ### Commands on the table -/

section Tables
variable {t t' : Nodes} {cwd : Int} {args : List CStr} {uid : UInt16} {text : Text}

theorem cmdMkdir_eq_ok (h : cmdMkdir t cwd args uid = .ok (text, t')) :
    t' = t ∨ ∃ path r, fsMkdirAs t cwd path uid fsDefaultDirMode = .ok (r, t') := by
  cases args with
  | nil =>
    cases h
    exact .inl rfl
  | cons path _ =>
    obtain ⟨existing, _, h⟩ := Foundation.bind_eq_ok.mp h
    split at h
    · cases h
      exact .inl rfl
    obtain ⟨o, _, h⟩ := Foundation.bind_eq_ok.mp h
    cases o with
    | some refused =>
      cases h
      exact .inl rfl
    | none =>
      obtain ⟨⟨status, t₁⟩, hop, h⟩ := Foundation.bind_eq_ok.mp h
      cases h
      exact .inr ⟨path, status, hop⟩

theorem cmdTouch_eq_ok (h : cmdTouch t cwd args uid = .ok (text, t')) :
    t' = t ∨ ∃ path r, fsTouchAs t cwd path uid fsDefaultFileMode = .ok (r, t') := by
  cases args with
  | nil =>
    cases h
    exact .inl rfl
  | cons path _ =>
    obtain ⟨node, _, h⟩ := Foundation.bind_eq_ok.mp h
    split at h
    · cases h
      exact .inl rfl
    obtain ⟨o, _, h⟩ := Foundation.bind_eq_ok.mp h
    cases o with
    | some refused =>
      cases h
      exact .inl rfl
    | none =>
      obtain ⟨⟨status, t₁⟩, hop, h⟩ := Foundation.bind_eq_ok.mp h
      cases h
      exact .inr ⟨path, status, hop⟩

theorem cmdWrite_eq_ok (h : cmdWrite t cwd args = .ok (text, t')) :
    t' = t ∨ ∃ path word words r, args = path :: word :: words ∧
      fsWriteFile t cwd path (some (joinWords [] (word :: words))) (joinWords [] (word :: words)).length =
        .ok (r, t') := by
  unfold cmdWrite at h
  split at h
  · rename_i path word words
    obtain ⟨⟨status, t₁⟩, hop, h⟩ := Foundation.bind_eq_ok.mp h
    cases h
    exact .inr ⟨path, word, words, status, rfl, hop⟩
  · cases h
    exact .inl rfl

theorem cmdRm_eq_ok (h : cmdRm t cwd args = .ok (text, t')) :
    t' = t ∨ ∃ path rest r, args = path :: rest ∧ fsRemove t cwd path = .ok (r, t') := by
  cases args with
  | nil =>
    cases h
    exact .inl rfl
  | cons path rest =>
    obtain ⟨⟨status, t₁⟩, hop, h⟩ := Foundation.bind_eq_ok.mp h
    cases h
    exact .inr ⟨path, rest, status, rfl, hop⟩

/-- `chmod` asks users other than root for the owner. -/
theorem cmdChmod_eq_ok (h : cmdChmod t cwd args uid = .ok (text, t')) :
    t' = t ∨ ∃ node mode, ¬ (uid ≠ shellUidRoot ∧ UInt16.ofInt (fsGetOwner t node) ≠ uid) ∧
      t' = (fsSetMode t node mode).2 := by
  unfold cmdChmod at h
  split at h
  · split at h
    · cases h
      exact .inl rfl
    obtain ⟨node, _, h⟩ := Foundation.bind_eq_ok.mp h
    split at h
    · cases h
      exact .inl rfl
    split at h
    · cases h
      exact .inl rfl
    · cases h
      exact .inr ⟨node, _, ‹_›, rfl⟩
  · cases h
    exact .inl rfl

/-- `chown` is root's. -/
theorem cmdChown_eq_ok (h : cmdChown t cwd args uid = .ok (text, t')) :
    t' = t ∨ ∃ node owner, requireRoot uid = none ∧ t' = (fsSetOwner t node owner).2 := by
  unfold cmdChown at h
  split at h
  · split at h
    · cases h
      exact .inl rfl
    split at h
    · cases h
      exact .inl rfl
    obtain ⟨node, _, h⟩ := Foundation.bind_eq_ok.mp h
    split at h
    · cases h
      exact .inl rfl
    · cases h
      exact .inr ⟨node, _, ‹_›, rfl⟩
  · cases h
    exact .inl rfl

end Tables

/-! ### Commands on the disk -/

/-- `sync` changes nothing but the disk. -/
theorem cmdSync_eq (s : System) : ∃ disk text, cmdSync s = {s with disk := disk}.print text := by
  unfold cmdSync
  dsimp only
  split
  · exact ⟨_, _, rfl⟩
  · exact ⟨_, _, rfl⟩

theorem cmdDisk_shellUid (args : List CStr) (s : System) : (cmdDisk args s).shellUid = s.shellUid := by
  unfold cmdDisk diskInfo diskLoad cmdSync diskFormat
  split
  · rfl
  split
  · rfl
  split
  · dsimp only
    split <;> rfl
  split
  · dsimp only
    split <;> rfl
  split
  · dsimp only
    split <;> rfl
  · rfl

theorem installFiles_shellUid {s s' : System} (h : installFiles s = .ok s') : s'.shellUid = s.shellUid := by
  unfold installFiles at h
  split at h
  · cases h
  · dsimp only at h
    split at h
    · cases h
      rfl
    · cases h
      rfl

theorem cmdInstall_shellUid {s s' : System} (h : cmdInstall s = .ok s') : s'.shellUid = s.shellUid := by
  unfold cmdInstall at h
  dsimp only at h
  split at h
  · cases h
    rfl
  split at h
  · cases h
    rfl
  · have := installFiles_shellUid h
    exact this

end FurOS
