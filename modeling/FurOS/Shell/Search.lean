import FurOS.Fs.Printing
import FurOS.Shell.Parents
import FurOS.Shell.Session

/-! What the permissions of a directory guard.

`fs_resolve` knows no user: on the way through a directory nobody asks for its search
permission. `cd`, `ls`, `cat`, `touch` and `mkdir` ask the node that their path leads to, and
where it leads to none the directory that would hold it. -/
namespace FurOS

/-- A permission that is missing is missing among others. -/
theorem fsCheckAccess_part {t : Nodes} {node : Int} {uid : UInt16} {m : UInt8} (e : UInt8)
    (h : fsCheckAccess t node uid e = false) : fsCheckAccess t node uid (m ||| e) = false := by
  unfold fsCheckAccess at h ⊢
  cases hn : usedNode t node with
  | none => rfl
  | some i =>
    rw [hn] at h
    have habsorb : (m ||| e) &&& e = e := by
      apply UInt8.toBitVec_inj.mp
      ext k hk
      simpa using Or.inr
    dsimp only at h ⊢
    by_cases he : e = 0
    · rw [if_pos he] at h
      cases h
    have hme : m ||| e ≠ 0 := fun h0 => he (by rw [← habsorb, h0, UInt8.zero_and])
    rw [if_neg he] at h
    rw [if_neg hme]
    by_cases hu : uid = 0
    · rw [if_pos hu] at h
      cases h
    rw [if_neg hu] at h ⊢
    simp only [decide_eq_false_iff_not] at h ⊢
    intro hall
    apply h
    rw [← habsorb, ← UInt8.and_assoc, hall]

/-! ### Refusals -/

/-- What a refused command prints: at most one fixed line. -/
def refusals : List Text :=
  [[], println "cd: directory not found", println "cd: permission denied", println "ls: path not found",
    println "ls: not a directory", println "ls: permission denied", println "cat: file not found",
    println "cat: permission denied", println "mkdir: path exists as file", println "touch: is a directory",
    println "touch: permission denied", println "permission denied", println "path: invalid parent"]

section Commands
variable {t : Nodes} {cwd target : Int} {path : CStr} (hr : fsResolve t cwd path = .ok target) (rest : List CStr)
  {uid : UInt16}
include hr

theorem cmdCd_refuses
    (h : target < 0 ∨ fsIsDir t target = false ∨ fsCheckAccess t target uid fsAccessExec = false) :
    ∃ text ∈ refusals, cmdCd t cwd (path :: rest) uid = .ok (text, cwd) := by
  simp only [cmdCd, hr, Foundation.ok_bind]
  by_cases hfound : (target < 0 || !fsIsDir t target) = true
  · exact ⟨println "cd: directory not found", by simp [refusals], by rw [if_pos hfound]; rfl⟩
  · have hdenied : fsCheckAccess t target uid fsAccessExec = false := by
      simp only [Bool.or_eq_true, decide_eq_true_eq, Bool.not_eq_true', not_or] at hfound
      exact (h.resolve_left hfound.1).resolve_left hfound.2
    exact ⟨println "cd: permission denied", by simp [refusals],
      by rw [if_neg hfound, if_pos (by simp [hdenied])]; rfl⟩

theorem cmdLs_refuses (h : target < 0 ∨ fsIsDir t target = false ∨
    fsCheckAccess t target uid (fsAccessRead ||| fsAccessExec) = false) :
    ∃ text ∈ refusals, cmdLs t cwd (path :: rest) uid = .ok text := by
  simp only [cmdLs, lsTarget, hr, Foundation.ok_bind]
  by_cases hneg : target < 0
  · exact ⟨println "ls: path not found", by simp [refusals], by rw [if_pos hneg]; rfl⟩
  rw [if_neg hneg]
  cases hdir : fsIsDir t target with
  | false => exact ⟨println "ls: not a directory", by simp [refusals], rfl⟩
  | true =>
    have hdenied := (h.resolve_left hneg).resolve_left (by simp [hdir])
    rw [hdenied]
    exact ⟨println "ls: permission denied", by simp [refusals], rfl⟩

theorem cmdCat_refuses (h : target < 0 ∨ fsIsDir t target = true ∨
    fsCheckAccess t target uid fsAccessRead = false) :
    ∃ text ∈ refusals, cmdCat t cwd (path :: rest) uid = .ok text := by
  simp only [cmdCat, hr, Foundation.ok_bind]
  by_cases hfound : (target < 0 || fsIsDir t target) = true
  · exact ⟨println "cat: file not found", by simp [refusals], by rw [if_pos hfound]; rfl⟩
  · have hdenied : fsCheckAccess t target uid fsAccessRead = false := by
      simp only [Bool.or_eq_true, decide_eq_true_eq, not_or] at hfound
      exact (h.resolve_left hfound.1).resolve_left hfound.2
    exact ⟨println "cat: permission denied", by simp [refusals],
      by rw [if_neg hfound, if_pos (by simp [hdenied])]; rfl⟩

theorem cmdMkdir_found (h : 0 ≤ target) :
    ∃ text ∈ refusals, cmdMkdir t cwd (path :: rest) uid = .ok (text, t) := by
  simp only [cmdMkdir, hr, Foundation.ok_bind, if_pos h.ge]
  cases fsIsDir t target with
  | true => exact ⟨[], by simp [refusals], rfl⟩
  | false => exact ⟨println "mkdir: path exists as file", by simp [refusals], rfl⟩

theorem cmdTouch_found (h : 0 ≤ target) :
    ∃ text ∈ refusals, cmdTouch t cwd (path :: rest) uid = .ok (text, t) := by
  simp only [cmdTouch, hr, Foundation.ok_bind, if_pos h.ge]
  cases fsIsDir t target with
  | true => exact ⟨println "touch: is a directory", by simp [refusals], rfl⟩
  | false =>
    cases fsCheckAccess t target uid fsAccessWrite with
    | true => exact ⟨[], by simp [refusals], rfl⟩
    | false => exact ⟨println "touch: permission denied", by simp [refusals], rfl⟩

/-- Where the path leads to nothing, the directory that would hold it is asked. -/
theorem create_denied {d : Int} (hneg : target < 0) (hparent : resolveParentPath t cwd path = .ok (some d))
    (hdenied : fsCheckAccess t d uid fsAccessExec = false) :
    cmdMkdir t cwd (path :: rest) uid = .ok (println "permission denied", t) ∧
      cmdTouch t cwd (path :: rest) uid = .ok (println "permission denied", t) := by
  have hno : fsCheckAccess t d uid (fsAccessWrite ||| fsAccessExec) = false :=
    fsCheckAccess_part fsAccessExec hdenied
  have hneg' : ¬ target ≥ 0 := by omega
  simp only [cmdMkdir, cmdTouch, hr, ensureParentWritable, hparent, hno, Foundation.ok_bind, if_neg hneg']
  exact ⟨rfl, rfl⟩

end Commands

/-! ### Where there is nothing -/

/-- The table is as it was, or one node has been made in `p`. -/
def MadeIn (t t' : Nodes) (p : NodeId) : Prop :=
  t' = t ∨ ∃ n : NodeId, (t n).used = false ∧ (t' n).used = true ∧ (t' n).parent.toInt = p.val ∧ ∀ i ≠ n, t' i = t i

theorem create_madeIn {t t' : Nodes} {cwd : Int} {path : CStr} {found : Bool → Int}
    {make : Int → Name → FsNode → FsNode} {dir : Bool} {owner mode : UInt16} {r : Int} (hmake : Makes dir owner mode make)
    {p : NodeId} (hparent : resolveParentPath t cwd path = .ok (some (p.val : Int)))
    (h : create t cwd path found make = .ok (r, t')) : MadeIn t t' p := by
  obtain ⟨o, hres, h⟩ := Foundation.bind_eq_ok.mp h
  cases o with
  | none =>
    cases h
    exact .inl rfl
  | some x =>
    obtain ⟨p', leaf⟩ := x
    obtain rfl := resolveParents_same hparent hres
    dsimp only at h
    split at h
    · cases h
      exact .inl rfl
    split at h
    · cases h
      exact .inl rfl
    rename_i n t₁ halloc
    cases h
    refine .inr ⟨n, (allocNode_slot halloc).2, ?_, ?_, fun i hi => ?_⟩
    · rw [Function.update_self, hmake.used, (allocNode_empty halloc).1]
    · rw [Function.update_self, hmake.parent]
      exact Int32.toInt_ofInt_of_le (by omega) (by omega)
    · rw [Function.update_of_ne hi, allocNode_other halloc i hi]

/-- What a creation prints that was let through. -/
def creationTexts : List Text := [[], println "mkdir: failed", println "touch: failed"]

/-- A path that leads to nothing: a creation is refused, or goes on where the directory that is to hold the node lets
its user write and search. -/
def Creates (t : Nodes) (cwd : Int) (path : CStr) (uid : UInt16) (text : Text) (t' : Nodes) : Prop :=
  text ∈ refusals ∧ t' = t ∨ text ∈ creationTexts ∧ ∃ p : NodeId,
    resolveParentPath t cwd path = .ok (some (p.val : Int)) ∧
    fsCheckAccess t p.val uid (fsAccessWrite ||| fsAccessExec) = true ∧ MadeIn t t' p

theorem ensured_creates {t t' : Nodes} {cwd : Int} {path : CStr} {uid : UInt16} {text failed : Text}
    {op : Except Fault (Int × Nodes)} {found : Bool → Int} {make : Int → Name → FsNode → FsNode} {dir : Bool}
    {owner mode : UInt16} (hop : op = create t cwd path found make) (hmake : Makes dir owner mode make)
    (hfailed : failed ∈ creationTexts)
    (h : (ensureParentWritable t cwd path uid >>= fun o => match o with
      | some text => pure (text, t)
      | none => op >>= fun x => pure (if x.1 ≠ 0 then failed else [], x.2)) = .ok (text, t')) :
    Creates t cwd path uid text t' := by
  obtain ⟨o, hensured, h⟩ := Foundation.bind_eq_ok.mp h
  unfold ensureParentWritable at hensured
  obtain ⟨parent, hparent, hensured⟩ := Foundation.bind_eq_ok.mp hensured
  cases parent with
  | none =>
    cases hensured
    cases h
    exact .inl ⟨by simp [refusals], rfl⟩
  | some p =>
    dsimp only at hensured
    split at hensured
    · cases hensured
      cases h
      exact .inl ⟨by simp [refusals], rfl⟩
    · rename_i hallowed
      cases hensured
      have hallowed : fsCheckAccess t p uid (fsAccessWrite ||| fsAccessExec) = true := by simpa using hallowed
      obtain ⟨n, rfl⟩ : ∃ n : NodeId, p = n.val := by
        unfold fsCheckAccess at hallowed
        cases hn : usedNode t p with
        | none =>
          rw [hn] at hallowed
          cases hallowed
        | some n => exact ⟨n, (usedNode_eq_some.mp hn).1⟩
      obtain ⟨⟨r, t₁⟩, hcreate, h⟩ := Foundation.bind_eq_ok.mp h
      cases h
      refine .inr ⟨?_, n, hparent, hallowed, create_madeIn hmake hparent (hop ▸ hcreate)⟩
      dsimp only
      split
      · exact hfailed
      · simp [creationTexts]

section Creating
variable {t t' : Nodes} {cwd : Int} {path : CStr} (hr : fsResolve t cwd path = .ok (-1)) (rest : List CStr)
  {uid : UInt16} {text : Text}
include hr

theorem cmdMkdir_creates (h : cmdMkdir t cwd (path :: rest) uid = .ok (text, t')) : Creates t cwd path uid text t' := by
  simp only [cmdMkdir, hr, Foundation.ok_bind, if_neg (show ¬ (-1 : Int) ≥ 0 by decide)] at h
  exact ensured_creates (fsMkdirAs_eq t cwd path uid fsDefaultDirMode) (dirNode_makes _ _) (by simp [creationTexts]) h

theorem cmdTouch_creates (h : cmdTouch t cwd (path :: rest) uid = .ok (text, t')) : Creates t cwd path uid text t' := by
  simp only [cmdTouch, hr, Foundation.ok_bind, if_neg (show ¬ (-1 : Int) ≥ 0 by decide)] at h
  exact ensured_creates (fsTouchAs_eq t cwd path uid fsDefaultFileMode) (fileNode_makes _ _) (by simp [creationTexts]) h

end Creating

/-! ### Who is asked -/

/-- The commands that look at a path or make a node there. -/
def pathCommands : List Command := [.cd, .ls, .cat, .touch, .mkdir]

/-- The node that is asked about a path: the one it leads to, or else the directory that would hold it. -/
def Asked (t : Nodes) (cwd : Int) (path : CStr) (d : NodeId) : Prop :=
  fsResolve t cwd path = .ok (d.val : Int) ∨
    fsResolve t cwd path = .ok (-1) ∧ resolveParentPath t cwd path = .ok (some (d.val : Int))

/-- The line changes nothing and prints at most a fixed line. -/
def Declined (argv : List CStr) (s : System) : Prop :=
  ∃ text ∈ refusals, shellDispatch argv s = .ok (s.print text)

/-- The node that a command looks into has to allow it. -/
def Looks (t : Nodes) (uid : UInt16) (n : NodeId) (k : Command) : Prop :=
  k = .cd ∧ fsCheckAccess t n.val uid fsAccessExec = true ∨
    k = .ls ∧ fsCheckAccess t n.val uid (fsAccessRead ||| fsAccessExec) = true ∨
    k = .cat ∧ fsCheckAccess t n.val uid fsAccessRead = true

section Dispatch
variable {s : System} {name path : CStr} {rest : List CStr}

theorem refused_shows {x : Except Fault Text} (hrun : shellDispatch (name :: path :: rest) s = s.shows x)
    (h : ∃ text ∈ refusals, x = .ok text) : Declined (name :: path :: rest) s := by
  obtain ⟨text, hmem, rfl⟩ := h
  exact ⟨text, hmem, hrun⟩

theorem refused_edits {x : Except Fault (Text × Nodes)}
    (hrun : shellDispatch (name :: path :: rest) s = s.edits x)
    (h : ∃ text ∈ refusals, x = .ok (text, s.nodes)) : Declined (name :: path :: rest) s := by
  obtain ⟨text, hmem, rfl⟩ := h
  exact ⟨text, hmem, hrun⟩

theorem refused_moves {x : Except Fault (Text × Int)} (hrun : shellDispatch (name :: path :: rest) s = s.moves x)
    (h : ∃ text ∈ refusals, x = .ok (text, s.shellCwd)) : Declined (name :: path :: rest) s := by
  obtain ⟨text, hmem, rfl⟩ := h
  exact ⟨text, hmem, hrun⟩

/-- A directory that is asked and has no search permission for the user refuses. -/
theorem refused_of_asked {d : NodeId} (hk : commandOf name ∈ pathCommands) (hdir : fsIsDir s.nodes d.val = true)
    (hdenied : fsCheckAccess s.nodes d.val s.shellUid fsAccessExec = false)
    (hasked : Asked s.nodes s.shellCwd path d) : Declined (name :: path :: rest) s := by
  have hread : fsCheckAccess s.nodes d.val s.shellUid (fsAccessRead ||| fsAccessExec) = false :=
    fsCheckAccess_part fsAccessExec hdenied
  have hpos : (0 : Int) ≤ d.val := by omega
  simp only [pathCommands, List.mem_cons, List.not_mem_nil, or_false] at hk
  rcases hk with hk | hk | hk | hk | hk
  · refine refused_moves (by rw [shellDispatch, hk]) ?_
    rcases hasked with hr | ⟨hr, _⟩
    · exact cmdCd_refuses hr rest (.inr (.inr hdenied))
    · exact cmdCd_refuses hr rest (.inl (by decide))
  · refine refused_shows (by rw [shellDispatch, hk]) ?_
    rcases hasked with hr | ⟨hr, _⟩
    · exact cmdLs_refuses hr rest (.inr (.inr hread))
    · exact cmdLs_refuses hr rest (.inl (by decide))
  · refine refused_shows (by rw [shellDispatch, hk]) ?_
    rcases hasked with hr | ⟨hr, _⟩
    · exact cmdCat_refuses hr rest (.inr (.inl hdir))
    · exact cmdCat_refuses hr rest (.inl (by decide))
  · refine refused_edits (by rw [shellDispatch, hk]) ?_
    rcases hasked with hr | ⟨hr, hparent⟩
    · exact cmdTouch_found hr rest hpos
    · exact ⟨_, by simp [refusals], (create_denied hr rest (by decide) hparent hdenied).2⟩
  · refine refused_edits (by rw [shellDispatch, hk]) ?_
    rcases hasked with hr | ⟨hr, hparent⟩
    · exact cmdMkdir_found hr rest hpos
    · exact ⟨_, by simp [refusals], (create_denied hr rest (by decide) hparent hdenied).1⟩

/-- A node that the path leads to is asked itself. -/
theorem refused_or_looks {n : NodeId} (hk : commandOf name ∈ pathCommands)
    (hr : fsResolve s.nodes s.shellCwd path = .ok (n.val : Int)) :
    Declined (name :: path :: rest) s ∨ Looks s.nodes s.shellUid n (commandOf name) := by
  have hpos : (0 : Int) ≤ n.val := by omega
  simp only [pathCommands, List.mem_cons, List.not_mem_nil, or_false] at hk
  rcases hk with hk | hk | hk | hk | hk
  · cases hx : fsCheckAccess s.nodes n.val s.shellUid fsAccessExec with
    | true => exact .inr (.inl ⟨hk, hx⟩)
    | false => exact .inl (refused_moves (by rw [shellDispatch, hk]) (cmdCd_refuses hr rest (.inr (.inr hx))))
  · cases hx : fsCheckAccess s.nodes n.val s.shellUid (fsAccessRead ||| fsAccessExec) with
    | true => exact .inr (.inr (.inl ⟨hk, hx⟩))
    | false => exact .inl (refused_shows (by rw [shellDispatch, hk]) (cmdLs_refuses hr rest (.inr (.inr hx))))
  · cases hx : fsCheckAccess s.nodes n.val s.shellUid fsAccessRead with
    | true => exact .inr (.inr (.inr ⟨hk, hx⟩))
    | false => exact .inl (refused_shows (by rw [shellDispatch, hk]) (cmdCat_refuses hr rest (.inr (.inr hx))))
  · exact .inl (refused_edits (by rw [shellDispatch, hk]) (cmdTouch_found hr rest hpos))
  · exact .inl (refused_edits (by rw [shellDispatch, hk]) (cmdMkdir_found hr rest hpos))

/-- A path to nothing: only a creation can change anything, and the directory that is to hold the node decides. -/
def Grants (t : Nodes) (cwd : Int) (path : CStr) (uid : UInt16) (k : Command) (s s' : System) : Prop :=
  (k = .touch ∨ k = .mkdir) ∧ ∃ p : NodeId, resolveParentPath t cwd path = .ok (some (p.val : Int)) ∧
    fsCheckAccess t p.val uid (fsAccessWrite ||| fsAccessExec) = true ∧
    ∃ text ∈ creationTexts, ∃ t', s' = {s with nodes := t'}.print text ∧ MadeIn t t' p

theorem refused_or_grants (hk : commandOf name ∈ pathCommands)
    (hr : fsResolve s.nodes s.shellCwd path = .ok (-1)) {s' : System}
    (h : shellDispatch (name :: path :: rest) s = .ok s') :
    Declined (name :: path :: rest) s ∨ Grants s.nodes s.shellCwd path s.shellUid (commandOf name) s s' := by
  have hedits {x : Except Fault (Text × Nodes)} (hrun : shellDispatch (name :: path :: rest) s = s.edits x)
      (hcreates : ∀ text t', x = .ok (text, t') → Creates s.nodes s.shellCwd path s.shellUid text t')
      (hcommand : commandOf name = .touch ∨ commandOf name = .mkdir) :
      Declined (name :: path :: rest) s ∨ Grants s.nodes s.shellCwd path s.shellUid (commandOf name) s s' := by
    cases x with
    | error f =>
      rw [h] at hrun
      cases hrun
    | ok y =>
      obtain ⟨text, t'⟩ := y
      rcases hcreates text t' rfl with ⟨hmem, rfl⟩ | ⟨hmem, p, hparent, hallowed, hmade⟩
      · exact .inl ⟨text, hmem, hrun⟩
      · refine .inr ⟨hcommand, p, hparent, hallowed, text, hmem, t', ?_, hmade⟩
        rw [h] at hrun
        exact Except.ok.inj hrun
  simp only [pathCommands, List.mem_cons, List.not_mem_nil, or_false] at hk
  rcases hk with hk | hk | hk | hk | hk
  · exact .inl (refused_moves (by rw [shellDispatch, hk]) (cmdCd_refuses hr rest (.inl (by decide))))
  · exact .inl (refused_shows (by rw [shellDispatch, hk]) (cmdLs_refuses hr rest (.inl (by decide))))
  · exact .inl (refused_shows (by rw [shellDispatch, hk]) (cmdCat_refuses hr rest (.inl (by decide))))
  · exact hedits (by rw [shellDispatch, hk]) (fun text t' => cmdTouch_creates hr rest) (.inl hk)
  · exact hedits (by rw [shellDispatch, hk]) (fun text t' => cmdMkdir_creates hr rest) (.inr hk)

/-- In a well-formed table such a line ends. -/
theorem pathCommand_ends (hk : commandOf name ∈ pathCommands) (hr : fsResolve s.nodes s.shellCwd path = .ok (-1))
    (wf : WellFormed s.nodes) (hc : UsedDir s.nodes s.shellCwd) :
    ∃ s', shellDispatch (name :: path :: rest) s = .ok s' := by
  obtain ⟨c, hcwd, hu, hd⟩ := hc
  have hdeclined (h : Declined (name :: path :: rest) s) : ∃ s', shellDispatch (name :: path :: rest) s = .ok s' := by
    obtain ⟨text, -, hrun⟩ := h
    exact ⟨_, hrun⟩
  simp only [pathCommands, List.mem_cons, List.not_mem_nil, or_false] at hk
  rcases hk with hk | hk | hk | hk | hk
  · exact hdeclined (refused_moves (by rw [shellDispatch, hk]) (cmdCd_refuses hr rest (.inl (by decide))))
  · exact hdeclined (refused_shows (by rw [shellDispatch, hk]) (cmdLs_refuses hr rest (.inl (by decide))))
  · exact hdeclined (refused_shows (by rw [shellDispatch, hk]) (cmdCat_refuses hr rest (.inl (by decide))))
  · obtain ⟨text, t', hcmd, -⟩ := cmdTouch_ok wf hu hd (path :: rest) s.shellUid
    rw [← hcwd] at hcmd
    refine ⟨{s with nodes := t'}.print text, ?_⟩
    rw [shellDispatch, hk]
    dsimp only
    rw [hcmd]
    rfl
  · obtain ⟨text, t', hcmd, -⟩ := cmdMkdir_ok wf hu hd (path :: rest) s.shellUid
    rw [← hcwd] at hcmd
    refine ⟨{s with nodes := t'}.print text, ?_⟩
    rw [shellDispatch, hk]
    dsimp only
    rw [hcmd]
    rfl

end Dispatch

/-- **Search permission guards the directory itself.** `cd`, `ls`, `cat`, `touch` and `mkdir` are refused
on a path that leads to it, or to nothing it holds. A path that leads through it to another node asks
that node alone; `touch` and `mkdir` are refused there, and a refusal changes nothing. On one that leads through it
to nothing `cd`, `ls` and `cat` are refused, and `touch` and `mkdir` ask the directory that is to hold the node alone
and make at most that one. -/
theorem search_guards (s : System) (name path : CStr) (rest : List CStr) (hk : commandOf name ∈ pathCommands) :
    (∀ d : NodeId, fsIsDir s.nodes d.val = true → fsCheckAccess s.nodes d.val s.shellUid fsAccessExec = false →
      Asked s.nodes s.shellCwd path d → Declined (name :: path :: rest) s) ∧
    (∀ n : NodeId, fsResolve s.nodes s.shellCwd path = .ok (n.val : Int) →
      Declined (name :: path :: rest) s ∨ Looks s.nodes s.shellUid n (commandOf name)) ∧
    (fsResolve s.nodes s.shellCwd path = .ok (-1) →
      (WellFormed s.nodes → UsedDir s.nodes s.shellCwd → ∃ s', shellDispatch (name :: path :: rest) s = .ok s') ∧
      ∀ s', shellDispatch (name :: path :: rest) s = .ok s' →
        Declined (name :: path :: rest) s ∨ Grants s.nodes s.shellCwd path s.shellUid (commandOf name) s s') :=
  ⟨fun _ hdir hdenied hasked => refused_of_asked hk hdir hdenied hasked, fun _ hr => refused_or_looks hk hr,
    fun hr => ⟨pathCommand_ends hk hr, fun _ h => refused_or_grants hk hr h⟩⟩

/-! ### A directory that is passed -/

/-- `/a/b`, where `/a` is root's alone. -/
def passedDirs : Nodes := (fsSetMode (withDir oneDir 2 1 ⟨lit "b", by decide, by decide⟩) 1 0o700).2

/-- `/a` may not be searched by `debian`, and `/a/b` may. -/
theorem passedDirs_nodes : Takes oneDir 2 1 ⟨lit "b", by decide, by decide⟩ ∧
    fsIsDir passedDirs 1 = true ∧ fsCheckAccess passedDirs 1 shellUidDebian fsAccessExec = false ∧
    fsIsDir passedDirs 2 = true ∧ fsCheckAccess passedDirs 2 shellUidDebian fsAccessExec = true ∧
    (passedDirs 2).parent.toInt = 1 ∧ resolve passedDirs 0 (CStr.ofLit "a").chars = some 1 ∧
    resolve passedDirs 0 (CStr.ofLit "a/b").chars = some 2 := by
  decide +kernel

theorem passedDirs_wellFormed : WellFormed passedDirs :=
  fsSetMode_wellFormed (passedDirs_nodes.1.wellFormed oneDir_wellFormed) 1 0o700

/-- The user `debian` in its root. -/
def passingShell : System := {firstSession blankDisk [] with nodes := passedDirs, shellUid := shellUidDebian}

theorem commandOf_cd : commandOf (.ofLit "cd") = .cd := by decide

theorem search_guards_cd : Declined [.ofLit "cd", .ofLit "a"] passingShell := by
  have hk : commandOf (.ofLit "cd") ∈ pathCommands := by simp [commandOf_cd, pathCommands]
  obtain ⟨_, hdir, hdenied, _, _, _, hres, _⟩ := passedDirs_nodes
  refine (search_guards passingShell (.ofLit "cd") (.ofLit "a") [] hk).1 1 hdir hdenied (.inl ?_)
  exact (fsResolve_eq_some passedDirs_wellFormed.navigable passedDirs_wellFormed.root_used).mpr hres

/-- `cd a/b` steps through `/a`, which `debian` may not search, and arrives below it. -/
theorem search_passes : WellFormed passedDirs ∧ fsCheckAccess passedDirs 1 shellUidDebian fsAccessExec = false ∧
    (passedDirs 2).parent.toInt = 1 ∧ resolve passedDirs 0 (CStr.ofLit "a").chars = some 1 ∧
    ∃ s', shellDispatch [.ofLit "cd", .ofLit "a/b"] passingShell = .ok s' ∧ s'.shellCwd = 2 := by
  obtain ⟨_, _, hdenied, hdir, hexec, hparent, hpass, hres⟩ := passedDirs_nodes
  have hr : fsResolve passedDirs 0 (.ofLit "a/b") = .ok 2 :=
    (fsResolve_eq_some passedDirs_wellFormed.navigable passedDirs_wellFormed.root_used).mpr hres
  have hcd : cmdCd passedDirs 0 [.ofLit "a/b"] shellUidDebian = .ok ([], 2) := by
    simp [cmdCd, hr, hdir, hexec]
    rfl
  refine ⟨passedDirs_wellFormed, hdenied, hparent, hpass, {passingShell with shellCwd := 2}.print [], ?_, rfl⟩
  rw [shellDispatch, commandOf_cd]
  show passingShell.moves (cmdCd passedDirs 0 [.ofLit "a/b"] shellUidDebian) = _
  rw [hcd]
  rfl

end FurOS
