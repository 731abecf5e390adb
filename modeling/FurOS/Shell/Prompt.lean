import FurOS.Fs.Printing
import FurOS.Shell.Session

/-! The current directory, as `pwd` and the prompt show it.

`shell_build_path` gives `fs_make_path` a buffer of 128 bytes. Where that has room for the path
both show it, and it leads back to the directory; where it has not, both show `"/"`. -/
namespace FurOS
open Foundation (spell)

/-- `pwd` and the prompt show this path. -/
def Shown (s : System) (path : List UInt8) : Prop :=
  cmdPwd s.nodes s.shellCwd = .ok (shellPrintln path) ∧
    shellPrompt s = .ok (vgaWriteString (uidToName s.shellUid) ++ write "@furos:" ++ vgaWriteString path ++
      write (if s.shellUid = shellUidRoot then " # " else " $ "))

/-- The buffer of the shell takes a path of 126 characters. -/
theorem shellBuildPath_eq {t : Nodes} (wf : WellFormed t) {n : NodeId} (hn : (t n).used = true)
    {path : List UInt8} (hpath : AbsolutePath t n path) :
    shellBuildPath t (n.val : Int) = .ok (if roomFor n path ≤ 128 then some path else none) := by
  obtain ⟨⟨r, out⟩, hx, hstored⟩ := fsMakePath_stored wf hn hpath 128
  unfold shellBuildPath
  rw [hx, Foundation.ok_bind]
  rcases hstored with ⟨hr, hch, hfits⟩ | ⟨hr, hshort⟩
  · have hr' : r = 0 := hr
    have hch' : out.chars = path ++ [0] := hch
    have hchars : out.chars.takeWhile (fun c => decide (c ≠ 0)) = path := by
      have hne : ∀ c ∈ path, decide (c ≠ 0) = true := by
        intro c hc
        have hc0 : c ≠ 0 := fun h => hpath.noNul (h ▸ hc)
        simpa using hc0
      rw [hch', List.takeWhile_append_of_pos hne]
      simp
    dsimp only
    rw [if_neg (by simpa using hr'), if_pos hfits, hchars]
    rfl
  · have hr' : r = -1 := hr
    dsimp only
    rw [if_pos (by simp [hr']), if_neg (by omega)]
    rfl

/-- What the two show of the path, or of the lack of room for it. -/
theorem shown_of_buildPath {s : System} {o : Option (List UInt8)}
    (h : shellBuildPath s.nodes s.shellCwd = .ok o) : Shown s (o.getD (lit "/")) := by
  constructor
  · unfold cmdPwd
    rw [h, Foundation.ok_bind]
    cases o with
    | none => rfl
    | some path => rfl
  · unfold shellPrompt
    rw [h, Foundation.ok_bind]
    rfl

/-- **`pwd` tells the truth** where the path has at most 126 characters: what it and the prompt show
leads to the current directory. A path that does not fit the buffer is shown as `"/"`. -/
theorem pwd_true (s : System) (wf : WellFormed s.nodes)
    (hdots : ∀ i, (s.nodes i).used = true → cstr (s.nodes i).name ≠ lit "." ∧ cstr (s.nodes i).name ≠ lit "..")
    (hcwd : UsedDir s.nodes s.shellCwd) :
    ∃ (c : NodeId) (path : CStr), s.shellCwd = c.val ∧ AbsolutePath s.nodes c path.chars ∧
      (path.chars.length ≤ 126 →
        Shown s path.chars ∧ ∀ cwd : Int, fsResolve s.nodes cwd path = .ok s.shellCwd) ∧
      (128 ≤ path.chars.length → Shown s (lit "/")) := by
  obtain ⟨c, hc, hu, _⟩ := hcwd
  obtain ⟨path, hpath⟩ := wf.absolutePath hu
  have hbuild := shellBuildPath_eq wf hu hpath
  rw [← hc] at hbuild
  have hshown := shown_of_buildPath hbuild
  have hroom : roomFor c path ≤ path.length + 2 ∧ path.length + 1 ≤ roomFor c path := by
    unfold roomFor
    split
    · omega
    · omega
  refine ⟨c, ⟨path, hpath.noNul⟩, hc, hpath, fun hshort => ?_, fun hlong => ?_⟩
  · have hshort' : path.length ≤ 126 := hshort
    rw [if_pos (by omega)] at hshown
    refine ⟨hshown, fun cwd => ?_⟩
    obtain ⟨hhead, hres⟩ := hpath.resolve wf hdots hu 0
    rw [fsResolve_absolute hhead, hc]
    exact (fsResolve_eq_some wf.navigable wf.root_used).mpr hres
  · have hlong' : 128 ≤ path.length := hlong
    rwa [if_neg (by omega)] at hshown

/-- A session at `/a`. -/
def oneDirShell : System := {firstSession blankDisk [] with nodes := oneDir, shellCwd := 1}

theorem pwd_true_oneDir : ∃ (c : NodeId) (path : CStr), oneDirShell.shellCwd = c.val ∧
    AbsolutePath oneDir c path.chars ∧
    (path.chars.length ≤ 126 →
      Shown oneDirShell path.chars ∧ ∀ cwd : Int, fsResolve oneDir cwd path = .ok 1) ∧
    (128 ≤ path.chars.length → Shown oneDirShell (lit "/")) :=
  pwd_true oneDirShell oneDir_wellFormed oneDir_names ⟨1, rfl, oneDir_created.used, oneDir_created.dir⟩

/-! ### A directory too deep -/

/-- A name as long as they get. -/
def longName : Name := ⟨List.replicate 31 120, by decide, by decide⟩

/-- Directories of that name, one in the other. -/
def dirs : Nat → Nodes
  | 0 => fsInit
  | k + 1 => withDir (dirs k) (Fin.ofNat 128 (k + 1)) (Fin.ofNat 128 k) longName

/-- Four of them. -/
def deepDirs : Nodes := dirs 4

theorem dirs_take : Takes (dirs 0) 1 0 longName ∧ Takes (dirs 1) 2 1 longName ∧ Takes (dirs 2) 3 2 longName ∧
    Takes (dirs 3) 4 3 longName := by
  decide +kernel

theorem deepDirs_wellFormed : WellFormed deepDirs := by
  obtain ⟨h1, h2, h3, h4⟩ := dirs_take
  exact h4.wellFormed (h3.wellFormed (h2.wellFormed (h1.wellFormed wellFormed_fsInit)))

/-- The innermost, the names, and the way down. -/
theorem deepDirs_nodes : ((deepDirs 4).used = true ∧ (deepDirs 4).isDir = true) ∧
    (∀ i, (deepDirs i).used = true → cstr (deepDirs i).name ≠ lit "." ∧ cstr (deepDirs i).name ≠ lit "..") ∧
    (∀ i : NodeId, 0 < i.val → i.val ≤ 4 → parentOf deepDirs i = some (i - 1)) ∧
    namesOf deepDirs [1, 2, 3, 4] = List.replicate 4 longName.chars ∧
    ¬ roomFor 4 (spell slash (List.replicate 4 longName.chars)) ≤ 128 := by
  decide +kernel

theorem deepDirs_path : AbsolutePath deepDirs 4 (spell slash (List.replicate 4 longName.chars)) := by
  obtain ⟨_, _, hup, hnames, _⟩ := deepDirs_nodes
  refine ⟨[1, 2, 3, 4], ?_, by rw [if_neg (by simp), hnames]⟩
  refine .step (l := [1, 2, 3]) (by decide) (hup 4 (by decide) (by decide)) ?_
  refine .step (l := [1, 2]) (by decide) (hup 3 (by decide) (by decide)) ?_
  refine .step (l := [1]) (by decide) (hup 2 (by decide) (by decide)) ?_
  exact .step (l := []) (by decide) (hup 1 (by decide) (by decide)) .root

/-- A session in the innermost. -/
def deepShell : System := {firstSession blankDisk [] with nodes := deepDirs, shellCwd := 4}

/-- The path of 128 characters does not fit, and `"/"` leads to the root. -/
theorem pwd_falls_back : WellFormed deepDirs ∧
    (∀ i, (deepDirs i).used = true → cstr (deepDirs i).name ≠ lit "." ∧ cstr (deepDirs i).name ≠ lit "..") ∧
    UsedDir deepDirs 4 ∧ Shown deepShell (lit "/") ∧ fsResolve deepDirs 4 (.ofLit "/") ≠ .ok 4 := by
  obtain ⟨hused, hnames, _, _, hroom⟩ := deepDirs_nodes
  have hshown := shown_of_buildPath (s := deepShell) (shellBuildPath_eq deepDirs_wellFormed hused.1 deepDirs_path)
  rw [if_neg hroom] at hshown
  refine ⟨deepDirs_wellFormed, hnames, ⟨4, rfl, hused⟩, hshown, ?_⟩
  have hhead : (CStr.ofLit "/").chars.head? = some slash := by decide
  have hres : resolve deepDirs 0 (CStr.ofLit "/").chars = some 0 := rfl
  have hroot : fsResolve deepDirs 0 (.ofLit "/") = .ok 0 :=
    (fsResolve_eq_some deepDirs_wellFormed.navigable deepDirs_wellFormed.root_used).mpr hres
  rw [fsResolve_absolute hhead, hroot]
  simp

end FurOS
