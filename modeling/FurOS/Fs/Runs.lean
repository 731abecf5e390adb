import FurOS.Foundation.Run
import FurOS.Fs.Outcomes

/-! Sequences of filesystem operations.

Whatever is called, with whatever arguments, as long as each `cwd` is a used
directory when it is passed, the table stays well-formed and no index leaves its
array. -/
namespace FurOS

/-! ### Printing paths -/

/-- A set of numbers that the functions of `fs.c` can index by: slots whose strings end inside
their arrays, closed under going up, with the root and every used slot among them. -/
structure Bounded (t : Nodes) (P : Int → Prop) : Prop where
  slot : ∀ i, P i → ∃ n : NodeId, i = n.val
  parent : ∀ n : NodeId, P n.val → P (t n).parent.toInt
  name : ∀ n : NodeId, P n.val → (cstr (t n).name).length ≤ 31
  data : ∀ n : NodeId, P n.val → (cstr (t n).data).length < 4096
  size : ∀ n : NodeId, P n.val → (t n).size.toNat ≤ 4096
  used : ∀ n : NodeId, (t n).used = true → P n.val
  root : P 0

/-- An index that is a used slot. -/
def UsedSlot (t : Nodes) (i : Int) : Prop := ∃ n : NodeId, i = n.val ∧ (t n).used = true

theorem UsedSlot.used {t : Nodes} {n : NodeId} (h : UsedSlot t n.val) : (t n).used = true := by
  obtain ⟨m, hm, hu⟩ := h
  have : n = m := Fin.ext (by exact_mod_cast hm)
  rwa [this]

/-- In a well-formed table these are the used slots. -/
theorem WellFormed.bounded {t : Nodes} (wf : WellFormed t) : Bounded t (UsedSlot t) where
  slot := fun i ⟨n, hn, _⟩ => ⟨n, hn⟩
  parent := fun n hn => by
    obtain ⟨p, hp, hu, _⟩ := wf.parent n hn.used
    exact ⟨p, hp, hu⟩
  name := fun n hn => wf.name_le n hn.used
  data := fun n hn => by
    obtain ⟨hs, hz, _⟩ := wf.contained n hn.used
    exact Nat.lt_of_le_of_lt (Foundation.Buffer.text_length_le_of_eq 0 (t n).data _ hz) hs
  size := fun n hn => (wf.contained n hn.used).size.le
  used := fun n hn => ⟨n, rfl, hn⟩
  root := ⟨0, rfl, wf.root_used⟩

theorem Written.put_ok {cap : Nat} (out : Written cap) (s : List UInt8)
    (h : out.chars.length + s.length ≤ cap) :
    ∃ out', out.put s = .ok out' ∧ out'.chars = out.chars ++ s := by
  unfold Written.put
  rw [dif_pos (by simpa using h)]
  exact ⟨_, rfl, rfl⟩

section MakePath
variable {t : Nodes} {P : Int → Prop} (hP : Bounded t P)
include hP

/-- Going up meets such indices only. -/
theorem pathStack_ok {i : Int} (hi : P i) (stack : List Int) (hs : ∀ j ∈ stack, P j) (room : Nat) :
    ∃ full, pathStack t i stack room = .ok full ∧ ∀ j ∈ full, P j := by
  induction room generalizing i stack with
  | zero => exact ⟨stack, rfl, hs⟩
  | succ room ih =>
    by_cases h0 : i = 0
    · exact ⟨stack, by rw [pathStack, if_pos h0]; rfl, hs⟩
    · obtain ⟨n, hn⟩ := hP.slot i hi
      have hp := hP.parent n (hn ▸ hi)
      have hpush : ∀ j ∈ i :: stack, P j := by
        intro j hj
        rcases List.mem_cons.mp hj with rfl | hj
        · exact hi
        · exact hs j hj
      obtain ⟨full, hfull, hall⟩ := ih hp _ hpush
      refine ⟨full, ?_, hall⟩
      rw [pathStack, if_neg h0, nodeIndex_eq_ok.mpr hn, Foundation.ok_bind, hfull]

/-- Every name stored, with the `'/'` or the terminator after it, has room. -/
theorem putNames_ok {cap : Nat} (out : Written cap) (hroom : out.chars.length < cap) {stack : List Int}
    (hs : ∀ j ∈ stack, P j) : ∃ r, putNames t out stack = .ok r := by
  induction stack generalizing out with
  | nil =>
    obtain ⟨out', hout', _⟩ := out.put_ok [0] (by simp; omega)
    exact ⟨(0, out'), by rw [putNames, hout']; rfl⟩
  | cons i rest ih =>
    have hi := hs i List.mem_cons_self
    obtain ⟨n, rfl⟩ := hP.slot i hi
    have hle := hP.name n hi
    have hname : readStr (t n).name = .ok (cstr (t n).name) := by
      unfold readStr
      rw [if_pos (by omega)]
    rw [putNames, nodeIndex_ofNat, Foundation.ok_bind, hname, Foundation.ok_bind]
    by_cases hfull : out.chars.length + (cstr (t n).name).length + 1 ≥ cap
    · rw [if_pos hfull]
      exact ⟨_, rfl⟩
    · obtain ⟨out₁, hout₁, hch₁⟩ := out.put_ok (cstr (t n).name) (by omega)
      have hlen₁ := congrArg List.length hch₁
      rw [List.length_append] at hlen₁
      have hrest : ∀ j ∈ rest, P j := fun j hj => hs j (List.mem_cons_of_mem _ hj)
      rw [if_neg hfull, hout₁, Foundation.ok_bind]
      by_cases hlast : rest ≠ []
      · obtain ⟨out₂, hout₂, hch₂⟩ := out₁.put_ok [slash] (by simp; omega)
        have hlen₂ := congrArg List.length hch₂
        rw [List.length_append] at hlen₂
        rw [if_pos hlast, hout₂, Foundation.ok_bind]
        exact ih out₂ (by simp at hlen₂; omega) hrest
      · rw [if_neg hlast]
        exact ih out₁ (by omega) hrest

theorem fsMakePath_ok (node : Int) (cap : Nat) : ∃ r, fsMakePath t node cap = .ok r := by
  unfold fsMakePath
  dsimp only
  by_cases hcap : cap = 0
  · exact ⟨_, by rw [if_pos hcap]; rfl⟩
  rw [if_neg hcap]
  cases hn : usedNode t node with
  | none => exact ⟨_, rfl⟩
  | some n =>
    obtain ⟨hnode, hu⟩ := usedNode_eq_some.mp hn
    rw [if_neg (by simp)]
    by_cases h0 : node = 0
    · rw [if_pos h0]
      by_cases h2 : cap < 2
      · exact ⟨_, by rw [if_pos h2]; rfl⟩
      · obtain ⟨out, hout, _⟩ := Written.put_ok (⟨[], Nat.zero_le cap⟩ : Written cap) [slash, 0]
          (by simp; omega)
        exact ⟨(0, out), by rw [if_neg h2, hout]; rfl⟩
    · obtain ⟨stack, hstack, hall⟩ := pathStack_ok hP (hnode ▸ hP.used n hu) [] (by simp) 128
      rw [if_neg h0, hstack, Foundation.ok_bind]
      by_cases h1 : 1 ≥ cap
      · exact ⟨_, by rw [if_pos h1]; rfl⟩
      · obtain ⟨out, hout, hch⟩ := Written.put_ok (⟨[], Nat.zero_le cap⟩ : Written cap) [slash]
          (by simp; omega)
        rw [if_neg h1, hout, Foundation.ok_bind]
        exact putNames_ok hP out (by rw [hch]; simp; omega) hall

end MakePath

/-! ### No index out of range -/

/-- The functions that index `nodes[]` by stored and computed numbers stay inside every array. -/
structure Safe (t : Nodes) : Prop where
  resolve : ∀ cwd path, UsedDir t cwd → ∃ r, fsResolve t cwd path = .ok r
  parent : ∀ cwd path, UsedDir t cwd → ∃ r, resolveParentAndLeaf t cwd path = .ok r
  makePath : ∀ node cap, ∃ r, fsMakePath t node cap = .ok r

theorem WellFormed.safe {t : Nodes} (wf : WellFormed t) : Safe t where
  resolve := by
    intro cwd path h
    obtain ⟨c, rfl, hc, _⟩ := h
    exact ⟨_, fsResolve_eq wf.navigable hc path⟩
  parent := by
    intro cwd path h
    obtain ⟨c, rfl, hc, hd⟩ := h
    obtain ⟨o, ho, _⟩ := resolveParentAndLeaf_ok wf hc hd path
    exact ⟨_, ho⟩
  makePath := fsMakePath_ok wf.bounded

/-! ### Operations -/

inductive FsOp where
  | mkdirAs (cwd : Int) (path : CStr) (owner mode : UInt16)
  | touchAs (cwd : Int) (path : CStr) (owner mode : UInt16)
  | writeFile (cwd : Int) (path : CStr) (data : List UInt8)
  | remove (cwd : Int) (path : CStr)
  | setOwner (node : Int) (owner : UInt16)
  | setMode (node : Int) (mode : UInt16)

namespace FsOp

/-- What the call returns and leaves. -/
def call (t : Nodes) : FsOp → Except Fault (Int × Nodes)
  | mkdirAs cwd path owner mode => fsMkdirAs t cwd path owner mode
  | touchAs cwd path owner mode => fsTouchAs t cwd path owner mode
  | writeFile cwd path data => fsWriteFile t cwd path (some data) data.length
  | remove cwd path => fsRemove t cwd path
  | setOwner node owner => .ok (fsSetOwner t node owner)
  | setMode node mode => .ok (fsSetMode t node mode)

/-- The table the call leaves. -/
def run (op : FsOp) (t : Nodes) : Except Fault Nodes := do
  let (_, t) ← op.call t
  return t

/-- What callers promise: a `cwd` argument is a used directory. -/
def Admits (t : Nodes) : FsOp → Prop
  | mkdirAs cwd _ _ _ => UsedDir t cwd
  | touchAs cwd _ _ _ => UsedDir t cwd
  | writeFile cwd _ _ => UsedDir t cwd
  | remove cwd _ => UsedDir t cwd
  | setOwner _ _ => True
  | setMode _ _ => True

/-- One call: it does not fault, and keeps both what is promised of the used slots and what
holds of every slot. -/
theorem call_ok {t : Nodes} (wf : WellFormed t) (op : FsOp) (ha : op.Admits t) :
    ∃ r t', op.call t = .ok (r, t') ∧ WellFormed t' ∧
      ((∀ i, Normal (t i)) → ∀ i, Normal (t' i)) := by
  cases op with
  | mkdirAs cwd path owner mode =>
    obtain ⟨c, rfl, hc, hd⟩ := ha
    obtain ⟨r, t', h, hcr⟩ := fsMkdirAs_ok wf hc hd path owner mode
    exact ⟨r, t', h, hcr.wellFormed wf, hcr.normal⟩
  | touchAs cwd path owner mode =>
    obtain ⟨c, rfl, hc, hd⟩ := ha
    obtain ⟨r, t', h, hcr⟩ := fsTouchAs_ok wf hc hd path owner mode
    exact ⟨r, t', h, hcr.wellFormed wf, hcr.normal⟩
  | writeFile cwd path data =>
    obtain ⟨c, rfl, hc, hd⟩ := ha
    obtain ⟨r, t', h, hw⟩ := fsWriteFile_ok wf hc hd path data
    exact ⟨r, t', h, hw.wellFormed wf, hw.normal⟩
  | remove cwd path =>
    obtain ⟨c, rfl, hc, _⟩ := ha
    obtain ⟨r, t', h, hr⟩ := fsRemove_ok wf hc path
    exact ⟨r, t', h, hr.wellFormed wf, hr.normal⟩
  | setOwner node owner =>
    exact ⟨_, _, rfl, fsSetOwner_wellFormed wf node owner, fun hn => fsSetOwner_normal hn node owner⟩
  | setMode node mode =>
    exact ⟨_, _, rfl, fsSetMode_wellFormed wf node mode, fun hn => fsSetMode_normal hn node mode⟩

theorem run_ok {t : Nodes} (wf : WellFormed t) (op : FsOp) (ha : op.Admits t) :
    ∃ t', op.run t = .ok t' ∧ WellFormed t' ∧ ((∀ i, Normal (t i)) → ∀ i, Normal (t' i)) := by
  obtain ⟨r, t', h, hk⟩ := op.call_ok wf ha
  exact ⟨t', by rw [run, h]; rfl, hk⟩

theorem run_kept {t t' : Nodes} (wf : WellFormed t) {op : FsOp} (h : op.run t = .ok t')
    (ha : op.Admits t) : WellFormed t' ∧ ((∀ i, Normal (t i)) → ∀ i, Normal (t' i)) := by
  obtain ⟨t'', h', hk⟩ := op.run_ok wf ha
  rw [h] at h'
  cases h'
  exact hk

end FsOp

/-- **Every sequence of operations from `fs_init` keeps the table well-formed**, and no index
leaves its array, in the calls themselves or in a later resolution. -/
theorem fsOps_wellFormed (ops : List FsOp)
    (ha : Foundation.Admitted FsOp.run (fun t op => op.Admits t) fsInit ops) :
    ∃ ts, Foundation.trace FsOp.run fsInit ops = .ok ts ∧ ts.length = ops.length ∧
      ∀ t ∈ ts, WellFormed t ∧ Safe t := by
  refine Foundation.trace_invariant (P := fun t => WellFormed t ∧ Safe t) ?_
    ⟨wellFormed_fsInit, wellFormed_fsInit.safe⟩ ha
  rintro t op ⟨wf, _⟩ hadm
  obtain ⟨t', ht', wf', _⟩ := op.run_ok wf hadm
  exact ⟨t', ht', wf', wf'.safe⟩

/-- A directory made under the root, a file made in it and removed by a path that goes up and
down again, and a call on a node that does not exist. -/
theorem fsOps_wellFormed_mkdir_touch_rm :
    ∃ ts, Foundation.trace FsOp.run fsInit
        [.mkdirAs 0 (.ofLit "a") 7 0o700, .touchAs 0 (.ofLit "a/b") 7 0o600,
          .remove 0 (.ofLit "a/../a/b"), .setMode 500 0o777] = .ok ts ∧ ts.length = 4 ∧
      ∀ t ∈ ts, WellFormed t ∧ Safe t := by
  refine fsOps_wellFormed _ ⟨wellFormed_fsInit.usedDir_root, fun t₁ h₁ => ?_⟩
  have wf₁ := (FsOp.run_kept wellFormed_fsInit h₁ wellFormed_fsInit.usedDir_root).1
  refine ⟨wf₁.usedDir_root, fun t₂ h₂ => ?_⟩
  have wf₂ := (FsOp.run_kept wf₁ h₂ wf₁.usedDir_root).1
  exact ⟨wf₂.usedDir_root, fun t₃ _ => ⟨trivial, fun _ _ => trivial⟩⟩

/-- The tables that such sequences reach. -/
def FsReachable (t : Nodes) : Prop :=
  Foundation.Reachable FsOp.run (fun t op => op.Admits t) fsInit t

theorem FsReachable.invariant {t : Nodes} (h : FsReachable t) :
    WellFormed t ∧ ∀ i, Normal (t i) := by
  refine Foundation.Reachable.invariant (P := fun t => WellFormed t ∧ ∀ i, Normal (t i)) ?_
    ⟨wellFormed_fsInit, normal_fsInit⟩ h
  rintro t op t' ⟨wf, hn⟩ ha hr
  obtain ⟨wf', hn'⟩ := FsOp.run_kept wf hr ha
  exact ⟨wf', hn' hn⟩

/-! ### A directory and two files -/

/-- The table the call leaves, or the one before it. -/
def FsOp.done (op : FsOp) (t : Nodes) : Nodes :=
  match op.run t with
  | .ok t' => t'
  | .error _ => t

theorem FsReachable.done {t : Nodes} (h : FsReachable t) (op : FsOp) (ha : op.Admits t) :
    FsReachable (op.done t) := by
  unfold FsOp.done
  split
  · rename_i t' hrun
    exact .step h ha hrun
  · exact h

/-- A directory `a` of user 7, two bytes in `a/f` and one in `g`. -/
def nested : Nodes :=
  (FsOp.writeFile 0 (.ofLit "g") [3]).done
    ((FsOp.writeFile 0 (.ofLit "a/f") [1, 2]).done ((FsOp.mkdirAs 0 (.ofLit "a") 7 0o755).done fsInit))

theorem nested_reachable : FsReachable nested := by
  have h₁ : FsReachable ((FsOp.mkdirAs 0 (.ofLit "a") 7 0o755).done fsInit) :=
    FsReachable.done .start _ wellFormed_fsInit.usedDir_root
  have h₂ := h₁.done (.writeFile 0 (.ofLit "a/f") [1, 2]) h₁.invariant.1.usedDir_root
  exact h₂.done (.writeFile 0 (.ofLit "g") [3]) h₂.invariant.1.usedDir_root

theorem nested_wellFormed : WellFormed nested := nested_reachable.invariant.1

/-- The root, the directory in slot 1, its file in slot 2, and no name that a path steps over. -/
theorem nested_nodes : ((nested 0).owner = 0 ∧ (nested 0).mode = fsDefaultDirMode) ∧
    ((nested 1).used = true ∧ (nested 1).isDir = true ∧ parentOf nested 1 = some 0 ∧ cstr (nested 1).name = lit "a") ∧
    ((nested 2).used = true ∧ (nested 2).isDir = false ∧ parentOf nested 2 = some 1 ∧ cstr (nested 2).name = lit "f" ∧
      cstr (nested 2).data = [1, 2]) ∧
    ∀ i, (nested i).used = true → cstr (nested i).name ≠ lit "." ∧ cstr (nested i).name ≠ lit ".." := by
  decide +kernel

theorem nested_usedDir : UsedDir nested 1 := ⟨1, rfl, nested_nodes.2.1.1, nested_nodes.2.1.2.1⟩

theorem nested_file : (nested 2).used = true ∧ (nested 2).isDir = false ∧ cstr (nested 2).data = [1, 2] := by
  obtain ⟨-, -, ⟨hused, hfile, -, -, hdata⟩, -⟩ := nested_nodes
  exact ⟨hused, hfile, hdata⟩

end FurOS
