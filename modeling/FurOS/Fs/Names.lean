import FurOS.Fs.Edits

/-! Files by their names in a directory.

What `fs_touch` and `fs_write_file` do with a path of one name, whatever the table and wherever they
are called: they refuse where a directory has the name, or nothing has it and no slot is free, and
leave the table as it is; else the file is there. -/
namespace FurOS

/-- The file `f` is called `name` in `dir`. -/
structure HasFile (t : Nodes) (dir : Int) (name : List UInt8) (f : NodeId) : Prop where
  found : findChild t dir name = some f
  file : (t f).isDir = false

/-- There is a file of that name in `dir`, or room for one. -/
def Accepts (t : Nodes) (dir : Int) (name : List UInt8) : Prop :=
  (∃ f, HasFile t dir name f) ∨ findChild t dir name = none ∧ ∃ i, i ≠ 0 ∧ (t i).used = false

/-- A directory stands in the way of a file of its name. -/
theorem not_accepts_dir {t : Nodes} {dir : Int} {name : List UInt8} {e : NodeId}
    (he : findChild t dir name = some e) (hdir : (t e).isDir = true) : ¬ Accepts t dir name := by
  intro hacc
  rcases hacc with ⟨f, hfound, hfile⟩ | ⟨hnone, -⟩
  · rw [he] at hfound
    cases hfound
    rw [hdir] at hfile
    cases hfile
  · rw [he] at hnone
    cases hnone

/-- A name is looked for where the call is made. -/
theorem resolveParentAndLeaf_name {path : CStr} (h : PlainName path.chars) (t : Nodes) (cwd : Int) :
    ∃ leaf : Name, leaf.chars = path.chars ∧ resolveParentAndLeaf t cwd path = .ok (some (cwd, leaf)) := by
  have hvalid : isValidName path.chars = true := (isValidName_iff _).mpr ⟨h.ne_nil, h.no_slash, h.length_le⟩
  refine ⟨⟨path.chars, path.noNul, hvalid⟩, rfl, ?_⟩
  have hspec := lastSlash_spec path.chars
  unfold resolveParentAndLeaf validLeaf
  rw [if_neg h.ne_nil, dif_pos hvalid]
  cases hslash : lastSlash path.chars with
  | none => rfl
  | some k =>
    rw [hslash] at hspec
    exact absurd (hspec.2.1 ▸ List.mem_append_right _ List.mem_cons_self) h.no_slash

/-- The name of a node that a free slot has become finds it. -/
theorem findChild_alloc {t t₁ : Nodes} {n : NodeId} (ha : allocNode t = some (n, t₁)) {cwd : Int32} {leaf : Name}
    (hnone : findChild t cwd.toInt leaf.chars = none) {dir : Bool} {owner mode : UInt16}
    {make : Int → Name → FsNode → FsNode} (hmake : Makes dir owner mode make) :
    findChild (Function.update t₁ n (make cwd.toInt leaf (t₁ n))) cwd.toInt leaf.chars = some n := by
  have hused := (allocNode_empty ha).1
  refine findChild_eq_some_iff.mpr ⟨⟨?_, ?_, ?_⟩, fun j hj hmatch => ?_⟩
  · rw [Function.update_self, hmake.used, hused]
  · rw [Function.update_self, hmake.parent, Int32.ofInt_toInt]
  · rw [Function.update_self, hmake.name]
    exact cstr_kstrcpy _ _ leaf.noNul (Nat.lt_succ_of_le leaf.length_le)
  · unfold Matches at hmatch
    rw [Function.update_of_ne hj.ne, allocNode_other ha j hj.ne] at hmatch
    exact findChild_eq_none.mp hnone j hmatch.1 hmatch.2.1 hmatch.2.2

/-- **`fs_touch` of a name**: refused, or the file is there. -/
theorem fsTouch_name {path : CStr} (h : PlainName path.chars) (t : Nodes) (cwd : Int32) :
    (¬ Accepts t cwd.toInt path.chars ∧ fsTouch t cwd.toInt path = .ok (-1, t)) ∨
      Accepts t cwd.toInt path.chars ∧
        ∃ t₁ f, fsTouch t cwd.toInt path = .ok (0, t₁) ∧ HasFile t₁ cwd.toInt path.chars f := by
  obtain ⟨leaf, hleaf, hres⟩ := resolveParentAndLeaf_name h t cwd.toInt
  unfold fsTouch
  rw [fsTouchAs_eq, create, hres, Foundation.ok_bind, ← hleaf]
  dsimp only
  cases hf : findChild t cwd.toInt leaf.chars with
  | some e =>
    dsimp only
    cases hdir : (t e).isDir with
    | true => exact .inl ⟨not_accepts_dir hf hdir, rfl⟩
    | false => exact .inr ⟨.inl ⟨e, hf, hdir⟩, t, e, rfl, hf, hdir⟩
  | none =>
    dsimp only
    cases ha : allocNode t with
    | none =>
      refine .inl ⟨fun hacc => ?_, rfl⟩
      rcases hacc with ⟨f, hfound, -⟩ | ⟨-, i, hi, hfree⟩
      · rw [hf] at hfound
        cases hfound
      · rw [allocNode_eq_none_iff.mp ha i hi] at hfree
        cases hfree
    | some y =>
      obtain ⟨n, t₁⟩ := y
      have hmake := fileNode_makes 0 fsDefaultFileMode
      obtain ⟨hslot, hfree⟩ := allocNode_slot ha
      refine .inr ⟨.inr ⟨hf, n, hslot, hfree⟩, _, n, rfl, findChild_alloc ha hf hmake, ?_⟩
      rw [Function.update_self]
      exact hmake.isDir _ _ _

/-- A write to a file. -/
theorem fsWriteFile_hasFile {t : Nodes} {cwd : Int} {path : CStr} (h : PlainName path.chars) {f : NodeId}
    (hf : HasFile t cwd path.chars f) (bytes : List UInt8) :
    fsWriteFile t cwd path (some bytes) bytes.length = .ok (0, Function.update t f (fillNode (t f) bytes)) ∧
      HasFile (Function.update t f (fillNode (t f) bytes)) cwd path.chars f := by
  have hres : fsResolve t cwd path = .ok (f.val : Int) := by rw [fsResolve_name t cwd h, hf.found, toC_some]
  refine ⟨fsWriteFile_file hres hf.file bytes, ?_, ?_⟩
  · exact findChild_update hf.found id rfl rfl fun _ => (findChild_eq_some hf.found).1
  · rw [Function.update_self]
    exact hf.file

/-- **`fs_write_file` of a name**: refused, or the file is there with these bytes. -/
theorem fsWriteFile_name {path : CStr} (h : PlainName path.chars) (t : Nodes) (cwd : Int32) (bytes : List UInt8) :
    (¬ Accepts t cwd.toInt path.chars ∧ fsWriteFile t cwd.toInt path (some bytes) bytes.length = .ok (-1, t)) ∨
      Accepts t cwd.toInt path.chars ∧ ∃ t₁ f, HasFile t₁ cwd.toInt path.chars f ∧
        fsWriteFile t cwd.toInt path (some bytes) bytes.length = .ok
          (0, Function.update t₁ f (fillNode (t₁ f) bytes)) := by
  have htouch := fsTouch_name h t cwd
  cases hf : findChild t cwd.toInt path.chars with
  | some e =>
    cases hdir : (t e).isDir with
    | true =>
      refine .inl ⟨not_accepts_dir hf hdir, ?_⟩
      rw [fsWriteFile, fsResolve_name t cwd.toInt h, hf, toC_some, Foundation.ok_bind, if_neg (by omega),
        writeNode_dir t e hdir]
    | false =>
      have hfile : HasFile t cwd.toInt path.chars e := ⟨hf, hdir⟩
      exact .inr ⟨.inl ⟨e, hfile⟩, t, e, hfile, (fsWriteFile_hasFile h hfile bytes).1⟩
  | none =>
    have hres : fsResolve t cwd.toInt path = .ok (-1) := by rw [fsResolve_name t cwd.toInt h, hf, toC_none]
    rw [fsWriteFile, hres, Foundation.ok_bind, if_pos (by decide)]
    rcases htouch with ⟨hno, htouch⟩ | ⟨hacc, t₁, f, htouch, hfile⟩
    · rw [htouch, Foundation.ok_bind]
      exact .inl ⟨hno, rfl⟩
    · refine .inr ⟨hacc, t₁, f, hfile, ?_⟩
      have hres' : fsResolve t₁ cwd.toInt path = .ok (f.val : Int) := by
        rw [fsResolve_name t₁ cwd.toInt h, hfile.found, toC_some]
      rw [htouch, Foundation.ok_bind]
      dsimp only
      rw [if_neg (by decide), hres', Foundation.ok_bind, writeNode_file t₁ f hfile.file]

/-! ### Other names -/

/-- A write under another name goes elsewhere. -/
theorem writeTarget_ne {t : Nodes} {c f : NodeId} {path : CStr} (hpath : PlainName path.chars) {dir : Int}
    {name : List UInt8} (hname : path.chars ≠ name) (hf : findChild t dir name = some f) :
    writeTarget t (c.val : Int) path ≠ .ok (f.val : Int) := by
  intro h
  have hnot : ∀ {t' : Nodes}, findChild t' dir name = some f →
      fsResolve t' (c.val : Int) path ≠ .ok (f.val : Int) := by
    intro t' hf' hres
    rw [fsResolve_name t' c.val hpath] at hres
    have hval := Except.ok.inj hres
    cases hc : findChild t' (c.val : Int) path.chars with
    | none =>
      rw [hc, toC_none] at hval
      omega
    | some n =>
      rw [hc, toC_some] at hval
      obtain rfl : n = f := Fin.ext (by exact_mod_cast hval)
      exact hname ((findChild_eq_some hc).2.2.symm.trans (findChild_eq_some hf').2.2)
  obtain ⟨node, hres, h⟩ := Foundation.bind_eq_ok.mp h
  split at h
  · obtain ⟨⟨r, t₁⟩, htouch, h⟩ := Foundation.bind_eq_ok.mp h
    exact hnot ((fsTouchAs_edits (· ≠ f) htouch).kept hf).1 h
  · cases h
    exact hnot hf hres

/-- A write under another name leaves a node where it is, with its data. -/
theorem fsWriteFile_kept {t t' : Nodes} {c f : NodeId} {path : CStr}
    (hpath : PlainName path.chars) {bytes : List UInt8}
    {r : Int} (h : fsWriteFile t (c.val : Int) path (some bytes) bytes.length = .ok (r, t')) {dir : Int}
    {name : List UInt8} (hname : path.chars ≠ name) (hf : findChild t dir name = some f) :
    findChild t' dir name = some f ∧
      (t' f).isDir = (t f).isDir ∧ (t' f).data = (t f).data ∧ (t' f).size = (t f).size :=
  (fsWriteFile_edits (P := (· ≠ f)) h fun _ hn heq => writeTarget_ne hpath hname hf (heq ▸ hn)).kept hf

/-! ### Strings in files -/

/-- The file called `name` in `dir` has been written with this string. -/
def StoresString (t : Nodes) (dir : Int) (name bytes : List UInt8) : Prop :=
  ∃ f, HasFile t dir name f ∧ cstr (t f).data = bytes ∧ (t f).size.toNat = bytes.length

/-- A string that fits is terminated. -/
theorem cstr_fillNode (n : FsNode) {bytes : List UInt8} (h0 : 0 ∉ bytes) (hlen : bytes.length < 4096) :
    cstr (fillNode n bytes).data = bytes := by
  have hclamp : clampSize bytes.length = bytes.length := if_neg (by omega)
  refine cstr_update _ _ h0 hclamp fun i j hj hij => ?_
  rw [dif_pos (by omega)]
  simp only [hij]

theorem fsWriteFile_storesString {t t' : Nodes} {c : NodeId} {path : CStr} (hpath : PlainName path.chars)
    {bytes : List UInt8} (h0 : 0 ∉ bytes) (hlen : bytes.length < 4096)
    (h : fsWriteFile t (c.val : Int) path (some bytes) bytes.length = .ok (0, t')) :
    StoresString t' (c.val : Int) path.chars bytes := by
  have hcases := fsWriteFile_name hpath t (Int32.ofInt c.val) bytes
  rw [parent_toInt, h] at hcases
  rcases hcases with ⟨_, hfail⟩ | ⟨_, t₁, f, hf, hok⟩
  · cases hfail
  · cases hok
    refine ⟨f, (fsWriteFile_hasFile hpath hf bytes).2, ?_, ?_⟩
    · rw [Function.update_self]
      exact cstr_fillNode _ h0 hlen
    · rw [Function.update_self, fillNode_size]
      exact if_neg (by omega)

theorem StoresString.kept {t t' : Nodes} {c : NodeId} {path : CStr}
    (hpath : PlainName path.chars) {bytes : List UInt8}
    {r : Int} (h : fsWriteFile t (c.val : Int) path (some bytes) bytes.length = .ok (r, t')) {dir : Int}
    {name old : List UInt8} (hname : path.chars ≠ name) (hold : StoresString t dir name old) :
    StoresString t' dir name old := by
  obtain ⟨f, hf, hbytes, hsize⟩ := hold
  obtain ⟨hfound, hdir, hdata, hsize'⟩ := fsWriteFile_kept hpath h hname hf.found
  exact ⟨f, ⟨hfound, hdir.trans hf.file⟩, by rw [hdata, hbytes], by rw [hsize', hsize]⟩

end FurOS
