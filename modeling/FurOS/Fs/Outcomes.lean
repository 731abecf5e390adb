import FurOS.Fs.Mutation

/-! The outcomes of one call of each operation.

On a well-formed table and from a used directory no call leaves an array. A
creation fails, finds the node there already or makes it; a write fails, fills an
existing file or makes one and fills it; a removal fails or frees one slot. A
failed call changes nothing. -/
namespace FurOS

/-! ### Reading -/

/-- What `fs_read_file` gives is a file's. -/
theorem fsReadFile_eq {t : Nodes} (wf : WellFormed t) {c : NodeId} (hc : (t c).used = true) (path : CStr) :
    fsReadFile t (c.val : Int) path = .ok ((resolve t c path.chars).bind fun n =>
      if (t n).isDir = true then none else some ((t n).data, (t n).size)) := by
  unfold fsReadFile
  rw [fsResolve_eq wf.navigable hc, Foundation.ok_bind]
  cases resolve t c path.chars with
  | none => rfl
  | some n =>
    rw [toC_some, if_neg (by omega), nodeIndex_ofNat, Foundation.ok_bind]
    cases hd : (t n).isDir with
    | true => simp [hd]; rfl
    | false => simp [hd]; rfl

/-- Reading the file that a path leads to, on any table. -/
theorem fsReadFile_file {t : Nodes} {cwd : Int} {path : CStr} {n : NodeId}
    (hr : fsResolve t cwd path = .ok (n.val : Int)) (hfile : (t n).isDir = false) :
    fsReadFile t cwd path = .ok (some ((t n).data, (t n).size)) := by
  unfold fsReadFile
  rw [hr, Foundation.ok_bind, if_neg (by omega), nodeIndex_ofNat, Foundation.ok_bind, hfile]
  rfl

/-! ### Creating -/

/-- What `fs_mkdir_as` (`dir`) and `fs_touch_as` (not `dir`) return and leave. -/
inductive Creation (t : Nodes) (c : NodeId) (path : CStr) (dir : Bool) (owner mode : UInt16) :
    Int → Nodes → Prop where
  | failed : (∀ p leaf, resolveParentAndLeaf t (c.val : Int) path = .ok (some (p, leaf)) →
      (∃ e, findChild t p leaf.chars = some e ∧ (t e).isDir ≠ dir) ∨
        findChild t p leaf.chars = none ∧ allocNode t = none) →
      Creation t c path dir owner mode (-1) t
  | found {p e : NodeId} {leaf : Name} : Parent t c path.chars p leaf →
      resolveParentAndLeaf t (c.val : Int) path = .ok (some ((p.val : Int), leaf)) →
      findChild t (p.val : Int) leaf.chars = some e → (t e).isDir = dir →
      Creation t c path dir owner mode 0 t
  | created {n p : NodeId} {leaf : Name} {t' : Nodes} : Parent t c path.chars p leaf →
      resolveParentAndLeaf t (c.val : Int) path = .ok (some ((p.val : Int), leaf)) →
      findChild t (p.val : Int) leaf.chars = none → allocNode t ≠ none →
      Created t t' n p leaf dir owner mode → Creation t c path dir owner mode 0 t'

theorem created_of_alloc {t t₁ : Nodes} {n : NodeId} (p : NodeId) (leaf : Name) {dir : Bool}
    {owner mode : UInt16} {make : Int → Name → FsNode → FsNode} (hmake : Makes dir owner mode make)
    (h : allocNode t = some (n, t₁)) :
    Created t (Function.update t₁ n (make p.val leaf (t₁ n))) n p leaf dir owner mode := by
  obtain ⟨hslot, hfree⟩ := allocNode_slot h
  obtain ⟨hu, hs, hz⟩ := allocNode_empty h
  refine ⟨hslot, hfree, fun i hi => ?_, ?_, ?_, ?_, ?_, ?_, ?_, fun hl => ?_, ?_, ?_⟩
  · rw [Function.update_of_ne hi, allocNode_other h i hi]
  · rw [Function.update_self, hmake.used, hu]
  · rw [Function.update_self, hmake.isDir]
  · rw [Function.update_self, hmake.parent, parent_toInt]
  · rw [Function.update_self, hmake.owner]
  · rw [Function.update_self, hmake.mode]
  · rw [Function.update_self, hmake.name]
    exact cstr_kstrcpy _ _ leaf.noNul (Nat.lt_succ_of_le leaf.length_le)
  · rw [Function.update_self, hmake.name]
    exact kstrcpy_last leaf ((allocNode_last h).trans hl)
  · rw [Function.update_self, hmake.size _ _ _ hs]
  · rw [Function.update_self, hmake.data _ _ _ hz]

section Create
variable {t : Nodes} (wf : WellFormed t) {c : NodeId} (hc : (t c).used = true) (hd : (t c).isDir = true)
include wf hc hd

theorem create_ok (path : CStr) {dir : Bool} {owner mode : UInt16} {found : Bool → Int}
    {make : Int → Name → FsNode → FsNode} (hfound : found dir = 0) (hother : ∀ b, b ≠ dir → found b = -1)
    (hmake : Makes dir owner mode make) :
    ∃ r t', create t (c.val : Int) path found make = .ok (r, t') ∧ Creation t c path dir owner mode r t' := by
  obtain ⟨o, ho, hpar⟩ := resolveParentAndLeaf_ok wf hc hd path
  unfold create
  rw [ho, Foundation.ok_bind]
  cases o with
  | none => exact ⟨-1, t, rfl, .failed fun p leaf h => by rw [ho] at h; cases h⟩
  | some x =>
    obtain ⟨p, leaf⟩ := x
    have hp := hpar p leaf rfl
    have hsame : ∀ p' leaf', resolveParentAndLeaf t (c.val : Int) path = .ok (some (p', leaf')) →
        p' = (p.val : Int) ∧ leaf' = leaf := fun p' leaf' h => by
      rw [ho] at h
      cases h
      exact ⟨rfl, rfl⟩
    dsimp only [Option.map_some]
    cases hf : findChild t (p.val : Int) leaf.chars with
    | some e =>
      refine ⟨found (t e).isDir, t, rfl, ?_⟩
      by_cases he : (t e).isDir = dir
      · rw [he, hfound]
        exact .found hp ho hf he
      · rw [hother _ he]
        refine .failed fun p' leaf' h => .inl ⟨e, ?_, he⟩
        obtain ⟨rfl, rfl⟩ := hsame p' leaf' h
        exact hf
    | none =>
      cases ha : allocNode t with
      | none =>
        refine ⟨-1, t, rfl, .failed fun p' leaf' h => .inr ⟨?_, ha⟩⟩
        obtain ⟨rfl, rfl⟩ := hsame p' leaf' h
        exact hf
      | some y =>
        obtain ⟨n, t₁⟩ := y
        exact ⟨0, _, rfl, .created hp ho hf (by simp [ha]) (created_of_alloc p leaf hmake ha)⟩

theorem fsMkdirAs_ok (path : CStr) (owner mode : UInt16) :
    ∃ r t', fsMkdirAs t (c.val : Int) path owner mode = .ok (r, t') ∧
      Creation t c path true owner mode r t' := by
  rw [fsMkdirAs_eq]
  exact create_ok wf hc hd path rfl (fun b hb => by rw [if_neg hb]) (dirNode_makes owner mode)

theorem fsTouchAs_ok (path : CStr) (owner mode : UInt16) :
    ∃ r t', fsTouchAs t (c.val : Int) path owner mode = .ok (r, t') ∧
      Creation t c path false owner mode r t' := by
  rw [fsTouchAs_eq]
  exact create_ok wf hc hd path rfl (fun b hb => by rw [if_pos (by simpa using hb)]) (fileNode_makes owner mode)

end Create

theorem Creation.wellFormed {t t' : Nodes} {c : NodeId} {path : CStr} {dir : Bool}
    {owner mode : UInt16} {r : Int} (h : Creation t c path dir owner mode r t') (wf : WellFormed t) :
    WellFormed t' := by
  cases h with
  | failed => exact wf
  | found => exact wf
  | created hp _ hf _ hcr => exact hcr.wellFormed wf hp.used hp.dir hf

theorem Creation.used {t t' : Nodes} {c : NodeId} {path : CStr} {dir : Bool} {owner mode : UInt16} {r : Int}
    (h : Creation t c path dir owner mode r t') {i : NodeId} (hi : (t i).used = true) : (t' i).used = true := by
  cases h with
  | failed => exact hi
  | found => exact hi
  | created _ _ _ _ hcr => exact (hcr.used_iff i).mpr (.inl hi)

theorem Creation.normal {t t' : Nodes} {c : NodeId} {path : CStr} {dir : Bool} {owner mode : UInt16}
    {r : Int} (h : Creation t c path dir owner mode r t') (hn : ∀ i, Normal (t i)) (i : NodeId) :
    Normal (t' i) := by
  cases h with
  | failed => exact hn i
  | found => exact hn i
  | created _ _ _ _ hcr => exact hcr.normal hn i

/-! ### Writing -/

/-- A node with its data replaced. -/
def fillNode (n : FsNode) (bytes : List UInt8) : FsNode :=
  {n with
    data := Function.update
      (fun i => if h : i.val < clampSize bytes.length ∧ i.val < bytes.length then bytes[i.val] else n.data i)
      ⟨clampSize bytes.length, clampSize_lt bytes.length⟩ 0
    size := UInt64.ofNat (clampSize bytes.length)}

theorem clampSize_le (size : Nat) : clampSize size ≤ size := by
  unfold clampSize
  split <;> omega

theorem fillNode_size (n : FsNode) (bytes : List UInt8) :
    (fillNode n bytes).size.toNat = clampSize bytes.length := by
  have := clampSize_lt bytes.length
  show (UInt64.ofNat (clampSize bytes.length)).toNat = _
  exact UInt64.toNat_ofNat_of_lt' (Nat.lt_trans this (by decide))

theorem fillNode_contained (n : FsNode) (bytes : List UInt8) (hm : n.mode ≤ 0o777) :
    Contained (fillNode n bytes) := by
  refine ⟨by rw [fillNode_size]; exact clampSize_lt _, ?_, hm⟩
  have hend : (⟨(fillNode n bytes).size.toNat, by rw [fillNode_size]; exact clampSize_lt _⟩ : Fin 4096) =
      ⟨clampSize bytes.length, clampSize_lt bytes.length⟩ := Fin.ext (fillNode_size n bytes)
  rw [hend]
  simp [fillNode]

/-- A filled node holds the bytes it was given, cut to 4095. -/
theorem contents_fillNode (n : FsNode) (bytes : List UInt8) :
    contents (fillNode n bytes) = bytes.take (clampSize bytes.length) := by
  have hlt := clampSize_lt bytes.length
  have hle := clampSize_le bytes.length
  unfold contents
  rw [fillNode_size]
  apply List.ext_getElem
  · simp only [List.length_take, List.length_ofFn]
    omega
  · intro i h1 h2
    simp only [List.length_take, List.length_ofFn] at h1 h2
    rw [List.getElem_take, List.getElem_take, List.getElem_ofFn]
    have hne : (⟨i, by omega⟩ : Fin 4096) ≠ ⟨clampSize bytes.length, hlt⟩ := by
      intro h
      have := congrArg Fin.val h
      simp only at this
      omega
    unfold fillNode
    dsimp only
    rw [Function.update_of_ne hne, dif_pos ⟨by show i < _; omega, by show i < _; omega⟩]

/-- The copy and the terminator, on a file. -/
theorem writeNode_file (t : Nodes) (n : NodeId) (hn : (t n).isDir = false) (bytes : List UInt8) :
    writeNode t (n.val : Int) (some bytes) bytes.length =
      .ok (0, Function.update t n (fillNode (t n) bytes)) := by
  have hneg : ¬ ((n.val : Int) < 0) := by omega
  have hle := clampSize_le bytes.length
  have hcopy : copyData (t n).data (some bytes) (clampSize bytes.length) = .ok fun i =>
      if h : i.val < clampSize bytes.length ∧ i.val < bytes.length then bytes[i.val] else (t n).data i := by
    unfold copyData
    dsimp only
    rw [if_neg (by omega)]
  unfold writeNode
  rw [if_neg hneg, nodeIndex_ofNat, Foundation.ok_bind, hn, if_neg (by decide), hcopy]
  rfl

theorem writeNode_dir (t : Nodes) (n : NodeId) (hn : (t n).isDir = true) (src : Option (List UInt8))
    (size : Nat) : writeNode t (n.val : Int) src size = .ok (-1, t) := by
  have hneg : ¬ ((n.val : Int) < 0) := by omega
  unfold writeNode
  rw [if_neg hneg, nodeIndex_ofNat, Foundation.ok_bind, hn, if_pos rfl]
  rfl

/-- Saving a buffer to the file that a path leads to. -/
theorem fsWriteFile_file {t : Nodes} {cwd : Int} {path : CStr} {e : NodeId}
    (hr : fsResolve t cwd path = .ok (e.val : Int)) (hfile : (t e).isDir = false) (bytes : List UInt8) :
    fsWriteFile t cwd path (some bytes) bytes.length =
      .ok (0, Function.update t e (fillNode (t e) bytes)) := by
  rw [fsWriteFile, hr, Foundation.ok_bind, if_neg (by omega), writeNode_file t e hfile]

/-- What `fs_write_file` returns and leaves. -/
inductive Writing (t : Nodes) (c : NodeId) (path : CStr) (bytes : List UInt8) : Int → Nodes → Prop where
  | directory {n : NodeId} : resolve t c path.chars = some n → (t n).isDir = true →
      Writing t c path bytes (-1) t
  | failed : resolve t c path.chars = none →
      (∀ p leaf, resolveParentAndLeaf t (c.val : Int) path = .ok (some (p, leaf)) →
        findChild t p leaf.chars = none → allocNode t = none) →
      Writing t c path bytes (-1) t
  | filled {n : NodeId} : resolve t c path.chars = some n → (t n).used = true → (t n).isDir = false →
      Writing t c path bytes 0 (Function.update t n (fillNode (t n) bytes))
  | created {n p : NodeId} {leaf : Name} {t' : Nodes} : resolve t c path.chars = none →
      Parent t c path.chars p leaf →
      resolveParentAndLeaf t (c.val : Int) path = .ok (some ((p.val : Int), leaf)) →
      findChild t (p.val : Int) leaf.chars = none → allocNode t ≠ none →
      Created t t' n p leaf false 0 fsDefaultFileMode →
      Writing t c path bytes 0 (Function.update t' n (fillNode (t' n) bytes))

/-- A path that leads nowhere does not end in a component that stays or goes up. -/
theorem Parent.no_dots {t : Nodes} (wf : WellFormed t) {c : NodeId} {path : List UInt8} {p : NodeId}
    {leaf : Name} (hpar : Parent t c path p leaf)
    (hnone : resolve t c path = none) : leaf.chars ≠ lit "." ∧ leaf.chars ≠ lit ".." ∧
      findChild t (p.val : Int) leaf.chars = none := by
  rw [hpar.resolve_eq] at hnone
  unfold stepName at hnone
  have hdot : leaf.chars ≠ lit "." := fun h => by
    rw [if_pos h] at hnone
    cases hnone
  rw [if_neg hdot] at hnone
  have hdots : leaf.chars ≠ lit ".." := fun h => by
    rw [if_pos h] at hnone
    split at hnone
    · cases hnone
    · obtain ⟨q, hq, _, _⟩ := wf.parent p hpar.used
      rw [parentOf_eq_some.mpr hq] at hnone
      cases hnone
  rw [if_neg hdots] at hnone
  exact ⟨hdot, hdots, hnone⟩

section Write
variable {t : Nodes} (wf : WellFormed t) {c : NodeId} (hc : (t c).used = true) (hd : (t c).isDir = true)
include wf hc hd

theorem fsWriteFile_ok (path : CStr) (bytes : List UInt8) :
    ∃ r t', fsWriteFile t (c.val : Int) path (some bytes) bytes.length = .ok (r, t') ∧
      Writing t c path bytes r t' := by
  unfold fsWriteFile
  rw [fsResolve_eq wf.navigable hc, Foundation.ok_bind]
  cases hr : resolve t c path.chars with
  | some n =>
    rw [toC_some, if_neg (by omega)]
    cases hdn : (t n).isDir with
    | true => exact ⟨-1, t, writeNode_dir t n hdn _ _, .directory hr hdn⟩
    | false => exact ⟨0, _, writeNode_file t n hdn bytes, .filled hr (resolve_used wf.navigable hc hr) hdn⟩
  | none =>
    rw [toC_none, if_pos (by decide)]
    obtain ⟨r, t', ht, hcr⟩ := fsTouchAs_ok wf hc hd path 0 fsDefaultFileMode
    unfold fsTouch
    rw [ht, Foundation.ok_bind]
    cases hcr with
    | failed hwhy =>
      refine ⟨-1, t, rfl, .failed hr fun p leaf h hnone => ?_⟩
      rcases hwhy p leaf h with ⟨e, he, _⟩ | ⟨_, ha⟩
      · rw [hnone] at he
        cases he
      · exact ha
    | found hp _ hf _ =>
      rw [(hp.no_dots wf hr).2.2] at hf
      cases hf
    | @created n p leaf t' hp hres hf ha hcr =>
      obtain ⟨hdot, hdots, _⟩ := hp.no_dots wf hr
      have wf' := hcr.wellFormed wf hp.used hp.dir hf
      have hc' : (t' c).used = true := (hcr.used_iff c).mpr (.inl hc)
      have hres' := hcr.resolve_eq wf wf' hc hp hdot hdots
      refine ⟨0, _, ?_, .created hr hp hres hf ha hcr⟩
      dsimp only
      rw [if_neg (by decide), fsResolve_eq wf'.navigable hc', Foundation.ok_bind, hres', toC_some]
      exact writeNode_file t' n hcr.dir bytes

end Write

theorem Writing.wellFormed {t t' : Nodes} {c : NodeId} {path : CStr} {bytes : List UInt8} {r : Int}
    (h : Writing t c path bytes r t') (wf : WellFormed t) : WellFormed t' := by
  cases h with
  | directory => exact wf
  | failed => exact wf
  | filled _ hu _ =>
    exact wf.update _ hu _ hu rfl rfl rfl (fillNode_contained _ _ (wf.contained _ hu).mode)
  | created _ hp _ hf _ hcr =>
    have wf' := hcr.wellFormed wf hp.used hp.dir hf
    exact wf'.update _ hcr.used _ hcr.used rfl rfl rfl
      (fillNode_contained _ _ (wf'.contained _ hcr.used).mode)

theorem Writing.normal {t t' : Nodes} {c : NodeId} {path : CStr} {bytes : List UInt8} {r : Int}
    (h : Writing t c path bytes r t') (hn : ∀ i, Normal (t i)) (i : NodeId) : Normal (t' i) := by
  have hfill : ∀ m, Normal m → Normal (fillNode m bytes) := fun m hm =>
    ⟨fillNode_contained m bytes hm.mode, hm.name⟩
  cases h with
  | directory => exact hn i
  | failed => exact hn i
  | filled => exact normal_update hn (hfill _ (hn _)) i
  | created _ _ _ _ _ hcr => exact normal_update (hcr.normal hn) (hfill _ (hcr.normal hn _)) i

/-! ### Removing -/

/-- What `fs_remove` returns and leaves. -/
inductive Removal (t : Nodes) (c : NodeId) (path : CStr) : Int → Nodes → Prop where
  | failed : (∀ n, resolve t c path.chars = some n → n ≠ 0 →
      ∃ i, (t i).used = true ∧ (t i).parent.toInt = n.val) → Removal t c path (-1) t
  | removed {n : NodeId} : resolve t c path.chars = some n → n ≠ 0 → (t n).used = true →
      (∀ i, (t i).used = true → (t i).parent.toInt ≠ n.val) →
      Removal t c path 0 (Function.update t n {t n with used := false})

theorem fsRemove_ok {t : Nodes} (wf : WellFormed t) {c : NodeId} (hc : (t c).used = true) (path : CStr) :
    ∃ r t', fsRemove t (c.val : Int) path = .ok (r, t') ∧ Removal t c path r t' := by
  unfold fsRemove
  rw [fsResolve_eq wf.navigable hc, Foundation.ok_bind]
  cases hr : resolve t c path.chars with
  | none => exact ⟨-1, t, rfl, .failed fun n hn _ => by rw [hr] at hn; cases hn⟩
  | some n =>
    rw [toC_some]
    by_cases h0 : n = 0
    · subst h0
      exact ⟨-1, t, rfl, .failed fun n hn h0 => by rw [hr] at hn; cases hn; exact absurd rfl h0⟩
    · have hpos : ¬ ((n.val : Int) ≤ 0) := fun h => h0 (Fin.ext (by show n.val = 0; omega))
      rw [if_neg hpos, nodeIndex_ofNat, Foundation.ok_bind]
      by_cases hch : ∃ i, (t i).used = true ∧ (t i).parent.toInt = n.val
      · have hdir : (t n).isDir = true := by
          by_contra hf
          obtain ⟨i, hi, hp⟩ := hch
          exact wf.no_children_of_file n i (by simpa using hf) hi hp
        refine ⟨-1, t, ?_, .failed fun m hm _ => by rw [hr] at hm; cases hm; exact hch⟩
        rw [if_pos (by simp [hdir, hch])]
        rfl
      · refine ⟨0, _, ?_, .removed hr h0 (resolve_used wf.navigable hc hr) fun i hi hp => hch ⟨i, hi, hp⟩⟩
        rw [if_neg (by simp only [hch, decide_false, Bool.and_false]; decide)]
        rfl

theorem Removal.wellFormed {t t' : Nodes} {c : NodeId} {path : CStr} {r : Int}
    (h : Removal t c path r t') (wf : WellFormed t) : WellFormed t' := by
  cases h with
  | failed => exact wf
  | removed _ h0 _ hch => exact wf.free _ h0 hch

theorem Removal.normal {t t' : Nodes} {c : NodeId} {path : CStr} {r : Int} (h : Removal t c path r t')
    (hn : ∀ i, Normal (t i)) (i : NodeId) : Normal (t' i) := by
  cases h with
  | failed => exact hn i
  | @removed n _ _ _ _ =>
    obtain ⟨⟨hs, hz, hm⟩, hl⟩ := hn n
    exact normal_update hn (m := {t n with used := false}) ⟨⟨hs, hz, hm⟩, hl⟩ i

/-! ### Owners and modes -/

theorem fsSetOwner_wellFormed {t : Nodes} (wf : WellFormed t) (node : Int) (owner : UInt16) :
    WellFormed (fsSetOwner t node owner).2 := by
  unfold fsSetOwner
  cases hn : usedNode t node with
  | none => exact wf
  | some i =>
    have hu := (usedNode_eq_some.mp hn).2
    obtain ⟨hs, hz, hm⟩ := wf.contained i hu
    exact wf.update i hu _ hu rfl rfl rfl ⟨hs, hz, hm⟩

theorem fsSetOwner_normal {t : Nodes} (hn : ∀ i, Normal (t i)) (node : Int) (owner : UInt16)
    (i : NodeId) : Normal ((fsSetOwner t node owner).2 i) := by
  unfold fsSetOwner
  cases usedNode t node with
  | none => exact hn i
  | some n =>
    obtain ⟨⟨hs, hz, hm⟩, hl⟩ := hn n
    exact normal_update hn (m := {t n with owner := owner}) ⟨⟨hs, hz, hm⟩, hl⟩ i

theorem fsSetMode_normal {t : Nodes} (hn : ∀ i, Normal (t i)) (node : Int) (mode : UInt16)
    (i : NodeId) : Normal ((fsSetMode t node mode).2 i) := by
  unfold fsSetMode
  cases usedNode t node with
  | none => exact hn i
  | some n =>
    obtain ⟨⟨hs, hz, _⟩, hl⟩ := hn n
    exact normal_update hn (m := {t n with mode := mode &&& 0o777}) ⟨⟨hs, hz, mask_mode mode⟩, hl⟩ i

theorem fsSetMode_wellFormed {t : Nodes} (wf : WellFormed t) (node : Int) (mode : UInt16) :
    WellFormed (fsSetMode t node mode).2 := by
  unfold fsSetMode
  cases hn : usedNode t node with
  | none => exact wf
  | some i =>
    have hu := (usedNode_eq_some.mp hn).2
    obtain ⟨hs, hz, _⟩ := wf.contained i hu
    exact wf.update i hu _ hu rfl rfl rfl ⟨hs, hz, mask_mode mode⟩

end FurOS
