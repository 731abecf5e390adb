import FurOS.Fs.Image
import FurOS.Fs.Runs

/-! What accepted images decode to.

Decoding clamps every slot by itself, so that encoding an accepted image again
loses nothing. It checks no relation between slots: parents, kinds and names come
from the records as they stand, and the table is a tree exactly when the records
are one. -/
namespace FurOS
open Foundation (Field)
open Foundation.Buffer (slice)

/-- **Whatever image was accepted, of either version, encoding the table gives a version 2 image
that decodes to the same table**, unused slots included. -/
theorem fsDeserialize_reencoded {len : Nat} (inp : Fin len → UInt8) (t s : Nodes)
    (h : fsDeserialize t inp = (0, s)) {maxLen : Nat} (out : Fin maxLen → UInt8)
    (hmax : 530192 ≤ maxLen) :
    (fsSerialize s out).1.val = 530192 ∧
      (∀ h, (FsDiskHeader.field.load (fsSerialize s out).2 0 h).version = 2) ∧
      ∀ (t' : Nodes) (len' : Nat) (hlen' : 0 + len' ≤ maxLen), 530192 ≤ len' →
        fsDeserialize t' (slice (fsSerialize s out).2 0 len' hlen') = (0, s) := by
  obtain ⟨records, _, _, rfl⟩ := fsDeserialize_eq_zero h
  refine ⟨by rw [fsSerialize_eq _ out hmax], fun _ => ?_, fun t' len' hlen' hle => ?_⟩
  · rw [fsSerialize_eq _ out hmax]
    dsimp only
    rw [Field.load_spliceAll_outside _ _ _ _ _ _ _ (.inl (by omega)), Field.load_store]
    rfl
  · rw [fsDeserialize_fsSerialize (resetRoot_normal fun i => load_normal (records i))
      (by rw [resetRoot_self]; rfl) (by rw [resetRoot_self]; rfl) out len' hle hlen' t',
      resetRoot_resetRoot]

/-- The shortest version 1 image: a root directory and 127 records of zeros. -/
def v1Image : Fin 529680 → UInt8 :=
  let b := FsDiskHeader.field.store (fun _ => 0) 0 {fsHeader with version := 1}
  Field.u8.store (Field.u8.store b 16 1) 17 1

theorem v1Image_read : readRecords v1Image =
    some fun i => (FsDiskNodeV1.get (slice v1Image (16 + i.val * 4138) 4138 (by omega))).upgrade := by
  have hheader : FsDiskHeader.field.load v1Image 0 (by decide) = {fsHeader with version := 1} := by
    unfold v1Image
    dsimp only
    rw [Field.load_store_disjoint _ _ _ _ _ _ _ (.inl (by decide)),
      Field.load_store_disjoint _ _ _ _ _ _ _ (.inl (by decide)), Field.load_store]
  unfold readRecords
  rw [dif_neg (by decide), hheader, if_neg (by decide), if_pos (by decide), dif_neg (by decide)]

/-- A version 1 image migrates. -/
theorem fsDeserialize_reencoded_v1 :
    ∃ s, fsDeserialize fsInit v1Image = (0, s) ∧
      ((fsSerialize s (fun _ : Fin 530192 => 0)).1.val = 530192 ∧
      (∀ h, (FsDiskHeader.field.load (fsSerialize s (fun _ : Fin 530192 => 0)).2 0 h).version = 2) ∧
      ∀ (t' : Nodes) (len' : Nat) (hlen' : 0 + len' ≤ 530192), 530192 ≤ len' →
        fsDeserialize t' (slice (fsSerialize s (fun _ : Fin 530192 => 0)).2 0 len' hlen') = (0, s)) := by
  have h := fsDeserialize_accepted v1Image_read ⟨by decide, by decide⟩ fsInit
  exact ⟨_, h, fsDeserialize_reencoded v1Image fsInit _ h _ (le_refl _)⟩

/-! ### Which images decode to a tree -/

/-- The name a record gives its slot: what stands before a terminator in its first 31 bytes. -/
def FsDiskNode.shortName (dn : FsDiskNode) : List UInt8 := cstr (slice dn.name 0 31 (by decide))

/-- The records of an image form a tree below record 0, as they are stored. -/
structure SoundRecords (r : NodeId → FsDiskNode) : Prop where
  tree : Foundation.Tree (fun i => (r i).used ≠ 0) (fun i => (r i).isDir ≠ 0)
    (fun i => slotOf (r i).parent) 0
  name_ne : ∀ i, (r i).used ≠ 0 → i ≠ 0 → (r i).shortName ≠ []
  name_slash : ∀ i, (r i).used ≠ 0 → i ≠ 0 → slash ∉ (r i).shortName
  siblings : ∀ i j, (r i).used ≠ 0 → (r j).used ≠ 0 → i ≠ 0 → j ≠ 0 →
    (r i).parent = (r j).parent → (r i).shortName = (r j).shortName → i = j

/-- A name ended at its last cell is the name of the cells before it. -/
theorem cstr_update_last (name : Fin 32 → UInt8) :
    cstr (Function.update name 31 0) = cstr (slice name 0 31 (by decide)) := by
  have hcells : List.ofFn (Function.update name 31 0) =
      List.ofFn (slice name 0 31 (by decide)) ++ [0] := by
    have hcell : ∀ j : Fin 31, Function.update name 31 0 j.castSucc = name j.castSucc := fun j =>
      Function.update_of_ne (Fin.castSucc_lt_last j).ne ..
    have hslice : ∀ j : Fin 31, slice name 0 31 (by decide) j = name j.castSucc := fun j => by
      unfold slice
      congr 1
      exact Fin.ext (Nat.zero_add j.val)
    have hlast : Function.update name 31 0 (Fin.last 31) = 0 := Function.update_self ..
    rw [List.ofFn_succ_last, hlast]
    simp only [hcell, ← hslice]
  unfold cstr Foundation.Buffer.text
  rw [hcells]
  generalize List.ofFn (slice name 0 31 (by decide)) = cells
  induction cells with
  | nil => rfl
  | cons x rest ih =>
    rw [List.cons_append, List.takeWhile_cons, List.takeWhile_cons, ih]

theorem Normal.name_length {n : FsNode} (hn : Normal n) : (cstr n.name).length ≤ 31 :=
  Foundation.Buffer.text_length_le_of_eq 0 n.name 31 hn.name

/-- Slots that are `Normal` need only be a tree to be well-formed. -/
theorem Structural.wellFormed {t : Nodes} (h : Structural t) (hn : ∀ i, Normal (t i))
    (hroot : cstr (t 0).name = lit "/") : WellFormed t :=
  ⟨h, hroot, fun i _ _ => (hn i).name_length, fun i _ => (hn i).toContained⟩

section Sound
variable {r : NodeId → FsDiskNode} (hroot : RootRecord r)
include hroot

theorem decoded_used (i : NodeId) :
    (resetRoot (fun i => (r i).load) i).used = true ↔ (r i).used ≠ 0 := by
  by_cases h0 : i = 0
  · subst h0
    rw [resetRoot_self]
    simp [rootNode, hroot.1]
  · rw [resetRoot_other _ h0]
    simp [FsDiskNode.load]

theorem decoded_isDir (i : NodeId) :
    (resetRoot (fun i => (r i).load) i).isDir = true ↔ (r i).isDir ≠ 0 := by
  by_cases h0 : i = 0
  · subst h0
    rw [resetRoot_self]
    simp [rootNode, hroot.2]
  · rw [resetRoot_other _ h0]
    simp [FsDiskNode.load]

omit hroot in
theorem decoded_parent {i : NodeId} (h0 : i ≠ 0) :
    (resetRoot (fun i => (r i).load) i).parent = (r i).parent := by
  rw [resetRoot_other _ h0]
  rfl

omit hroot in
theorem decoded_name {i : NodeId} (h0 : i ≠ 0) :
    cstr (resetRoot (fun i => (r i).load) i).name = (r i).shortName := by
  rw [resetRoot_other _ h0]
  exact cstr_update_last (r i).name

/-- The decoded table is a tree exactly when the records are one. -/
theorem decoded_structural_iff : Structural (resetRoot fun i => (r i).load) ↔ SoundRecords r := by
  have hu := decoded_used hroot
  have hd := decoded_isDir hroot
  constructor
  · intro h
    refine ⟨h.tree.congr (fun i => (hu i).symm) (fun i _ => (hd i).symm) fun i _ h0 => ?_, ?_, ?_, ?_⟩
    · unfold parentOf
      rw [decoded_parent h0]
    · intro i hi h0
      rw [← decoded_name h0]
      exact h.name_ne i ((hu i).mpr hi) h0
    · intro i hi h0
      rw [← decoded_name h0]
      exact h.name_slash i ((hu i).mpr hi) h0
    · intro i j hi hj hi0 hj0
      rw [← decoded_name hi0, ← decoded_name hj0, ← decoded_parent hi0, ← decoded_parent hj0]
      exact h.siblings i j ((hu i).mpr hi) ((hu j).mpr hj) hi0 hj0
  · intro h
    refine ⟨h.tree.congr hu (fun i _ => hd i) fun i _ h0 => ?_, by rw [resetRoot_self]; rfl, ?_, ?_, ?_⟩
    · unfold parentOf
      rw [decoded_parent h0]
    · intro i hi h0
      rw [decoded_name h0]
      exact h.name_ne i ((hu i).mp hi) h0
    · intro i hi h0
      rw [decoded_name h0]
      exact h.name_slash i ((hu i).mp hi) h0
    · intro i j hi hj hi0 hj0
      rw [decoded_name hi0, decoded_name hj0, decoded_parent hi0, decoded_parent hj0]
      exact h.siblings i j ((hu i).mp hi) ((hu j).mp hj) hi0 hj0

omit hroot in
/-- A decoded table that is a tree is well-formed. -/
theorem decoded_wellFormed (h : Structural (resetRoot fun i => (r i).load)) :
    WellFormed (resetRoot fun i => (r i).load) := by
  refine h.wellFormed (resetRoot_normal fun i => load_normal (r i)) ?_
  rw [resetRoot_self]
  exact cstr_kstrcpy _ _ (by decide) (by decide)

end Sound

/-- **What an accepted image decodes to can be indexed safely exactly when its records form a
tree**: no parent, name or pair of siblings is checked while decoding. -/
theorem fsDeserialize_sound_iff {len : Nat} (inp : Fin len → UInt8) (t s : Nodes)
    (h : fsDeserialize t inp = (0, s)) :
    Structural s ∧ Safe s ↔ ∃ records, readRecords inp = some records ∧ SoundRecords records := by
  obtain ⟨records, hr, hroot, rfl⟩ := fsDeserialize_eq_zero h
  constructor
  · intro hboth
    obtain ⟨hs, _⟩ := hboth
    exact ⟨records, hr, (decoded_structural_iff hroot).mp hs⟩
  · intro hboth
    obtain ⟨records', hr', hs'⟩ := hboth
    rw [hr] at hr'
    cases hr'
    have hs := (decoded_structural_iff hroot).mpr hs'
    exact ⟨hs, (decoded_wellFormed hs).safe⟩

theorem fsDeserialize_sound_iff_v1 :
    ∃ s, fsDeserialize fsInit v1Image = (0, s) ∧
      (Structural s ∧ Safe s ↔ ∃ records, readRecords v1Image = some records ∧ SoundRecords records) := by
  have h := fsDeserialize_accepted v1Image_read ⟨by decide, by decide⟩ fsInit
  exact ⟨_, h, fsDeserialize_sound_iff v1Image fsInit _ h⟩

/-- A file `x` whose parent is no slot. -/
def orphanTable : Nodes :=
  Function.update fsInit 1
    {FsNode.zero with used := true, parent := 1000000, name := kstrcpy FsNode.zero.name (lit "x")}

/-- The image with the orphan is accepted, and printing the orphan's path reads `nodes[1000000]`. -/
theorem fsDeserialize_orphan :
    ∃ s, fsDeserialize fsInit (fsImage orphanTable) = (0, s) ∧ ¬ Structural s ∧
      fsMakePath s 1 128 = .error (.nodes 1000000) := by
  have hother : ∀ i, i ≠ 1 → orphanTable i = fsInit i := fun i hi => Function.update_of_ne hi ..
  have hself : orphanTable 1 = {FsNode.zero with
      used := true, parent := 1000000, name := kstrcpy FsNode.zero.name (lit "x")} :=
    Function.update_self ..
  have hn : ∀ i, Normal (orphanTable i) := by
    intro i
    by_cases hi : i = 1
    · subst hi
      rw [hself]
      exact ⟨⟨by decide, rfl, by decide⟩, by decide⟩
    · rw [hother i hi]
      exact normal_fsInit i
  have h0 : orphanTable 0 = fsInit 0 := hother 0 (by decide)
  refine ⟨resetRoot orphanTable, ?_, fun hs => ?_, rfl⟩
  · exact fsDeserialize_fsSerialize hn (by rw [h0, fsInit_root]) (by rw [h0, fsInit_root]) _ _
      (le_refl _) _ _
  · have h1 : resetRoot orphanTable 1 = orphanTable 1 := resetRoot_other _ (by decide)
    obtain ⟨p, hp, _⟩ := hs.tree.parent_live 1 (by rw [h1, hself]) (by decide)
    rw [parentOf_eq_some, h1, hself] at hp
    have hlt := p.isLt
    have : (1000000 : Int) = p.val := hp
    omega

end FurOS
