import FurOS.Foundation.ParentTree
import FurOS.Fs.Operations

/-! Well-formed node tables.

The used slots form one tree below slot 0, with directories inside and names that
`is_valid_name` accepts, different among siblings, and every used slot's data is
terminated inside its array. -/
namespace FurOS

/-- The slot that a stored parent is the index of. -/
def slotOf (parent : Int32) : Option NodeId :=
  if h : 0 ≤ parent.toInt ∧ parent.toInt < 128 then some ⟨parent.toInt.toNat, by omega⟩ else none

theorem slotOf_eq_some {parent : Int32} {p : NodeId} : slotOf parent = some p ↔ parent.toInt = p.val := by
  have hp := p.isLt
  unfold slotOf
  constructor
  · intro h
    split at h
    · cases h
      show parent.toInt = (parent.toInt.toNat : Int)
      omega
    · cases h
  · intro h
    rw [dif_pos (by omega)]
    congr 1
    apply Fin.ext
    show parent.toInt.toNat = p.val
    omega

/-- The parent of a slot. -/
def parentOf (t : Nodes) (i : NodeId) : Option NodeId := slotOf (t i).parent

theorem parentOf_eq_some {t : Nodes} {i p : NodeId} :
    parentOf t i = some p ↔ (t i).parent.toInt = p.val := slotOf_eq_some

theorem parentOf_congr {t t' : Nodes} {i : NodeId} (h : (t' i).parent = (t i).parent) :
    parentOf t' i = parentOf t i := by
  unfold parentOf
  rw [h]

/-- The used slots form a tree below slot 0, with directories inside. -/
def IsTree (t : Nodes) : Prop :=
  Foundation.Tree (fun i => (t i).used = true) (fun i => (t i).isDir = true) (parentOf t) 0

/-- The data of a node ends inside its array and its mode has permission bits only. -/
structure Contained (n : FsNode) : Prop where
  size : n.size.toNat < 4096
  data : n.data ⟨n.size.toNat, size⟩ = 0
  mode : n.mode ≤ 0o777

/-- What every slot keeps, in use or not: its data and its name end inside their arrays. -/
structure Normal (n : FsNode) : Prop extends Contained n where
  name : n.name 31 = 0

/-- What the operations index by: a tree below slot 0 with names that paths can spell. -/
structure Structural (t : Nodes) : Prop where
  tree : IsTree t
  root_parent : (t 0).parent = 0
  name_ne : ∀ i, (t i).used = true → i ≠ 0 → cstr (t i).name ≠ []
  name_slash : ∀ i, (t i).used = true → i ≠ 0 → slash ∉ cstr (t i).name
  siblings : ∀ i j, (t i).used = true → (t j).used = true → i ≠ 0 → j ≠ 0 →
    (t i).parent = (t j).parent → cstr (t i).name = cstr (t j).name → i = j

structure WellFormed (t : Nodes) : Prop extends Structural t where
  root_name : cstr (t 0).name = lit "/"
  name_length : ∀ i, (t i).used = true → i ≠ 0 → (cstr (t i).name).length ≤ 31
  contained : ∀ i, (t i).used = true → Contained (t i)

/-- An index that is a used directory: what a `cwd` has to be. -/
def UsedDir (t : Nodes) (cwd : Int) : Prop :=
  ∃ c : NodeId, cwd = c.val ∧ (t c).used = true ∧ (t c).isDir = true

namespace WellFormed
variable {t : Nodes} (wf : WellFormed t)
include wf

theorem root_used : (t 0).used = true := wf.tree.root_live
theorem root_dir : (t 0).isDir = true := wf.tree.root_inner
theorem usedDir_root : UsedDir t 0 := ⟨0, rfl, wf.root_used, wf.root_dir⟩

/-- A used node's parent pointer is the index of a used directory. -/
theorem parent (i : NodeId) (hi : (t i).used = true) :
    ∃ p, (t i).parent.toInt = (p : NodeId).val ∧ (t p).used = true ∧ (t p).isDir = true := by
  by_cases h0 : i = 0
  · subst h0
    exact ⟨0, by rw [wf.root_parent]; rfl, wf.root_used, wf.root_dir⟩
  · obtain ⟨p, hp, hu, hd⟩ := wf.tree.parent_live i hi h0
    exact ⟨p, parentOf_eq_some.mp hp, hu, hd⟩

theorem name_no_slash (i : NodeId) (hi : (t i).used = true) {name : List UInt8}
    (hn : slash ∉ name) (he : cstr (t i).name = name) : i ≠ 0 := by
  intro heq
  subst heq
  rw [wf.root_name] at he
  exact hn (he ▸ by decide)

theorem name_le (i : NodeId) (hi : (t i).used = true) : (cstr (t i).name).length ≤ 31 := by
  by_cases h0 : i = 0
  · subst h0
    rw [wf.root_name]
    decide
  · exact wf.name_length i hi h0

/-- A used node is the one its parent and its name find. -/
theorem findChild_self (i : NodeId) (hi : (t i).used = true) (h0 : i ≠ 0) :
    findChild t (t i).parent.toInt (cstr (t i).name) = some i := by
  cases hf : findChild t (t i).parent.toInt (cstr (t i).name) with
  | none => exact absurd rfl (findChild_eq_none.mp hf i hi rfl)
  | some j =>
    obtain ⟨hu, hp, hn⟩ := findChild_eq_some hf
    have hj : j ≠ 0 := wf.name_no_slash j hu (wf.name_slash i hi h0) hn
    rw [wf.siblings j i hu hi hj h0 (Int32.toInt_inj.mp hp) hn]

/-- A file has no children. -/
theorem no_children_of_file (n i : NodeId) (hn : (t n).isDir = false) (hi : (t i).used = true) :
    (t i).parent.toInt ≠ n.val := by
  intro hp
  obtain ⟨p, hp', _, hd⟩ := wf.parent i hi
  have : p = n := Fin.ext (by rw [hp'] at hp; exact_mod_cast hp)
  rw [this, hn] at hd
  cases hd

end WellFormed

/-! ### The empty filesystem -/

theorem fsInit_root : fsInit 0 =
    {FsNode.zero with
      used := true
      isDir := true
      parent := 0
      owner := 0
      mode := fsDefaultDirMode
      name := kstrcpy FsNode.zero.name (lit "/")} := Function.update_self ..

theorem fsInit_other (i : NodeId) (h : i ≠ 0) : fsInit i = FsNode.zero := Function.update_of_ne h ..

theorem fsInit_used (i : NodeId) : (fsInit i).used = true ↔ i = 0 := by
  by_cases h : i = 0
  · subst h
    simp [fsInit_root]
  · simp [fsInit_other i h, h, FsNode.zero]

theorem wellFormed_fsInit : WellFormed fsInit := by
  have hname : cstr (fsInit 0).name = lit "/" := by
    rw [fsInit_root]
    exact cstr_kstrcpy _ _ (by decide) (by decide)
  have hsame : ∀ i, (fsInit i).used = true → i ≠ 0 → False := fun i hi h0 => h0 ((fsInit_used i).mp hi)
  refine ⟨⟨⟨by rw [fsInit_root], by rw [fsInit_root], fun i hi h0 => (hsame i hi h0).elim, fun i hi => ?_⟩,
    by rw [fsInit_root], fun i hi h0 => (hsame i hi h0).elim, fun i hi h0 => (hsame i hi h0).elim,
    fun i j hi _ h0 => (hsame i hi h0).elim⟩, hname, fun i hi h0 => (hsame i hi h0).elim, fun i hi => ?_⟩
  · rw [(fsInit_used i).mp hi]
    exact .root
  · rw [(fsInit_used i).mp hi, fsInit_root]
    exact ⟨by decide, rfl, by decide⟩

theorem findChild_fsInit {parent : Int} {name : List UInt8} (h : name ≠ lit "/") :
    findChild fsInit parent name = none := by
  refine findChild_eq_none.mpr fun i hi _ => ?_
  rw [(fsInit_used i).mp hi, wellFormed_fsInit.root_name]
  exact h.symm

theorem normal_fsInit (i : NodeId) : Normal (fsInit i) := by
  by_cases h : i = 0
  · subst h
    rw [fsInit_root]
    exact ⟨⟨by decide, rfl, by decide⟩, by decide⟩
  · rw [fsInit_other i h]
    exact ⟨⟨by decide, rfl, by decide⟩, rfl⟩

end FurOS
