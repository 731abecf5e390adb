import FurOS.Foundation.Fallible
import FurOS.Kstring
import Mathlib.Data.Fin.Tuple.Basic

/-! The node table of the in-memory filesystem (`kernel/fs.c`).

`nodes` is a table of 128 slots (`FS_MAX_NODES`), each with a name of at most 31
characters (`FS_MAX_NAME`) in 32 bytes and up to 4095 bytes of data in 4096
(`FS_MAX_FILE_SIZE`). A C `int` that indexes the table need not be an index of
it: `nodeIndex` stands for the access `nodes[i]`, and answers a `Fault` where the
C program would leave the array. A loop over the slots is `Fin.find?`, which tries
them in order. -/
namespace FurOS

/-- An access outside an array. -/
inductive Fault where
  /-- `nodes[index]` outside the table. -/
  | nodes (index : Int)
  /-- A write at `index` of a local buffer it does not have. -/
  | buffer (index : Nat)
  /-- A copy of more bytes than its source has. -/
  | source (count : Nat)
  /-- A string read on past the end of its array. -/
  | unterminated
  /-- A read at `index` of a file's data. -/
  | data (index : Nat)
  deriving DecidableEq

abbrev NodeId := Fin 128

instance neZero_nodes : NeZero 128 := ⟨by decide⟩
instance neZero_name : NeZero 32 := ⟨by decide⟩
instance neZero_data : NeZero 4096 := ⟨by decide⟩

structure FsNode where
  used : Bool
  isDir : Bool
  parent : Int32
  owner : UInt16
  mode : UInt16
  name : Fin 32 → UInt8
  data : Fin 4096 → UInt8
  size : UInt64

/-- `nodes[FS_MAX_NODES]`. -/
abbrev Nodes := NodeId → FsNode

/-- The slot that `nodes[i]` is. -/
def nodeIndex (i : Int) : Except Fault NodeId :=
  if h : 0 ≤ i ∧ i < 128 then .ok ⟨i.toNat, by omega⟩ else .error (.nodes i)

/-- The string of a character array, read up to its terminator. -/
def readStr {n : Nat} (a : Fin n → UInt8) : Except Fault (List UInt8) :=
  if (cstr a).length < n then .ok (cstr a) else .error .unterminated

def fsAccessRead : UInt8 := 4
def fsAccessWrite : UInt8 := 2
def fsAccessExec : UInt8 := 1
def fsDefaultDirMode : UInt16 := 0o755
def fsDefaultFileMode : UInt16 := 0o644

/-! ### Names -/

def isValidNameFrom (i : Nat) : List UInt8 → Bool
  | [] => true
  | ch :: rest =>
    if ch = slash then false
    else if i + 1 > 31 then false
    else isValidNameFrom (i + 1) rest

def isValidName (name : List UInt8) : Bool := !name.isEmpty && isValidNameFrom 0 name

theorem isValidNameFrom_iff (i : Nat) (name : List UInt8) (hi : i ≤ 31) :
    isValidNameFrom i name = true ↔ slash ∉ name ∧ i + name.length ≤ 31 := by
  induction name generalizing i with
  | nil => simpa [isValidNameFrom] using hi
  | cons ch rest ih =>
    simp only [isValidNameFrom, List.mem_cons, not_or, List.length_cons]
    by_cases hc : ch = slash
    · simp [hc]
    · by_cases hl : i + 1 > 31
      · simp only [hc, hl, if_false, if_true, Bool.false_eq_true, false_iff, not_and]
        omega
      · simp only [hc, hl, if_false, ih (i + 1) (by omega), Ne.symm hc, not_false_eq_true, true_and]
        constructor <;> rintro ⟨h1, h2⟩ <;> exact ⟨h1, by omega⟩

theorem isValidName_iff (name : List UInt8) :
    isValidName name = true ↔ name ≠ [] ∧ slash ∉ name ∧ name.length ≤ 31 := by
  simp [isValidName, isValidNameFrom_iff 0 name (by omega)]

/-- A component that `is_valid_name` accepts: what the table may hold as a name. -/
structure Name where
  chars : List UInt8
  noNul : 0 ∉ chars
  valid : isValidName chars = true

namespace Name

theorem ne_nil (n : Name) : n.chars ≠ [] := ((isValidName_iff n.chars).mp n.valid).1
theorem no_slash (n : Name) : slash ∉ n.chars := ((isValidName_iff n.chars).mp n.valid).2.1
theorem length_le (n : Name) : n.chars.length ≤ 31 := ((isValidName_iff n.chars).mp n.valid).2.2

end Name

/-! ### Slots -/

/-- The first free slot after the root's, made an empty file. -/
def allocNode (t : Nodes) : Option (NodeId × Nodes) :=
  match Fin.find? (fun i : NodeId => decide (i ≠ 0) && !(t i).used) with
  | none => none
  | some i => some (i, Function.update t i
      { used := true
        isDir := false
        parent := 0
        owner := 0
        mode := fsDefaultFileMode
        size := 0
        name := Function.update (t i).name 0 0
        data := Function.update (t i).data 0 0 })

/-- The first used slot with this parent and this name. -/
def findChild (t : Nodes) (parent : Int) (name : List UInt8) : Option NodeId :=
  Fin.find? fun i => (t i).used && decide ((t i).parent.toInt = parent) && decide (cstr (t i).name = name)

/-- All bytes zero. -/
def FsNode.zero : FsNode :=
  { used := false, isDir := false, parent := 0, owner := 0, mode := 0
    name := fun _ => 0, data := fun _ => 0, size := 0 }

def fsInit : Nodes :=
  Function.update (fun _ => FsNode.zero) 0
    { FsNode.zero with
      used := true
      isDir := true
      parent := 0
      owner := 0
      mode := fsDefaultDirMode
      name := kstrcpy FsNode.zero.name (lit "/") }

/-! ### Getters and setters -/

/-- The check every getter and setter begins with: `node` is the index of a used slot. -/
def usedNode (t : Nodes) (node : Int) : Option NodeId :=
  if h : 0 ≤ node ∧ node < 128 then
    if (t ⟨node.toNat, by omega⟩).used then some ⟨node.toNat, by omega⟩ else none
  else none

def fsGetRoot : Int := 0

def fsGetParent (t : Nodes) (node : Int) : Int :=
  match usedNode t node with
  | none => -1
  | some i => (t i).parent.toInt

def fsIsDir (t : Nodes) (node : Int) : Bool :=
  match usedNode t node with
  | none => false
  | some i => (t i).isDir

def fsGetName (t : Nodes) (node : Int) : Option (Fin 32 → UInt8) :=
  match usedNode t node with
  | none => none
  | some i => some (t i).name

def fsGetOwner (t : Nodes) (node : Int) : Int :=
  match usedNode t node with
  | none => -1
  | some i => (t i).owner.toNat

def fsGetMode (t : Nodes) (node : Int) : UInt16 :=
  match usedNode t node with
  | none => 0
  | some i => (t i).mode

def fsSetOwner (t : Nodes) (node : Int) (owner : UInt16) : Int × Nodes :=
  match usedNode t node with
  | none => (-1, t)
  | some i => (0, Function.update t i {t i with owner := owner})

def fsSetMode (t : Nodes) (node : Int) (mode : UInt16) : Int × Nodes :=
  match usedNode t node with
  | none => (-1, t)
  | some i => (0, Function.update t i {t i with mode := mode &&& 0o777})

def fsCheckAccess (t : Nodes) (node : Int) (user : UInt16) (mask : UInt8) : Bool :=
  match usedNode t node with
  | none => false
  | some i =>
    if mask = 0 then true
    else if user = 0 then true
    else
      let mode := (t i).mode &&& 0o777
      let allowed : UInt8 :=
        if user = (t i).owner then ((mode >>> 6) &&& 7).toUInt8 else (mode &&& 7).toUInt8
      decide (allowed &&& mask = mask)

/-! ### Lemmas -/

@[simp] theorem nodeIndex_ofNat (i : NodeId) : nodeIndex (i.val : Int) = .ok i := by
  have hi := i.isLt
  unfold nodeIndex
  rw [dif_pos (by omega)]
  rfl

theorem nodeIndex_eq_ok {i : Int} {n : NodeId} : nodeIndex i = .ok n ↔ i = n.val := by
  constructor
  · intro h
    unfold nodeIndex at h
    split at h
    · cases h
      show i = (i.toNat : Int)
      omega
    · cases h
  · intro heq
    subst heq
    exact nodeIndex_ofNat n

theorem usedNode_ofNat (t : Nodes) (i : NodeId) (h : (t i).used = true) :
    usedNode t (i.val : Int) = some i := by
  have hi := i.isLt
  unfold usedNode
  rw [dif_pos (by omega)]
  simp [h]

theorem usedNode_eq_some {t : Nodes} {node : Int} {i : NodeId} :
    usedNode t node = some i ↔ node = i.val ∧ (t i).used = true := by
  constructor
  · intro h
    unfold usedNode at h
    split at h
    · split at h
      · cases h
        refine ⟨?_, by assumption⟩
        show node = (node.toNat : Int)
        omega
      · cases h
    · cases h
  · intro hs
    obtain ⟨rfl, h⟩ := hs
    exact usedNode_ofNat t i h

theorem findChild_eq_some {t : Nodes} {parent : Int} {name : List UInt8} {i : NodeId}
    (h : findChild t parent name = some i) :
    (t i).used = true ∧ (t i).parent.toInt = parent ∧ cstr (t i).name = name := by
  have := (Fin.find?_eq_some_iff.mp h).1
  simpa [and_assoc] using this

theorem findChild_eq_none {t : Nodes} {parent : Int} {name : List UInt8} :
    findChild t parent name = none ↔
      ∀ i, (t i).used = true → (t i).parent.toInt = parent → cstr (t i).name ≠ name := by
  unfold findChild
  rw [Fin.find?_eq_none_iff]
  refine forall_congr' fun i => ?_
  cases (t i).used <;> simp

/-- `alloc_node` takes an unused slot other than the root's. -/
theorem allocNode_slot {t t' : Nodes} {n : NodeId} (h : allocNode t = some (n, t')) :
    n ≠ 0 ∧ (t n).used = false := by
  unfold allocNode at h
  split at h
  · cases h
  · rename_i i hf
    cases h
    have := (Fin.find?_eq_some_iff.mp hf).1
    simpa using this

/-- The only slot `alloc_node` changes is the one it returns. -/
theorem allocNode_other {t t' : Nodes} {n : NodeId} (h : allocNode t = some (n, t')) (i : NodeId)
    (hi : i ≠ n) : t' i = t i := by
  unfold allocNode at h
  split at h
  · cases h
  · cases h
    exact Function.update_of_ne hi _ _

end FurOS
