import FurOS.Fs.Resolution

/-! What resolution sees of a table: everything but the bytes of files.

`shape` erases the data and the size of every node. Paths, names, owners and modes
are read from the shape alone, so tables of one shape resolve, list and check alike.
`Extends` says that the used nodes of a table have kept their shape: it composes
along any sequence of creations and writes. -/
namespace FurOS

def FsNode.shape (n : FsNode) : FsNode := {n with data := fun _ => 0, size := 0}

/-- A table without the bytes of its files. -/
def shape (t : Nodes) : Nodes := fun i => (t i).shape

section Fields
variable (t : Nodes) (i : NodeId)

@[simp] theorem shape_used : (shape t i).used = (t i).used := rfl
@[simp] theorem shape_isDir : (shape t i).isDir = (t i).isDir := rfl
@[simp] theorem shape_parent : (shape t i).parent = (t i).parent := rfl
@[simp] theorem shape_owner : (shape t i).owner = (t i).owner := rfl
@[simp] theorem shape_mode : (shape t i).mode = (t i).mode := rfl
@[simp] theorem shape_name : (shape t i).name = (t i).name := rfl

end Fields

/-- Nodes of one shape agree in every field that `shape` keeps. -/
theorem FsNode.shape_field {β : Type} (f : FsNode → β) (hf : ∀ n, f n.shape = f n) {n m : FsNode}
    (h : n.shape = m.shape) : f n = f m := by
  rw [← hf n, h, hf m]

/-! ### Functions of the shape -/

section Functions
variable (t : Nodes)

theorem findChild_shape (parent : Int) (name : List UInt8) :
    findChild (shape t) parent name = findChild t parent name := rfl

theorem usedNode_shape (node : Int) : usedNode (shape t) node = usedNode t node := rfl

theorem fsIsDir_shape (node : Int) : fsIsDir (shape t) node = fsIsDir t node := by
  simp only [fsIsDir, usedNode_shape, shape_isDir]

theorem fsGetName_shape (node : Int) : fsGetName (shape t) node = fsGetName t node := by
  simp only [fsGetName, usedNode_shape, shape_name]

theorem fsGetOwner_shape (node : Int) : fsGetOwner (shape t) node = fsGetOwner t node := by
  simp only [fsGetOwner, usedNode_shape, shape_owner]

theorem fsCheckAccess_shape (node : Int) (user : UInt16) (mask : UInt8) :
    fsCheckAccess (shape t) node user mask = fsCheckAccess t node user mask := by
  simp only [fsCheckAccess, usedNode_shape, shape_mode, shape_owner]
  rfl

theorem fsList_shape (dir : Int) (maxOut : Nat) : fsList (shape t) dir maxOut = fsList t dir maxOut := by
  simp only [fsList, usedNode_shape, shape_used, shape_isDir, shape_parent]
  rfl

theorem enterToken_shape (current : Int) (tok : Token) :
    enterToken (shape t) current tok = enterToken t current tok := by
  unfold enterToken
  rw [findChild_shape]
  split
  · rfl
  split
  · rfl
  split
  · split
    · rfl
    · rfl
  · rfl

theorem resolveLoop_shape (current : Int) (tok : Token) (path : List UInt8) :
    resolveLoop (shape t) current tok path = resolveLoop t current tok path := by
  induction path generalizing current tok with
  | nil => rw [resolveLoop, resolveLoop, enterToken_shape]
  | cons ch rest ih =>
    rw [resolveLoop, resolveLoop, enterToken_shape]
    split
    · refine congrArg (enterToken t current tok >>= ·) (funext fun o => ?_)
      cases o with
      | none => rfl
      | some current => exact ih current Token.empty
    split
    · rfl
    · exact ih current _

theorem fsResolve_shape (cwd : Int) (path : CStr) : fsResolve (shape t) cwd path = fsResolve t cwd path := by
  simp only [fsResolve, resolveLoop_shape]

theorem resolveParentAndLeaf_shape (cwd : Int) (path : CStr) :
    resolveParentAndLeaf (shape t) cwd path = resolveParentAndLeaf t cwd path := by
  simp only [resolveParentAndLeaf, frontParent, fsResolve_shape, shape_isDir]
  rfl

theorem pathStack_shape (node : Int) (stack : List Int) (room : Nat) :
    pathStack (shape t) node stack room = pathStack t node stack room := by
  induction room generalizing node stack with
  | zero => rfl
  | succ room ih =>
    simp only [pathStack, ih, shape_parent]

theorem putNames_shape {cap : Nat} (out : Written cap) (stack : List Int) :
    putNames (shape t) out stack = putNames t out stack := by
  induction stack generalizing out with
  | nil => rfl
  | cons node rest ih =>
    simp only [putNames, ih, shape_name]

theorem fsMakePath_shape (node : Int) (cap : Nat) : fsMakePath (shape t) node cap = fsMakePath t node cap := by
  simp only [fsMakePath, usedNode_shape, pathStack_shape, putNames_shape]

end Functions

/-- The only way into a free slot is the same for tables of one shape. -/
theorem allocNode_eq_none_iff {t : Nodes} : allocNode t = none ↔ ∀ i : NodeId, i ≠ 0 → (t i).used = true := by
  unfold allocNode
  split
  · rename_i h
    simpa [Fin.find?_eq_none_iff] using h
  · rename_i i h
    have := (Fin.find?_eq_some_iff.mp h).1
    simp only [reduceCtorEq, false_iff, not_forall]
    exact ⟨i, by simpa using this⟩

/-! ### Tables that differ in the bytes of one file -/

/-- Only the bytes of the node `e` differ. -/
structure SameBut (e : NodeId) (t t' : Nodes) : Prop where
  shape : shape t' = shape t
  other : ∀ i, i ≠ e → t' i = t i

namespace SameBut
variable {t t' t'' : Nodes} {e : NodeId}

theorem refl (e : NodeId) (t : Nodes) : SameBut e t t := ⟨rfl, fun _ _ => rfl⟩

theorem trans (h : SameBut e t t') (h' : SameBut e t' t'') : SameBut e t t'' :=
  ⟨h'.shape.trans h.shape, fun i hi => (h'.other i hi).trans (h.other i hi)⟩

theorem field {β : Type} (h : SameBut e t t') (f : FsNode → β) (hf : ∀ n, f n.shape = f n) (i : NodeId) :
    f (t' i) = f (t i) := FsNode.shape_field f hf (congrFun h.shape i)

theorem used (h : SameBut e t t') (i : NodeId) : (t' i).used = (t i).used :=
  h.field FsNode.used (fun _ => rfl) i

theorem isDir (h : SameBut e t t') (i : NodeId) : (t' i).isDir = (t i).isDir :=
  h.field FsNode.isDir (fun _ => rfl) i

/-- What is read from the shape alone is the same. -/
theorem congr {β : Type} (h : SameBut e t t') (f : Nodes → β) (hf : ∀ t, f (FurOS.shape t) = f t) :
    f t' = f t := by
  rw [← hf t', h.shape, hf t]

theorem fsResolve (h : SameBut e t t') (cwd : Int) (path : CStr) :
    FurOS.fsResolve t' cwd path = FurOS.fsResolve t cwd path :=
  h.congr (fun t => FurOS.fsResolve t cwd path) fun t => fsResolve_shape t cwd path

/-- Changing the same slot in the same way, unless it is the one that differs. -/
theorem update (h : SameBut e t t') (n : NodeId) {m m' : FsNode} (hm : m'.shape = m.shape)
    (hn : n ≠ e → m' = m) : SameBut e (Function.update t n m) (Function.update t' n m') := by
  constructor
  · funext i
    show (Function.update t' n m' i).shape = (Function.update t n m i).shape
    by_cases hi : i = n
    · subst hi
      rw [Function.update_self, Function.update_self, hm]
    · rw [Function.update_of_ne hi, Function.update_of_ne hi]
      exact congrFun h.shape i
  · intro i hi
    by_cases hin : i = n
    · subst hin
      rw [Function.update_self, Function.update_self, hn hi]
    · rw [Function.update_of_ne hin, Function.update_of_ne hin, h.other i hi]

/-- New bytes in the node `e`. -/
theorem update_self {m : FsNode} (hm : m.shape = (t e).shape) : SameBut e t (Function.update t e m) := by
  have := (refl e t).update e hm (fun h => absurd rfl h)
  rwa [Function.update_eq_self] at this

end SameBut

/-! ### Used nodes that keep their shape -/

/-- Every used node is still there, with at most other bytes. -/
def Extends (t t' : Nodes) : Prop := ∀ i, (t i).used = true → (t' i).shape = (t i).shape

namespace Extends
variable {t t' t'' : Nodes}

theorem refl (t : Nodes) : Extends t t := fun _ _ => rfl

theorem used (h : Extends t t') {i : NodeId} (hi : (t i).used = true) : (t' i).used = true :=
  (FsNode.shape_field FsNode.used (fun _ => rfl) (h i hi)).trans hi

theorem trans (h : Extends t t') (h' : Extends t' t'') : Extends t t'' :=
  fun i hi => (h' i (h.used hi)).trans (h i hi)

theorem usedDir (h : Extends t t') {cwd : Int} (hc : UsedDir t cwd) : UsedDir t' cwd := by
  obtain ⟨c, hcwd, hu, hd⟩ := hc
  exact ⟨c, hcwd, h.used hu, (FsNode.shape_field FsNode.isDir (fun _ => rfl) (h c hu)).trans hd⟩

/-- A change of one slot that keeps its shape, or that was not in use. -/
theorem update {n : NodeId} {m : FsNode} (h : (t n).used = true → m.shape = (t n).shape) :
    Extends t (Function.update t n m) := by
  intro i hi
  by_cases hin : i = n
  · subst hin
    rw [Function.update_self]
    exact h hi
  · rw [Function.update_of_ne hin]

end Extends

/-- Making a node of the slot `alloc_node` returned leaves every used node as it was. -/
theorem allocNode_update_old {t t' : Nodes} {n : NodeId} (h : allocNode t = some (n, t')) (m : FsNode)
    {i : NodeId} (hi : (t i).used = true) : Function.update t' n m i = t i := by
  have hin : i ≠ n := by
    intro heq
    subst heq
    rw [(allocNode_slot h).2] at hi
    cases hi
  rw [Function.update_of_ne hin, allocNode_other h i hin]

theorem create_old {t t' : Nodes} {cwd : Int} {path : CStr} {found : Bool → Int}
    {make : Int → Name → FsNode → FsNode} {r : Int} (h : create t cwd path found make = .ok (r, t'))
    {i : NodeId} (hi : (t i).used = true) : t' i = t i := by
  obtain ⟨o, _, h⟩ := Foundation.bind_eq_ok.mp h
  cases o with
  | none =>
    cases h
    rfl
  | some x =>
    dsimp only at h
    split at h
    · cases h
      rfl
    · split at h
      · cases h
        rfl
      · rename_i ha
        cases h
        exact allocNode_update_old ha _ hi

theorem fsMkdirAs_old {t t' : Nodes} {cwd : Int} {path : CStr} {owner mode : UInt16} {r : Int}
    (h : fsMkdirAs t cwd path owner mode = .ok (r, t')) {i : NodeId} (hi : (t i).used = true) :
    t' i = t i := create_old (fsMkdirAs_eq .. ▸ h) hi

theorem fsTouchAs_old {t t' : Nodes} {cwd : Int} {path : CStr} {owner mode : UInt16} {r : Int}
    (h : fsTouchAs t cwd path owner mode = .ok (r, t')) {i : NodeId} (hi : (t i).used = true) :
    t' i = t i := create_old (fsTouchAs_eq .. ▸ h) hi

theorem fsMkdirAs_extends {t t' : Nodes} {cwd : Int} {path : CStr} {owner mode : UInt16} {r : Int}
    (h : fsMkdirAs t cwd path owner mode = .ok (r, t')) : Extends t t' :=
  fun _ hi => congrArg FsNode.shape (fsMkdirAs_old h hi)

theorem fsTouchAs_extends {t t' : Nodes} {cwd : Int} {path : CStr} {owner mode : UInt16} {r : Int}
    (h : fsTouchAs t cwd path owner mode = .ok (r, t')) : Extends t t' :=
  fun _ hi => congrArg FsNode.shape (fsTouchAs_old h hi)

theorem writeNode_extends {t t' : Nodes} {node : Int} {src : Option (List UInt8)} {size : Nat} {r : Int}
    (h : writeNode t node src size = .ok (r, t')) : Extends t t' := by
  unfold writeNode at h
  split at h
  · cases h
    exact .refl t
  · obtain ⟨n, _, h⟩ := Foundation.bind_eq_ok.mp h
    split at h
    · cases h
      exact .refl t
    · obtain ⟨data, _, h⟩ := Foundation.bind_eq_ok.mp h
      cases h
      exact .update fun _ => rfl

theorem fsWriteFile_extends {t t' : Nodes} {cwd : Int} {path : CStr} {src : Option (List UInt8)}
    {size : Nat} {r : Int} (h : fsWriteFile t cwd path src size = .ok (r, t')) : Extends t t' := by
  obtain ⟨node, _, h⟩ := Foundation.bind_eq_ok.mp h
  split at h
  · obtain ⟨⟨status, t₁⟩, ht, h⟩ := Foundation.bind_eq_ok.mp h
    have hext := fsTouchAs_extends ht
    dsimp only at h
    split at h
    · cases h
      exact hext
    · obtain ⟨node, _, h⟩ := Foundation.bind_eq_ok.mp h
      exact hext.trans (writeNode_extends h)
  · exact writeNode_extends h

end FurOS
