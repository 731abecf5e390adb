import FurOS.Fs.Printing
import FurOS.Fs.Shape

/-! What is left in a slot is never seen again.

Two well-formed tables are equivalent when they have the same used slots and agree on
everything those hold: kind, parent, owner, mode, name as a string, size, and as many
bytes of data as the size says. Free slots, the bytes behind a name and the bytes past
the end of a file may differ. No call tells such tables apart, and each leaves tables
that are equivalent again (`stale_unobservable`). -/
namespace FurOS
open Foundation (Agree)

/-- Two used slots that hold the same. -/
structure NodeAlike (n m : FsNode) : Prop where
  isDir : m.isDir = n.isDir
  parent : m.parent = n.parent
  owner : m.owner = n.owner
  mode : m.mode = n.mode
  name : cstr m.name = cstr n.name
  size : m.size = n.size
  contents : contents m = contents n

theorem NodeAlike.refl (n : FsNode) : NodeAlike n n := ⟨rfl, rfl, rfl, rfl, rfl, rfl, rfl⟩

structure Alike (t t' : Nodes) : Prop where
  used : ∀ i, (t' i).used = (t i).used
  node : ∀ i, (t i).used = true → NodeAlike (t i) (t' i)

/-- Well-formed tables that are alike. -/
structure Equivalent (t t' : Nodes) : Prop extends Alike t t' where
  left : WellFormed t
  right : WellFormed t'

namespace Alike
variable {t t' : Nodes} (h : Alike t t')
include h

/-- The same change of a slot, up to what is left in it. -/
theorem update (n : NodeId) {m m' : FsNode} (hu : m'.used = m.used) (hm : m.used = true → NodeAlike m m') :
    Alike (Function.update t n m) (Function.update t' n m') := by
  constructor
  · intro i
    by_cases hi : i = n
    · subst hi
      rw [Function.update_self, Function.update_self, hu]
    · rw [Function.update_of_ne hi, Function.update_of_ne hi, h.used]
  · intro i hi
    by_cases hin : i = n
    · subst hin
      rw [Function.update_self] at hi ⊢
      rw [Function.update_self]
      exact hm hi
    · rw [Function.update_of_ne hin] at hi ⊢
      rw [Function.update_of_ne hin]
      exact h.node i hi

theorem used' {i : NodeId} (hi : (t i).used = true) : (t' i).used = true := by rw [h.used, hi]

theorem usedNode (node : Int) : FurOS.usedNode t' node = FurOS.usedNode t node := by
  unfold FurOS.usedNode
  simp only [h.used]

theorem parentOf {i : NodeId} (hi : (t i).used = true) : FurOS.parentOf t' i = FurOS.parentOf t i :=
  parentOf_congr (h.node i hi).parent

/-- A child is found by its parent and its name, and these are the same. -/
theorem findChild (parent : Int) (name : List UInt8) :
    FurOS.findChild t' parent name = FurOS.findChild t parent name := by
  have hsame : (fun i => (t' i).used && decide ((t' i).parent.toInt = parent) && decide (cstr (t' i).name = name)) =
      fun i => (t i).used && decide ((t i).parent.toInt = parent) && decide (cstr (t i).name = name) := by
    funext i
    rw [h.used]
    cases hu : (t i).used with
    | false => rfl
    | true => rw [(h.node i hu).parent, (h.node i hu).name]
  unfold FurOS.findChild
  rw [hsame]

theorem stepName {c : NodeId} (hc : (t c).used = true) (name : List UInt8) :
    FurOS.stepName t' c name = FurOS.stepName t c name := by
  unfold FurOS.stepName
  rw [h.parentOf hc, h.findChild]

/-- The slot taken is the same, and made an empty file in both. -/
theorem allocNode : (allocNode t = none ∧ allocNode t' = none) ∨
    ∃ n m m', allocNode t = some (n, Function.update t n m) ∧ allocNode t' = some (n, Function.update t' n m') ∧
      m.used = true ∧ m'.used = true ∧ m.size = 0 ∧ m'.size = 0 := by
  have hfree : (fun i : NodeId => decide (i ≠ 0) && !(t' i).used) =
      fun i => decide (i ≠ 0) && !(t i).used := funext fun i => by rw [h.used i]
  unfold FurOS.allocNode
  rw [hfree]
  cases Fin.find? fun i : NodeId => decide (i ≠ 0) && !(t i).used with
  | none => exact .inl ⟨rfl, rfl⟩
  | some n => exact .inr ⟨n, _, _, rfl, rfl, rfl, rfl, rfl, rfl⟩

end Alike

/-! ### Functions of what the slots hold -/

/-- The two reads give the same: nothing, or the same size and as many of the same bytes. -/
def SameRead (x y : Except Fault (Option ((Fin 4096 → UInt8) × UInt64))) : Prop :=
  (x = .ok none ∧ y = .ok none) ∨ ∃ data data' size, x = .ok (some (data, size)) ∧ y = .ok (some (data', size)) ∧
    (List.ofFn data').take size.toNat = (List.ofFn data).take size.toNat

namespace Equivalent
variable {t t' : Nodes} (h : Equivalent t t')
include h

theorem walk {c : NodeId} (hc : (t c).used = true) (names : List (List UInt8)) :
    Foundation.walk (FurOS.stepName t') c names = Foundation.walk (FurOS.stepName t) c names :=
  Foundation.walk_congr (P := fun c => (t c).used = true) (fun _ _ _ hc hs => stepName_used h.left.navigable hc hs)
    (fun _ s hc => h.stepName hc s) hc names

theorem resolve {c : NodeId} (hc : (t c).used = true) (path : List UInt8) :
    FurOS.resolve t' c path = FurOS.resolve t c path := h.walk (startOf_used h.left.navigable hc path) _

theorem fsResolve {c : NodeId} (hc : (t c).used = true) (path : CStr) :
    FurOS.fsResolve t' (c.val : Int) path = FurOS.fsResolve t (c.val : Int) path := by
  rw [fsResolve_eq h.left.navigable hc, fsResolve_eq h.right.navigable (h.used' hc), h.resolve hc]

theorem parentNode {c : NodeId} (hc : (t c).used = true) (path : CStr) :
    FurOS.parentNode t' c path = FurOS.parentNode t c path := by
  have hstart := startOf_used h.left.navigable hc path.chars
  unfold FurOS.parentNode
  cases lastSlash path.chars with
  | none => rfl
  | some pos =>
    dsimp only
    rw [h.walk hstart]
    cases hp : Foundation.walk (FurOS.stepName t) (startOf c path.chars)
        (Foundation.components slash (path.chars.take pos)) with
    | none => rfl
    | some p => rw [Option.bind_some, Option.bind_some, (h.node p (walk_used h.left.navigable hstart hp)).isDir]

theorem resolveParentAndLeaf {c : NodeId} (hc : (t c).used = true) (path : CStr) :
    FurOS.resolveParentAndLeaf t' (c.val : Int) path = FurOS.resolveParentAndLeaf t (c.val : Int) path := by
  rw [resolveParentAndLeaf_eq h.left.navigable hc, resolveParentAndLeaf_eq h.right.navigable (h.used' hc),
    h.parentNode hc]

theorem fsReadFile {c : NodeId} (hc : (t c).used = true) (path : CStr) :
    SameRead (FurOS.fsReadFile t (c.val : Int) path) (FurOS.fsReadFile t' (c.val : Int) path) := by
  rw [fsReadFile_eq h.left hc, fsReadFile_eq h.right (h.used' hc), h.resolve hc]
  cases hr : FurOS.resolve t c path.chars with
  | none => exact .inl ⟨rfl, rfl⟩
  | some n =>
    have hn := h.node n (resolve_used h.left.navigable hc hr)
    rw [Option.bind_some, Option.bind_some, hn.isDir]
    cases (t n).isDir with
    | true => exact .inl ⟨rfl, rfl⟩
    | false =>
      refine .inr ⟨(t n).data, (t' n).data, (t n).size, rfl, ?_, ?_⟩
      · rw [← hn.size]
        rfl
      · have hsame := hn.contents
        unfold FurOS.contents at hsame
        rwa [hn.size] at hsame

theorem fsList (dir : Int) (maxOut : Nat) : FurOS.fsList t' dir maxOut = FurOS.fsList t dir maxOut := by
  have hsame : (fun i => (t' i).used && decide ((t' i).parent.toInt = dir) && decide ((i.val : Int) ≠ dir)) =
      fun i => (t i).used && decide ((t i).parent.toInt = dir) && decide ((i.val : Int) ≠ dir) := by
    funext i
    rw [h.used]
    cases hu : (t i).used with
    | false => simp
    | true => rw [(h.node i hu).parent]
  cases hd : FurOS.usedNode t dir with
  | none => simp only [FurOS.fsList, h.usedNode, hd]
  | some d =>
    have hdir := (h.node d (usedNode_eq_some.mp hd).2).isDir
    simp only [FurOS.fsList, h.usedNode, hd, hdir, hsame]

theorem pathStack {i : NodeId} (hi : (t i).used = true) (stack : List Int) (room : Nat) :
    FurOS.pathStack t' (i.val : Int) stack room = FurOS.pathStack t (i.val : Int) stack room := by
  induction room generalizing i stack with
  | zero => rfl
  | succ room ih =>
    obtain ⟨p, hp, hu, _⟩ := h.left.parent i hi
    rw [FurOS.pathStack, FurOS.pathStack]
    split
    · rfl
    · rw [nodeIndex_ofNat, Foundation.ok_bind, Foundation.ok_bind, (h.node i hi).parent, hp]
      exact ih hu _

theorem putNames {cap : Nat} (out : Written cap) {stack : List Int} (hs : ∀ j ∈ stack, UsedSlot t j) :
    FurOS.putNames t' out stack = FurOS.putNames t out stack := by
  induction stack generalizing out with
  | nil => rfl
  | cons j rest ih =>
    obtain ⟨n, rfl, hu⟩ := hs j List.mem_cons_self
    have hname : readStr (t' n).name = readStr (t n).name := by
      unfold readStr
      rw [(h.node n hu).name]
    have hrest : ∀ out : Written cap, FurOS.putNames t' out rest = FurOS.putNames t out rest :=
      fun out => ih out fun j hj => hs j (List.mem_cons_of_mem _ hj)
    simp only [FurOS.putNames, nodeIndex_ofNat, Foundation.ok_bind, hname, hrest]

theorem fsMakePath (node : Int) (cap : Nat) : FurOS.fsMakePath t' node cap = FurOS.fsMakePath t node cap := by
  unfold FurOS.fsMakePath
  rw [h.usedNode]
  cases hn : FurOS.usedNode t node with
  | none => rfl
  | some n =>
    obtain ⟨rfl, hu⟩ := usedNode_eq_some.mp hn
    obtain ⟨stack, hstack, hall⟩ := pathStack_ok h.left.bounded ⟨n, rfl, hu⟩ [] (by simp) 128
    simp only [h.pathStack hu, hstack, Foundation.ok_bind, h.putNames _ hall]

/-! ### Getters -/

theorem fsGetParent (node : Int) : FurOS.fsGetParent t' node = FurOS.fsGetParent t node := by
  unfold FurOS.fsGetParent
  rw [h.usedNode]
  cases hn : FurOS.usedNode t node with
  | none => rfl
  | some n => simp only [(h.node n (usedNode_eq_some.mp hn).2).parent]

theorem fsIsDir (node : Int) : FurOS.fsIsDir t' node = FurOS.fsIsDir t node := by
  unfold FurOS.fsIsDir
  rw [h.usedNode]
  cases hn : FurOS.usedNode t node with
  | none => rfl
  | some n => simp only [(h.node n (usedNode_eq_some.mp hn).2).isDir]

theorem fsGetName (node : Int) : (FurOS.fsGetName t' node).map cstr = (FurOS.fsGetName t node).map cstr := by
  unfold FurOS.fsGetName
  rw [h.usedNode]
  cases hn : FurOS.usedNode t node with
  | none => rfl
  | some n => simp only [Option.map_some, (h.node n (usedNode_eq_some.mp hn).2).name]

theorem fsGetOwner (node : Int) : FurOS.fsGetOwner t' node = FurOS.fsGetOwner t node := by
  unfold FurOS.fsGetOwner
  rw [h.usedNode]
  cases hn : FurOS.usedNode t node with
  | none => rfl
  | some n => simp only [(h.node n (usedNode_eq_some.mp hn).2).owner]

theorem fsGetMode (node : Int) : FurOS.fsGetMode t' node = FurOS.fsGetMode t node := by
  unfold FurOS.fsGetMode
  rw [h.usedNode]
  cases hn : FurOS.usedNode t node with
  | none => rfl
  | some n => simp only [(h.node n (usedNode_eq_some.mp hn).2).mode]

theorem fsCheckAccess (node : Int) (user : UInt16) (mask : UInt8) :
    FurOS.fsCheckAccess t' node user mask = FurOS.fsCheckAccess t node user mask := by
  unfold FurOS.fsCheckAccess
  rw [h.usedNode]
  cases hn : FurOS.usedNode t node with
  | none => rfl
  | some n =>
    have hnode := h.node n (usedNode_eq_some.mp hn).2
    simp only [hnode.mode, hnode.owner]

end Equivalent

/-! ### Changes -/

/-- What a call returns and leaves: the same status, and tables that are alike again. -/
abbrev SameResult (x y : Int × Nodes) : Prop := x.1 = y.1 ∧ Alike x.2 y.2

theorem contents_nil {n : FsNode} (h : n.size = 0) : contents n = [] := by
  unfold contents
  rw [h]
  rfl

/-- New nodes of the same kind hold the same, whatever was left in their slots. -/
theorem Makes.alike {dir : Bool} {owner mode : UInt16} {make : Int → Name → FsNode → FsNode}
    (hmake : Makes dir owner mode make) (p : Int) (leaf : Name) {m m' : FsNode} (hs : m.size = 0)
    (hs' : m'.size = 0) : NodeAlike (make p leaf m) (make p leaf m') := by
  have hname : ∀ name : Fin 32 → UInt8, cstr (kstrcpy name leaf.chars) = leaf.chars := fun name =>
    cstr_kstrcpy _ _ leaf.noNul (Nat.lt_succ_of_le leaf.length_le)
  constructor
  · rw [hmake.isDir, hmake.isDir]
  · rw [hmake.parent, hmake.parent]
  · rw [hmake.owner, hmake.owner]
  · rw [hmake.mode, hmake.mode]
  · rw [hmake.name, hmake.name, hname, hname]
  · rw [hmake.size _ _ _ hs, hmake.size _ _ _ hs']
  · rw [contents_nil (hmake.size _ _ _ hs), contents_nil (hmake.size _ _ _ hs')]

section Changes
variable {t t' : Nodes} (h : Equivalent t t')
include h

theorem create_alike {c : NodeId} (hc : (t c).used = true) (path : CStr) (found : Bool → Int) {dir : Bool}
    {owner mode : UInt16} {make : Int → Name → FsNode → FsNode} (hmake : Makes dir owner mode make) :
    Agree SameResult (create t (c.val : Int) path found make) (create t' (c.val : Int) path found make) := by
  unfold create
  rw [h.resolveParentAndLeaf hc]
  refine .bind_same fun o => ?_
  cases o with
  | none => exact .ok ⟨rfl, h.toAlike⟩
  | some x =>
    dsimp only
    rw [h.findChild]
    cases he : findChild t x.1 x.2.chars with
    | some e => exact .ok ⟨by rw [(h.node e (findChild_eq_some he).1).isDir], h.toAlike⟩
    | none =>
      rcases h.allocNode with ⟨ha, ha'⟩ | ⟨n, m, m', ha, ha', hu, hu', hs, hs'⟩
      · rw [ha, ha']
        exact .ok ⟨rfl, h.toAlike⟩
      · rw [ha, ha']
        refine .ok ⟨rfl, ?_⟩
        simp only [Function.update_self, Function.update_idem]
        refine h.toAlike.update n ?_ fun _ => hmake.alike x.1 x.2 hs hs'
        rw [hmake.used, hmake.used, hu, hu']

/-- A file filled with the same bytes. -/
theorem writeNode_alike {n : NodeId} (hn : (t n).used = true) (bytes : List UInt8) :
    Agree SameResult (writeNode t (n.val : Int) (some bytes) bytes.length)
      (writeNode t' (n.val : Int) (some bytes) bytes.length) := by
  have hnode := h.node n hn
  cases hd : (t n).isDir with
  | true =>
    rw [writeNode_dir t n hd, writeNode_dir t' n (by rw [hnode.isDir, hd])]
    exact .ok ⟨rfl, h.toAlike⟩
  | false =>
    rw [writeNode_file t n hd, writeNode_file t' n (by rw [hnode.isDir, hd])]
    refine .ok ⟨rfl, h.toAlike.update n (h.used n) fun _ => ?_⟩
    refine ⟨hnode.isDir, hnode.parent, hnode.owner, hnode.mode, hnode.name, rfl, ?_⟩
    rw [contents_fillNode, contents_fillNode]

theorem fsRemove_alike {c : NodeId} (hc : (t c).used = true) (path : CStr) :
    Agree SameResult (fsRemove t (c.val : Int) path) (fsRemove t' (c.val : Int) path) := by
  have hchildren : ∀ node : Int, (∃ i, (t' i).used = true ∧ (t' i).parent.toInt = node) ↔
      ∃ i, (t i).used = true ∧ (t i).parent.toInt = node := by
    intro node
    refine exists_congr fun i => ?_
    rw [h.used]
    exact and_congr_right fun hi => by rw [(h.node i hi).parent]
  unfold fsRemove
  rw [h.fsResolve hc, fsResolve_eq h.left.navigable hc, Foundation.ok_bind, Foundation.ok_bind]
  cases hr : resolve t c path.chars with
  | none => exact .ok ⟨rfl, h.toAlike⟩
  | some n =>
    have hn := h.node n (resolve_used h.left.navigable hc hr)
    rw [toC_some]
    refine .ite (fun _ => .ok ⟨rfl, h.toAlike⟩) fun _ => ?_
    rw [nodeIndex_ofNat, Foundation.ok_bind, Foundation.ok_bind, hn.isDir]
    simp only [hchildren]
    refine .ite (fun _ => .ok ⟨rfl, h.toAlike⟩) fun _ => .ok ⟨rfl, h.toAlike.update n rfl fun hu => ?_⟩
    cases hu

end Changes

/-- The two calls return the same and leave equivalent tables. -/
def SameOutcome (x y : Except Fault (Int × Nodes)) : Prop :=
  ∃ r u u', x = .ok (r, u) ∧ y = .ok (r, u') ∧ Equivalent u u'

/-- Calls that leave well-formed tables that are alike leave equivalent ones. -/
theorem SameOutcome.of_agree {x y : Except Fault (Int × Nodes)} (h : Agree SameResult x y) {r r' : Int}
    {u u' : Nodes} (hx : x = .ok (r, u)) (hy : y = .ok (r', u')) (wf : WellFormed u) (wf' : WellFormed u') :
    SameOutcome x y := by
  subst hx hy
  obtain ⟨hr, halike⟩ : r = r' ∧ Alike u u' := by
    cases h with
    | ok hsame => exact hsame
  subst hr
  exact ⟨r, u, u', rfl, rfl, halike, wf, wf'⟩

section Outcomes
variable {t t' : Nodes} (h : Equivalent t t') {c : NodeId} (hc : (t c).used = true) (hd : (t c).isDir = true)
include h hc

theorem fsRemove_same (path : CStr) :
    SameOutcome (fsRemove t (c.val : Int) path) (fsRemove t' (c.val : Int) path) := by
  obtain ⟨r, u, hx, hout⟩ := fsRemove_ok h.left hc path
  obtain ⟨r', u', hy, hout'⟩ := fsRemove_ok h.right (h.used' hc) path
  exact .of_agree (fsRemove_alike h hc path) hx hy (hout.wellFormed h.left) (hout'.wellFormed h.right)

include hd

theorem create_same (path : CStr) {dir : Bool} {owner mode : UInt16} {found : Bool → Int}
    {make : Int → Name → FsNode → FsNode} (hfound : found dir = 0) (hother : ∀ b, b ≠ dir → found b = -1)
    (hmake : Makes dir owner mode make) :
    SameOutcome (create t (c.val : Int) path found make) (create t' (c.val : Int) path found make) := by
  have hd' : (t' c).isDir = true := by rw [(h.node c hc).isDir, hd]
  obtain ⟨r, u, hx, hout⟩ := create_ok h.left hc hd path hfound hother hmake
  obtain ⟨r', u', hy, hout'⟩ := create_ok h.right (h.used' hc) hd' path hfound hother hmake
  exact .of_agree (create_alike h hc path found hmake) hx hy (hout.wellFormed h.left) (hout'.wellFormed h.right)

theorem fsMkdirAs_same (path : CStr) (owner mode : UInt16) :
    SameOutcome (fsMkdirAs t (c.val : Int) path owner mode) (fsMkdirAs t' (c.val : Int) path owner mode) := by
  rw [fsMkdirAs_eq, fsMkdirAs_eq]
  exact create_same h hc hd path rfl (fun b hb => by rw [if_neg hb]) (dirNode_makes owner mode)

theorem fsTouchAs_same (path : CStr) (owner mode : UInt16) :
    SameOutcome (fsTouchAs t (c.val : Int) path owner mode) (fsTouchAs t' (c.val : Int) path owner mode) := by
  rw [fsTouchAs_eq, fsTouchAs_eq]
  exact create_same h hc hd path rfl (fun b hb => by rw [if_pos (by simpa using hb)]) (fileNode_makes owner mode)

/-- A write, where it makes its file and where it finds it. -/
theorem fsWriteFile_alike (path : CStr) (bytes : List UInt8) :
    Agree SameResult (fsWriteFile t (c.val : Int) path (some bytes) bytes.length)
      (fsWriteFile t' (c.val : Int) path (some bytes) bytes.length) := by
  unfold fsWriteFile
  rw [h.fsResolve hc, fsResolve_eq h.left.navigable hc, Foundation.ok_bind, Foundation.ok_bind]
  cases hr : resolve t c path.chars with
  | some n =>
    have hn := resolve_used h.left.navigable hc hr
    rw [toC_some, if_neg (by omega), if_neg (by omega)]
    exact writeNode_alike h hn bytes
  | none =>
    obtain ⟨r, u, u', hx, hy, hsame⟩ := fsTouchAs_same h hc hd path 0 fsDefaultFileMode
    have hcu : (u c).used = true := by rw [fsTouchAs_old hx hc, hc]
    unfold fsTouch
    rw [toC_none, if_pos (by decide), if_pos (by decide), hx, hy, Foundation.ok_bind, Foundation.ok_bind]
    refine .ite (fun _ => .ok ⟨rfl, hsame.toAlike⟩) fun _ => ?_
    rw [hsame.fsResolve hcu, fsResolve_eq hsame.left.navigable hcu, Foundation.ok_bind, Foundation.ok_bind]
    cases hru : resolve u c path.chars with
    | none => exact .ok ⟨rfl, hsame.toAlike⟩
    | some n => exact writeNode_alike hsame (resolve_used hsame.left.navigable hcu hru) bytes

theorem fsWriteFile_same (path : CStr) (bytes : List UInt8) :
    SameOutcome (fsWriteFile t (c.val : Int) path (some bytes) bytes.length)
      (fsWriteFile t' (c.val : Int) path (some bytes) bytes.length) := by
  have hd' : (t' c).isDir = true := by rw [(h.node c hc).isDir, hd]
  obtain ⟨r, u, hx, hout⟩ := fsWriteFile_ok h.left hc hd path bytes
  obtain ⟨r', u', hy, hout'⟩ := fsWriteFile_ok h.right (h.used' hc) hd' path bytes
  exact .of_agree (fsWriteFile_alike h hc hd path bytes) hx hy (hout.wellFormed h.left) (hout'.wellFormed h.right)

end Outcomes

section Setters
variable {t t' : Nodes} (h : Equivalent t t')
include h

theorem fsSetOwner_same (node : Int) (owner : UInt16) :
    SameOutcome (.ok (fsSetOwner t node owner)) (.ok (fsSetOwner t' node owner)) := by
  have wf := fsSetOwner_wellFormed h.left node owner
  have wf' := fsSetOwner_wellFormed h.right node owner
  refine .of_agree (.ok ?_) rfl rfl wf wf'
  unfold fsSetOwner
  rw [h.usedNode]
  cases hn : usedNode t node with
  | none => exact ⟨rfl, h.toAlike⟩
  | some n =>
    have hnode := h.node n (usedNode_eq_some.mp hn).2
    exact ⟨rfl, h.toAlike.update n (h.used n) fun _ =>
      ⟨hnode.isDir, hnode.parent, rfl, hnode.mode, hnode.name, hnode.size, hnode.contents⟩⟩

theorem fsSetMode_same (node : Int) (mode : UInt16) :
    SameOutcome (.ok (fsSetMode t node mode)) (.ok (fsSetMode t' node mode)) := by
  have wf := fsSetMode_wellFormed h.left node mode
  have wf' := fsSetMode_wellFormed h.right node mode
  refine .of_agree (.ok ?_) rfl rfl wf wf'
  unfold fsSetMode
  rw [h.usedNode]
  cases hn : usedNode t node with
  | none => exact ⟨rfl, h.toAlike⟩
  | some n =>
    have hnode := h.node n (usedNode_eq_some.mp hn).2
    exact ⟨rfl, h.toAlike.update n (h.used n) fun _ =>
      ⟨hnode.isDir, hnode.parent, hnode.owner, rfl, hnode.name, hnode.size, hnode.contents⟩⟩

end Setters

/-! ### Every call -/

/-- **No call tells equivalent tables apart**, and each leaves equivalent tables. -/
theorem stale_unobservable (t t' : Nodes) (h : Equivalent t t') (cwd : Int) (hc : UsedDir t cwd) :
    (∀ path, fsResolve t' cwd path = fsResolve t cwd path) ∧
      (∀ path owner mode, SameOutcome (fsMkdirAs t cwd path owner mode) (fsMkdirAs t' cwd path owner mode)) ∧
      (∀ path owner mode, SameOutcome (fsTouchAs t cwd path owner mode) (fsTouchAs t' cwd path owner mode)) ∧
      (∀ path (bytes : List UInt8), SameOutcome (fsWriteFile t cwd path (some bytes) bytes.length)
        (fsWriteFile t' cwd path (some bytes) bytes.length)) ∧
      (∀ path, SameRead (fsReadFile t cwd path) (fsReadFile t' cwd path)) ∧
      (∀ path, SameOutcome (fsRemove t cwd path) (fsRemove t' cwd path)) ∧
      (∀ dir maxOut, fsList t' dir maxOut = fsList t dir maxOut) ∧
      (∀ node cap, fsMakePath t' node cap = fsMakePath t node cap) ∧
      (∀ node user mask, fsCheckAccess t' node user mask = fsCheckAccess t node user mask) ∧
      (∀ node, fsGetParent t' node = fsGetParent t node ∧ fsIsDir t' node = fsIsDir t node ∧
        (fsGetName t' node).map cstr = (fsGetName t node).map cstr ∧ fsGetOwner t' node = fsGetOwner t node ∧
        fsGetMode t' node = fsGetMode t node) ∧
      (∀ node owner, SameOutcome (.ok (fsSetOwner t node owner)) (.ok (fsSetOwner t' node owner))) ∧
      ∀ node mode, SameOutcome (.ok (fsSetMode t node mode)) (.ok (fsSetMode t' node mode)) := by
  obtain ⟨c, rfl, hu, hd⟩ := hc
  exact ⟨fun path => h.fsResolve hu path, fun path owner mode => fsMkdirAs_same h hu hd path owner mode,
    fun path owner mode => fsTouchAs_same h hu hd path owner mode,
    fun path bytes => fsWriteFile_same h hu hd path bytes, fun path => h.fsReadFile hu path,
    fun path => fsRemove_same h hu path, h.fsList, h.fsMakePath, h.fsCheckAccess,
    fun node => ⟨h.fsGetParent node, h.fsIsDir node, h.fsGetName node, h.fsGetOwner node, h.fsGetMode node⟩,
    fsSetOwner_same h, fsSetMode_same h⟩

/-- What is left of the directory `a` after it was removed. -/
def removedDir : Nodes := Function.update oneDir 1 {oneDir 1 with used := false}

theorem removedDir_equivalent : Equivalent fsInit removedDir := by
  have hchildless : ∀ i, (oneDir i).used = true → (oneDir i).parent.toInt ≠ (1 : NodeId).val := by
    intro i hi hp
    have hroot : (oneDir i).parent.toInt = 0 := by
      rcases (oneDir_created.used_iff i).mp hi with hold | rfl
      · rw [oneDir_created.old hold, (fsInit_used i).mp hold, wellFormed_fsInit.root_parent]
        rfl
      · exact oneDir_created.parent
    rw [hroot] at hp
    exact absurd hp (by decide)
  have hsame : ∀ i, i ≠ 1 → removedDir i = fsInit i := fun i hi => by
    unfold removedDir
    rw [Function.update_of_ne hi, oneDir_created.other i hi]
  refine ⟨⟨fun i => ?_, fun i hi => ?_⟩, wellFormed_fsInit, oneDir_wellFormed.free 1 (by decide) hchildless⟩
  · by_cases hi : i = 1
    · subst hi
      rw [fsInit_other 1 (by decide), removedDir, Function.update_self]
      rfl
    · rw [hsame i hi]
  · have h0 := (fsInit_used i).mp hi
    rw [hsame i (by rw [h0]; decide)]
    exact .refl _

theorem stale_unobservable_removedDir :
    removedDir ≠ fsInit ∧ (∀ path, fsResolve removedDir 0 path = fsResolve fsInit 0 path) ∧
      ∀ path (bytes : List UInt8), SameOutcome (fsWriteFile fsInit 0 path (some bytes) bytes.length)
        (fsWriteFile removedDir 0 path (some bytes) bytes.length) := by
  obtain ⟨hres, _, _, hwrite, _⟩ := stale_unobservable fsInit removedDir removedDir_equivalent 0
    wellFormed_fsInit.usedDir_root
  refine ⟨fun heq => ?_, hres, hwrite⟩
  have hdir : (removedDir 1).isDir = true := by
    unfold removedDir
    rw [Function.update_self]
    exact oneDir_created.dir
  rw [heq, fsInit_other 1 (by decide)] at hdir
  exact absurd hdir (by decide)

end FurOS
