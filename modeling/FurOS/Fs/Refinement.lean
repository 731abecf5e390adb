import FurOS.Fs.Contract
import FurOS.Fs.Listing
import FurOS.Fs.Runs
import FurOS.Fs.Tree

/-! What the filesystem is for: a tree of names.

`FileTree` has operations of its own, without slots and indexes: a new entry below a directory while there is
room, bytes put in a file, an entry without entries below it taken away, an owner or a mode set. On every
well-formed table each call of `fs.c` returns what its operation returns, and the tree of the table it leaves is the
one that the operation leaves (`FsOp.call_refines`); so a run of calls from `fs_init` is a run of operations
from the empty tree (`fsRun_refines`). What is read of a table is in its tree too (`reads_refine`). -/
namespace FurOS
open Foundation (components walk)

/-! ### Operations on trees -/

/-- An item with other bytes, cut to what a file can hold. -/
def Item.fill (bytes : List UInt8) : Item → Item
  | .dir owner mode => .dir owner mode
  | .file owner mode _ => .file owner mode (bytes.take 4095)

def Item.withOwner (owner : UInt16) : Item → Item
  | .dir _ mode => .dir owner mode
  | .file _ mode bytes => .file owner mode bytes

def Item.withMode (mode : UInt16) : Item → Item
  | .dir owner _ => .dir owner mode
  | .file owner _ bytes => .file owner mode bytes

namespace FileTree

/-- Another item where one stands. -/
def alter (A : FileTree) (loc : Place) (f : Item → Item) : FileTree := Function.update A loc ((A loc).map f)

/-- Something stands below. -/
def Inhabited (A : FileTree) (loc : Place) : Prop := ∃ name, A.has (loc ++ [name]) = true

open Classical in
/-- A new entry where none stands, while there is room; one that stands is good if it is of the kind. -/
noncomputable def make (A : FileTree) (cwd : Place) (path : List UInt8) (item : Item) : Int × FileTree :=
  (A.split cwd path).elim (-1, A) fun x =>
    (A (x.1 ++ [x.2])).elim
      (if A.Full then (-1, A) else (0, Function.update A (x.1 ++ [x.2]) (some item)))
      fun found => (if found.isDir = item.isDir then 0 else -1, A)

/-- Bytes put in the file where the path leads, or in a new file of the root user's. -/
noncomputable def write (A : FileTree) (cwd : Place) (path bytes : List UInt8) : Int × FileTree :=
  (follow A.has cwd path).elim (A.make cwd path (.file 0 fsDefaultFileMode (bytes.take 4095))) fun loc =>
    if A.isDirAt loc then (-1, A) else (0, A.alter loc (Item.fill bytes))

open Classical in
/-- An entry taken away, but not the root and none with others below it. -/
noncomputable def remove (A : FileTree) (cwd : Place) (path : List UInt8) : Int × FileTree :=
  (follow A.has cwd path).elim (-1, A) fun loc =>
    if loc = [] ∨ A.Inhabited loc then (-1, A) else (0, Function.update A loc none)

/-- An entry changed, if there is one. -/
def change (A : FileTree) (loc : Option Place) (f : Item → Item) : Int × FileTree :=
  loc.elim (-1, A) fun loc => (0, A.alter loc f)

end FileTree

/-- One operation. -/
inductive TreeOp where
  | make (cwd : Place) (path : List UInt8) (item : Item)
  | write (cwd : Place) (path bytes : List UInt8)
  | remove (cwd : Place) (path : List UInt8)
  | change (loc : Option Place) (f : Item → Item)

noncomputable def TreeOp.apply (A : FileTree) : TreeOp → Int × FileTree
  | make cwd path item => A.make cwd path item
  | write cwd path bytes => A.write cwd path bytes
  | remove cwd path => A.remove cwd path
  | change loc f => A.change loc f

/-! ### What a call means -/

/-- The names from the root to a node, for at most `room` of them. -/
def placeUp (t : Nodes) : Nat → NodeId → Place
  | 0, _ => []
  | room + 1, n =>
    if n = 0 then [] else ((parentOf t n).map (placeUp t room)).getD [] ++ [cstr (t n).name]

/-- The place of the node that an index is for. -/
def placeOf (t : Nodes) (node : Int) : Option Place := (usedNode t node).map (placeUp t 128)

def FsOp.meaning (t : Nodes) : FsOp → TreeOp
  | mkdirAs cwd path owner mode => .make ((placeOf t cwd).getD []) path.chars (.dir owner (mode &&& 0o777))
  | touchAs cwd path owner mode => .make ((placeOf t cwd).getD []) path.chars (.file owner (mode &&& 0o777) [])
  | writeFile cwd path data => .write ((placeOf t cwd).getD []) path.chars data
  | remove cwd path => .remove ((placeOf t cwd).getD []) path.chars
  | setOwner node owner => .change (placeOf t node) (Item.withOwner owner)
  | setMode node mode => .change (placeOf t node) (Item.withMode (mode &&& 0o777))

theorem placeUp_eq {t : Nodes} {loc : Place} {n : NodeId} (h : At t n loc) {room : Nat} (hroom : loc.length ≤ room) :
    placeUp t room n = loc := by
  induction loc using List.reverseRecOn generalizing n room with
  | nil =>
    obtain rfl : (0 : NodeId) = n := Option.some.inj h
    cases room <;> rfl
  | append_singleton loc s ih =>
    rw [At, locate_concat] at h
    obtain ⟨p, hp, hchild⟩ := Option.bind_eq_some_iff.mp h
    obtain ⟨h0, -, hparent, hname⟩ := childOf_eq_some hchild
    rw [List.length_append, List.length_singleton] at hroom
    obtain ⟨room, rfl⟩ : ∃ r, room = r + 1 := ⟨room - 1, by omega⟩
    rw [placeUp, if_neg h0, parentOf_eq_some.mpr hparent, Option.map_some, Option.getD_some, ih hp (by omega), hname]

/-- The names of the nodes on the way to a node are its place. -/
theorem WellFormed.at_lineage {t : Nodes} (wf : WellFormed t) {n : NodeId} {l : List NodeId}
    (hl : Foundation.Lineage (parentOf t) 0 n l) (h : (t n).used = true) : At t n (namesOf t l) := by
  induction hl with
  | root => exact locate_root t
  | @step i j l h0 hp _ ih =>
    have hparent := parentOf_eq_some.mp hp
    obtain ⟨p, hp', hu, _⟩ := wf.parent i h
    have hpj : p = j := Fin.ext (by rw [hp'] at hparent; exact_mod_cast hparent)
    have hnames : namesOf t (l ++ [i]) = namesOf t l ++ [cstr (t i).name] := List.map_append
    rw [At, hnames, locate_concat, ih (hpj ▸ hu), Option.bind_some]
    exact wf.childOf_iff.mpr ⟨h0, h, hparent, rfl⟩

theorem WellFormed.located_short {t : Nodes} (wf : WellFormed t) {n : NodeId} (h : (t n).used = true) :
    ∃ loc, At t n loc ∧ loc.length < 128 := by
  obtain ⟨l, hl⟩ := (wf.tree.rooted n h).lineage
  have hlen := hl.length_lt_card
  rw [Fintype.card_fin] at hlen
  refine ⟨namesOf t l, wf.at_lineage hl h, ?_⟩
  rwa [namesOf, List.length_map]

theorem WellFormed.placeOf_used {t : Nodes} (wf : WellFormed t) {n : NodeId} (h : (t n).used = true) :
    ∃ loc, At t n loc ∧ placeOf t (n.val : Int) = some loc := by
  obtain ⟨loc, hloc, hlen⟩ := wf.located_short h
  refine ⟨loc, hloc, ?_⟩
  rw [placeOf, usedNode_ofNat t n h, Option.map_some, placeUp_eq hloc (Nat.le_of_lt hlen)]

theorem WellFormed.at_placeOf {t : Nodes} (wf : WellFormed t) {n : NodeId} (h : (t n).used = true) :
    At t n ((placeOf t (n.val : Int)).getD []) := by
  obtain ⟨loc, hloc, hplace⟩ := wf.placeOf_used h
  rw [hplace]
  exact hloc

/-! ### One call -/

theorem itemOf_fillNode (n : FsNode) (bytes : List UInt8) : itemOf (fillNode n bytes) = (itemOf n).fill bytes := by
  unfold itemOf
  rw [contents_fillNode, take_clampSize]
  show (if n.isDir then _ else _) = _
  cases n.isDir <;> rfl

/-- What a creation makes. -/
theorem Created.item {t t' : Nodes} {n p : NodeId} {leaf : Name} {dir : Bool} {owner mode : UInt16}
    (h : Created t t' n p leaf dir owner mode) :
    itemOf (t' n) = if dir then .dir owner (mode &&& 0o777) else .file owner (mode &&& 0o777) [] := by
  unfold itemOf contents
  rw [h.dir, h.owner, h.mode, h.size]
  rfl

/-- A child is what stands below, and there is none where nothing does. -/
theorem treeOf_child {t : Nodes} (wf : WellFormed t) {p : NodeId} {front : Place} (hp : At t p front) (leaf : Name) :
    treeOf t (front ++ [leaf.chars]) = (findChild t (p.val : Int) leaf.chars).map fun i => itemOf (t i) := by
  unfold treeOf
  rw [locate_concat, hp, Option.bind_some, wf.childOf_name p leaf.no_slash]

/-- The parent that a path from a directory has is one. -/
theorem parentNode_parent {t : Nodes} (wf : WellFormed t) {c p : NodeId} (hc : (t c).used = true)
    (hd : (t c).isDir = true) {path : CStr} {leaf : Name} (h : parentNode t c path = some (p, leaf)) :
    Parent t c path.chars p leaf := by
  obtain ⟨hu, hdir, hfront⟩ := parentNode_front wf.navigable hc h
  refine ⟨hu, ?_, hfront⟩
  rcases hdir with rfl | hdir
  · exact hd
  · exact hdir

theorem parent_unique {t : Nodes} {cwd : Int} {path : CStr} {p q : NodeId} {leaf leaf' : Name}
    (h : resolveParentAndLeaf t cwd path = .ok (some ((p.val : Int), leaf)))
    (h' : resolveParentAndLeaf t cwd path = .ok (some ((q.val : Int), leaf'))) : q = p ∧ leaf' = leaf := by
  rw [h] at h'
  obtain ⟨hq, hleaf⟩ := Prod.mk.inj (Option.some.inj (Except.ok.inj h'))
  exact ⟨Fin.ext (by exact_mod_cast hq.symm), hleaf.symm⟩

section Refines
variable {t : Nodes} (wf : WellFormed t) {c : NodeId} {cwd : Place} (hc : At t c cwd)
include wf hc

/-- The parent and the name of a path, in the table and in the tree. -/
theorem split_cases (path : CStr) :
    (resolveParentAndLeaf t (c.val : Int) path = .ok none ∧ (treeOf t).split cwd path.chars = none) ∨
    ∃ p leaf front, At t p front ∧ parentNode t c path = some (p, leaf) ∧
      resolveParentAndLeaf t (c.val : Int) path = .ok (some ((p.val : Int), leaf)) ∧
      (treeOf t).split cwd path.chars = some (front, leaf.chars) := by
  have hrelated := split_related wf hc path
  rw [resolveParentAndLeaf_eq wf.navigable (wf.locate_used hc) path]
  generalize parentNode t c path = x at hrelated ⊢
  generalize (treeOf t).split cwd path.chars = y at hrelated ⊢
  cases hrelated with
  | none => exact .inl ⟨rfl, rfl⟩
  | @some x y h =>
    obtain ⟨p, leaf⟩ := x
    obtain ⟨front, name⟩ := y
    obtain ⟨hp, rfl⟩ := h
    exact .inr ⟨p, leaf, front, hp, rfl, rfl, rfl⟩

theorem Creation.refines {path : CStr} {dir : Bool} {owner mode : UInt16} {r : Int} {t' : Nodes}
    (h : Creation t c path dir owner mode r t') :
    (treeOf t).make cwd path.chars (if dir then .dir owner (mode &&& 0o777) else .file owner (mode &&& 0o777) []) =
      (r, treeOf t') := by
  have hkind : (if dir then Item.dir owner (mode &&& 0o777) else .file owner (mode &&& 0o777) []).isDir = dir := by
    cases dir <;> rfl
  have hwf' := h.wellFormed wf
  unfold FileTree.make
  rcases split_cases wf hc path with ⟨hparent, hsplit⟩ | ⟨p, leaf, front, hp, -, hparent, hsplit⟩
  · rw [hsplit]
    cases h with
    | failed => rfl
    | found _ hfound => rw [hparent] at hfound; cases hfound
    | created _ hfound => rw [hparent] at hfound; cases hfound
  · rw [hsplit]
    dsimp only [Option.elim]
    rw [treeOf_child wf hp leaf, hkind]
    cases h with
    | failed hwhy =>
      rcases hwhy (p.val : Int) leaf hparent with ⟨e, he, hother⟩ | ⟨hnone, hfull⟩
      · rw [he]
        simp only [Option.map_some, itemOf_isDir, hother, if_false]
      · rw [hnone]
        simp only [Option.map_none, wf.allocNode_iff.mp hfull, if_true]
    | found _ hfound he hdir =>
      obtain ⟨rfl, rfl⟩ := parent_unique hparent hfound
      rw [he]
      simp only [Option.map_some, itemOf_isDir, hdir, if_true]
    | created _ hfound hnone hfull hcr =>
      obtain ⟨rfl, rfl⟩ := parent_unique hparent hfound
      rw [hnone]
      simp only [Option.map_none, mt wf.allocNode_iff.mpr hfull, if_false]
      rw [hcr.tree wf hwf' hp hnone, hcr.item]

theorem Writing.refines (hd : (t c).isDir = true) {path : CStr} {bytes : List UInt8} {r : Int} {t' : Nodes}
    (h : Writing t c path bytes r t') : (treeOf t).write cwd path.chars bytes = (r, treeOf t') := by
  have hrelated := resolve_related wf hc path.chars
  have hused := wf.locate_used hc
  unfold FileTree.write
  generalize hfollow : follow (treeOf t).has cwd path.chars = y at hrelated
  cases h with
  | @directory n hn hdir =>
    rw [hn] at hrelated
    cases hrelated with
    | @some _ loc hloc =>
      dsimp only [Option.elim]
      rw [isDirAt_treeOf hloc, hdir, if_pos rfl]
  | @filled n hn hu hfile =>
    rw [hn] at hrelated
    cases hrelated with
    | @some _ loc hloc =>
      have htree := treeOf_update (m := fillNode (t n) bytes) rfl rfl rfl hloc
      dsimp only [Option.elim]
      rw [isDirAt_treeOf hloc, hfile, if_neg (by decide), htree, FileTree.alter, treeOf_eq hloc, Option.map_some,
        itemOf_fillNode]
  | failed hn hwhy =>
    rw [hn] at hrelated
    cases hrelated
    dsimp only [Option.elim, FileTree.make]
    rcases split_cases wf hc path with ⟨hparent, hsplit⟩ | ⟨p, leaf, front, hp, hnode, hparent, hsplit⟩
    · rw [hsplit]
    · have hnone := ((parentNode_parent wf hused hd hnode).no_dots wf hn).2.2
      rw [hsplit]
      dsimp only [Option.elim]
      rw [treeOf_child wf hp leaf, hnone]
      simp only [Option.map_none, wf.allocNode_iff.mp (hwhy _ leaf hparent hnone), if_true]
  | @created n p leaf t₁ hn hpar hparent hnone hfull hcr =>
    rw [hn] at hrelated
    cases hrelated
    dsimp only [Option.elim, FileTree.make]
    rcases split_cases wf hc path with ⟨hparent', hsplit⟩ | ⟨p', leaf', front, hp, -, hparent', hsplit⟩
    · rw [hparent'] at hparent
      cases hparent
    · obtain ⟨rfl, rfl⟩ := parent_unique hparent' hparent
      have wf₁ := hcr.wellFormed wf hpar.used hpar.dir hnone
      have hat : At t₁ n (front ++ [leaf.chars]) := by
        rw [At, hcr.locate wf wf₁ hp hnone, if_pos rfl]
      have htree := treeOf_update (m := fillNode (t₁ n) bytes) rfl rfl rfl hat
      have hmode : fsDefaultFileMode &&& 0o777 = fsDefaultFileMode := by decide
      rw [hsplit]
      dsimp only [Option.elim]
      rw [treeOf_child wf hp leaf, hnone]
      simp only [Option.map_none, mt wf.allocNode_iff.mpr hfull, if_false]
      rw [htree, hcr.tree wf wf₁ hp hnone, Function.update_idem, itemOf_fillNode, hcr.item, hmode]
      rfl

theorem Removal.refines {path : CStr} {r : Int} {t' : Nodes} (h : Removal t c path r t') :
    (treeOf t).remove cwd path.chars = (r, treeOf t') := by
  have hrelated := resolve_related wf hc path.chars
  unfold FileTree.remove
  generalize hfollow : follow (treeOf t).has cwd path.chars = y at hrelated
  cases h with
  | failed hwhy =>
    cases hn : resolve t c path.chars with
    | none =>
      rw [hn] at hrelated
      cases hrelated
      rfl
    | some n =>
      rw [hn] at hrelated
      cases hrelated with
      | @some _ loc hloc =>
        dsimp only [Option.elim]
        rw [if_pos]
        by_cases h0 : n = 0
        · exact .inl (locate_eq_root_iff.mp (h0 ▸ hloc))
        · obtain ⟨i, hi, hparent⟩ := hwhy n hn h0
          have hi0 : i ≠ 0 := fun heq => by
            rw [heq, wf.root_parent] at hparent
            have hzero : (0 : Int) = n.val := hparent
            exact h0 (Fin.ext (Int.ofNat_inj.mp hzero.symm))
          refine .inr ⟨cstr (t i).name, ?_⟩
          rw [has_treeOf, locate_concat, hloc, Option.bind_some, wf.childOf_iff.mpr ⟨hi0, hi, hparent, rfl⟩]
          rfl
  | @removed n hn h0 hu hchildren =>
    rw [hn] at hrelated
    cases hrelated with
    | @some _ loc hloc =>
      dsimp only [Option.elim]
      rw [if_neg, treeOf_free wf h0 hchildren hloc]
      rintro (hroot | ⟨name, hname⟩)
      · subst hroot
        exact h0 (Option.some.inj hloc).symm
      · rw [has_treeOf, locate_concat, hloc, Option.bind_some] at hname
        obtain ⟨i, hi⟩ := Option.isSome_iff_exists.mp hname
        obtain ⟨-, hui, hparent, -⟩ := childOf_eq_some hi
        exact hchildren i hui hparent

end Refines

/-! ### Runs -/

theorem change_refines {t : Nodes} (wf : WellFormed t) (node : Int) {f : Item → Item} {g : FsNode → FsNode}
    (hu : ∀ m, (g m).used = m.used) (hp : ∀ m, (g m).parent = m.parent) (hname : ∀ m, (g m).name = m.name)
    (hitem : ∀ m, itemOf (g m) = f (itemOf m)) : (treeOf t).change (placeOf t node) f =
      (usedNode t node).elim (-1, treeOf t) fun i => (0, treeOf (Function.update t i (g (t i)))) := by
  cases hn : usedNode t node with
  | none =>
    rw [placeOf, hn]
    rfl
  | some i =>
    obtain ⟨rfl, hused⟩ := usedNode_eq_some.mp hn
    obtain ⟨loc, hloc, hplace⟩ := wf.placeOf_used hused
    have htree := treeOf_update (hu (t i)) (hp (t i)) (congrArg cstr (hname (t i))) hloc
    rw [hplace]
    dsimp only [FileTree.change, Option.elim]
    rw [htree, FileTree.alter, treeOf_eq hloc, Option.map_some, hitem]

/-- **A call returns what its operation returns, and leaves the tree that it leaves.** -/
theorem FsOp.call_refines {t : Nodes} (wf : WellFormed t) (op : FsOp) (ha : op.Admits t) :
    ∃ r t', op.call t = .ok (r, t') ∧ WellFormed t' ∧ (op.meaning t).apply (treeOf t) = (r, treeOf t') := by
  cases op with
  | mkdirAs cwd path owner mode =>
    obtain ⟨c, rfl, hc, hd⟩ := ha
    obtain ⟨r, t', h, hcr⟩ := fsMkdirAs_ok wf hc hd path owner mode
    exact ⟨r, t', h, hcr.wellFormed wf, hcr.refines wf (wf.at_placeOf hc)⟩
  | touchAs cwd path owner mode =>
    obtain ⟨c, rfl, hc, hd⟩ := ha
    obtain ⟨r, t', h, hcr⟩ := fsTouchAs_ok wf hc hd path owner mode
    exact ⟨r, t', h, hcr.wellFormed wf, hcr.refines wf (wf.at_placeOf hc)⟩
  | writeFile cwd path data =>
    obtain ⟨c, rfl, hc, hd⟩ := ha
    obtain ⟨r, t', h, hw⟩ := fsWriteFile_ok wf hc hd path data
    exact ⟨r, t', h, hw.wellFormed wf, hw.refines wf (wf.at_placeOf hc) hd⟩
  | remove cwd path =>
    obtain ⟨c, rfl, hc, hd⟩ := ha
    obtain ⟨r, t', h, hr⟩ := fsRemove_ok wf hc path
    exact ⟨r, t', h, hr.wellFormed wf, hr.refines wf (wf.at_placeOf hc)⟩
  | setOwner node owner =>
    refine ⟨(fsSetOwner t node owner).1, (fsSetOwner t node owner).2, rfl, fsSetOwner_wellFormed wf node owner, ?_⟩
    have hitem (m : FsNode) : itemOf {m with owner := owner} = (itemOf m).withOwner owner := by
      show (if m.isDir then _ else _) = _
      unfold itemOf
      cases m.isDir <;> rfl
    refine (change_refines wf node (g := fun m => {m with owner := owner}) (fun _ => rfl) (fun _ => rfl)
      (fun _ => rfl) hitem).trans ?_
    unfold fsSetOwner
    cases usedNode t node <;> rfl
  | setMode node mode =>
    refine ⟨(fsSetMode t node mode).1, (fsSetMode t node mode).2, rfl, fsSetMode_wellFormed wf node mode, ?_⟩
    have hitem (m : FsNode) :
        itemOf {m with mode := mode &&& 0o777} = (itemOf m).withMode (mode &&& 0o777) := by
      show (if m.isDir then _ else _) = _
      unfold itemOf
      cases m.isDir <;> rfl
    refine (change_refines wf node (g := fun m => {m with mode := mode &&& 0o777}) (fun _ => rfl) (fun _ => rfl)
      (fun _ => rfl) hitem).trans ?_
    unfold fsSetMode
    cases usedNode t node <;> rfl

/-- Calls in order: what they return, and the table they leave. -/
def fsRun (t : Nodes) : List FsOp → Except Fault (List Int × Nodes)
  | [] => return ([], t)
  | op :: ops => do
    let x ← op.call t
    let xs ← fsRun x.2 ops
    return (x.1 :: xs.1, xs.2)

/-- Operations in order. -/
noncomputable def treeRun (A : FileTree) : List TreeOp → List Int × FileTree
  | [] => ([], A)
  | op :: ops =>
    let xs := treeRun (op.apply A).2 ops
    ((op.apply A).1 :: xs.1, xs.2)

/-- What calls in order mean, each in the table that it finds. -/
def meanings (t : Nodes) : List FsOp → List TreeOp
  | [] => []
  | op :: ops => op.meaning t :: ((op.run t).toOption.elim [] fun t => meanings t ops)

/-- The tree of the root alone. -/
def emptyTree : FileTree := Function.update (fun _ => none) [] (some (.dir 0 fsDefaultDirMode))

theorem treeOf_fsInit : treeOf fsInit = emptyTree := by
  funext loc
  unfold emptyTree treeOf
  cases loc with
  | nil =>
    rw [Function.update_self, locate_root, Option.map_some]
    exact congrArg some (by rw [fsInit_root]; rfl)
  | cons name loc =>
    have hchild : childOf fsInit 0 name = none := by
      rw [Option.eq_none_iff_forall_ne_some]
      intro i hi
      obtain ⟨h0, hu, -, -⟩ := childOf_eq_some hi
      exact h0 ((fsInit_used i).mp hu)
    rw [Function.update_of_ne (List.cons_ne_nil name loc), locate, Foundation.walk, hchild]
    rfl

theorem fsRun_refines_from {t : Nodes} (wf : WellFormed t) (ops : List FsOp)
    (ha : Foundation.Admitted FsOp.run (fun t op => op.Admits t) t ops) :
    ∃ rs t', fsRun t ops = .ok (rs, t') ∧ WellFormed t' ∧ treeRun (treeOf t) (meanings t ops) = (rs, treeOf t') := by
  induction ops generalizing t with
  | nil => exact ⟨[], t, rfl, wf, rfl⟩
  | cons op ops ih =>
    obtain ⟨hadm, hrest⟩ := ha
    obtain ⟨r, t₁, hcall, wf₁, happly⟩ := op.call_refines wf hadm
    have hrun : op.run t = .ok t₁ := by rw [FsOp.run, hcall]; rfl
    obtain ⟨rs, t', hops, wf', htree⟩ := ih wf₁ (hrest t₁ hrun)
    refine ⟨r :: rs, t', ?_, wf', ?_⟩
    · rw [fsRun, hcall, Foundation.ok_bind, hops]
      rfl
    · rw [meanings, hrun]
      show treeRun (treeOf t) (op.meaning t :: meanings t₁ ops) = _
      rw [treeRun, happly, htree]

/-- **A run of calls is a run of operations on a tree of names**: from `fs_init` on the calls return what the
operations return from the tree of the root alone, and the table in the end is a table of the tree in the end. -/
theorem fsRun_refines (ops : List FsOp)
    (ha : Foundation.Admitted FsOp.run (fun t op => op.Admits t) fsInit ops) :
    ∃ rs t, fsRun fsInit ops = .ok (rs, t) ∧ treeRun emptyTree (meanings fsInit ops) = (rs, treeOf t) := by
  obtain ⟨rs, t, hrun, -, htree⟩ := fsRun_refines_from wellFormed_fsInit ops ha
  rw [treeOf_fsInit] at htree
  exact ⟨rs, t, hrun, htree⟩

/-- A directory, a file in it, the file filled by a path that goes up and down again, and the directory's removal
refused. -/
theorem fsRun_refines_mkdir_write_rm : ∃ rs t,
    fsRun fsInit [.mkdirAs 0 (.ofLit "a") 7 0o700, .touchAs 0 (.ofLit "a/b") 7 0o600,
      .writeFile 0 (.ofLit "a/../a/b") (lit "text"), .remove 0 (.ofLit "a"), .setMode 500 0o777] = .ok (rs, t) ∧
    treeRun emptyTree (meanings fsInit [.mkdirAs 0 (.ofLit "a") 7 0o700, .touchAs 0 (.ofLit "a/b") 7 0o600,
      .writeFile 0 (.ofLit "a/../a/b") (lit "text"), .remove 0 (.ofLit "a"), .setMode 500 0o777]) =
        (rs, treeOf t) := by
  refine fsRun_refines _ ⟨wellFormed_fsInit.usedDir_root, fun t₁ h₁ => ?_⟩
  have wf₁ := (FsOp.run_kept wellFormed_fsInit h₁ wellFormed_fsInit.usedDir_root).1
  refine ⟨wf₁.usedDir_root, fun t₂ h₂ => ?_⟩
  have wf₂ := (FsOp.run_kept wf₁ h₂ wf₁.usedDir_root).1
  refine ⟨wf₂.usedDir_root, fun t₃ h₃ => ?_⟩
  have wf₃ := (FsOp.run_kept wf₂ h₃ wf₂.usedDir_root).1
  exact ⟨wf₃.usedDir_root, fun t₄ _ => ⟨trivial, fun _ _ => trivial⟩⟩

/-! ### Reading -/

namespace FileTree

/-- What the file at the end of a path holds. -/
def read (A : FileTree) (cwd : Place) (path : List UInt8) : Option (List UInt8) :=
  (follow A.has cwd path).bind fun loc => (A loc).bind Item.bytes

/-- The names below a place. -/
def below (A : FileTree) (loc : Place) : Set (List UInt8) := {name | A.has (loc ++ [name]) = true}

end FileTree

/-- The owner's bits, or those of all others, hold what is asked for; the root user is not asked. -/
def Item.allows (item : Item) (user : UInt16) (mask : UInt8) : Bool :=
  decide (mask = 0) || decide (user = 0) ||
    decide ((if user = item.owner then ((item.mode &&& 0o777) >>> 6 &&& 7).toUInt8
      else (item.mode &&& 0o777 &&& 7).toUInt8) &&& mask = mask)

/-- A place as it is written. -/
def textOf (loc : Place) : List UInt8 := if loc = [] then [slash] else Foundation.spell slash loc

/-- What `fs.c` tells of the node at a place is what stands there in a tree. -/
structure ReadsAs (t : Nodes) (A : FileTree) (n : NodeId) (loc : Place) : Prop where
  resolve : ∀ path : CStr, ∃ o, fsResolve t (n.val : Int) path = .ok (toC o) ∧
    Option.Rel (At t) o (follow A.has loc path.chars)
  readFile : ∀ path : CStr, ∃ r, fsReadFile t (n.val : Int) path = .ok r ∧
    (r.map fun x => (List.ofFn x.1).take x.2.toNat) = A.read loc path.chars
  isDir : fsIsDir t (n.val : Int) = A.isDirAt loc
  owner : some (fsGetOwner t (n.val : Int)) = (A loc).map fun item => (item.owner.toNat : Int)
  mode : some (fsGetMode t (n.val : Int)) = (A loc).map Item.mode
  access : ∀ user mask, fsCheckAccess t (n.val : Int) user mask = (A loc).any fun item => item.allows user mask
  /-- A listing counts the names below, and stores as many of their nodes as there is room for. -/
  list : ∀ {maxOut : Nat} (out : Fin maxOut → Int), A.isDirAt loc = true →
    (fsListOut t n.val out).1 = (A.below loc).ncard ∧
    ∃ entries : List NodeId, entries.Nodup ∧ (∀ name, name ∈ A.below loc ↔ ∃ i ∈ entries, cstr (t i).name = name) ∧
      (∀ i ∈ entries, At t i (loc ++ [cstr (t i).name])) ∧
      Foundation.Cells.Holds (fsListOut t n.val out).2 ((entries.take maxOut).map fun i => (i.val : Int))
  listFile : ∀ {maxOut : Nat} (out : Fin maxOut → Int), A.isDirAt loc = false → fsListOut t n.val out = (-1, out)
  path : ∀ cap, ∃ x, fsMakePath t (n.val : Int) cap = .ok x ∧ Stored cap (textOf loc) (roomFor n (textOf loc)) x

section Reads
variable {t : Nodes} (wf : WellFormed t) {n : NodeId} {loc : Place} (h : At t n loc)
include wf

/-- What is listed are the children. -/
theorem isEntry_child {i : NodeId} : IsEntry t (n.val : Int) i ↔ childOf t n (cstr (t i).name) = some i := by
  rw [wf.childOf_iff]
  constructor
  · rintro ⟨hu, hp, hne⟩
    refine ⟨?_, hu, hp, rfl⟩
    rintro rfl
    rw [wf.root_parent] at hp
    exact hne hp
  · rintro ⟨h0, hu, hp, -⟩
    refine ⟨hu, hp, fun heq => wf.parent_ne_self hu h0 ?_⟩
    rw [hp, heq]

include h

theorem at_absolutePath : AbsolutePath t n (textOf loc) := by
  obtain ⟨l, hl⟩ := (wf.tree.rooted n (wf.locate_used h)).lineage
  have hloc := locate_inj h (wf.at_lineage hl (wf.locate_used h))
  refine ⟨l, hl, ?_⟩
  rw [textOf, hloc, namesOf]
  simp only [List.map_eq_nil_iff]

theorem mem_below {name : List UInt8} : name ∈ (treeOf t).below loc ↔
    ∃ i, IsEntry t (n.val : Int) i ∧ cstr (t i).name = name := by
  have hchild : name ∈ (treeOf t).below loc ↔ (childOf t n name).isSome = true := by
    unfold FileTree.below
    rw [Set.mem_ofPred_eq, has_treeOf, locate_concat, h, Option.bind_some]
  rw [hchild, Option.isSome_iff_exists]
  constructor
  · rintro ⟨i, hi⟩
    obtain ⟨-, -, -, hname⟩ := childOf_eq_some hi
    exact ⟨i, (isEntry_child wf).mpr (hname ▸ hi), hname⟩
  · rintro ⟨i, hi, rfl⟩
    exact ⟨i, (isEntry_child wf).mp hi⟩

theorem fsListOut_below (hd : (t n).isDir = true) {maxOut : Nat} (out : Fin maxOut → Int) :
    (fsListOut t n.val out).1 = ((treeOf t).below loc).ncard := by
  have hnames : ((entriesOf t (n.val : Int) (List.finRange 128)).map fun i => cstr (t i).name).Nodup := by
    refine List.Nodup.map_on (fun i hi j hj heq => ?_) ((List.nodup_finRange 128).filter _)
    have hi' := (isEntry_child wf).mp (mem_entriesOf.mp hi)
    have hj' := (isEntry_child wf).mp (mem_entriesOf.mp hj)
    rw [heq, hj'] at hi'
    exact (Option.some.inj hi').symm
  have hbelow : (treeOf t).below loc =
      ((entriesOf t (n.val : Int) (List.finRange 128)).map fun i => cstr (t i).name).toFinset := by
    ext name
    rw [mem_below wf h, List.coe_toFinset, Set.mem_ofPred_eq, List.mem_map]
    simp only [mem_entriesOf]
  rw [fsListOut_eq (wf.locate_used h) hd, hbelow, Set.ncard_coe_finset, List.toFinset_card_of_nodup hnames,
    List.length_map]

/-- **What is read of a table is in its tree**: nothing that `fs.c` tells of a node depends on slots, but the order
of a listing and the numbers in it. -/
theorem reads_refine : ReadsAs t (treeOf t) n loc where
  resolve path := ⟨_, fsResolve_eq wf.navigable (wf.locate_used h) path, resolve_related wf h path.chars⟩
  readFile path := by
    refine ⟨_, fsReadFile_eq wf (wf.locate_used h) path, ?_⟩
    have hrelated := resolve_related wf h path.chars
    unfold FileTree.read
    generalize resolve t n path.chars = x at hrelated ⊢
    generalize follow (treeOf t).has loc path.chars = y at hrelated ⊢
    cases hrelated with
    | none => rfl
    | @some i loc' hi =>
      rw [Option.bind_some, Option.bind_some, treeOf_eq hi, Option.bind_some, itemOf_bytes]
      split
      · rfl
      · rfl
  isDir := by
    unfold fsIsDir
    rw [usedNode_ofNat t n (wf.locate_used h), isDirAt_treeOf h]
  owner := by
    unfold fsGetOwner
    rw [usedNode_ofNat t n (wf.locate_used h), treeOf_eq h, Option.map_some, itemOf_owner]
  mode := by
    unfold fsGetMode
    rw [usedNode_ofNat t n (wf.locate_used h), treeOf_eq h, Option.map_some, itemOf_mode]
  access user mask := by
    unfold fsCheckAccess Item.allows
    rw [usedNode_ofNat t n (wf.locate_used h), treeOf_eq h, Option.any_some, itemOf_owner, itemOf_mode]
    by_cases hmask : mask = 0
    · simp [hmask]
    · by_cases huser : user = 0
      · simp [huser]
      · simp [hmask, huser]
  list out hd := by
    rw [isDirAt_treeOf h] at hd
    refine ⟨fsListOut_below wf h hd out, entriesOf t (n.val : Int) (List.finRange 128),
      (List.nodup_finRange 128).filter _, fun name => ?_, fun i hi => ?_, ?_⟩
    · rw [mem_below wf h]
      simp only [mem_entriesOf]
    · rw [At, locate_concat, h, Option.bind_some]
      exact (isEntry_child wf).mp (mem_entriesOf.mp hi)
    · rw [fsListOut_eq (wf.locate_used h) hd, List.map_take]
      exact .of_fill out _
  listFile out hd := by
    rw [isDirAt_treeOf h] at hd
    unfold fsListOut
    rw [usedNode_ofNat t n (wf.locate_used h)]
    dsimp only
    rw [hd]
    rfl
  path := fsMakePath_stored wf (wf.locate_used h) (at_absolutePath wf h)

end Reads

theorem reads_refine_filledDir : ReadsAs filledDir (treeOf filledDir) 1 [lit "a"] := by
  have hat : At filledDir 1 [lit "a"] := by decide +kernel
  exact reads_refine filledDir_wellFormed hat

end FurOS
