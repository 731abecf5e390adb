import Mathlib.Data.Set.Card
import FurOS.Foundation.Branching
import FurOS.Fs.Outcomes

/-! The filesystem as a tree of names.

A place is the list of names from the root on, and `treeOf` is what stands at each place of a node table: nothing, a
directory or a file. `locate` finds the node
at a place by going down from the root, and in a well-formed table every used node is at one place
(`WellFormed.located`). A path leads in the tree where it leads in the table (`resolve_related`), and each of the
changes of one slot is a change of the tree at one place (`Created.tree`, `treeOf_update`, `treeOf_free`). -/
namespace FurOS
open Foundation (components walk Branching)

/-! ### Places -/

/-- The names from the root on. -/
abbrev Place := List (List UInt8)

/-- One component of a path, among places. -/
def enter (has : Place → Bool) (loc : Place) (name : List UInt8) : Option Place :=
  if name = lit "." then some loc
  else if name = lit ".." then some loc.dropLast
  else if has (loc ++ [name]) then some (loc ++ [name]) else none

/-- Where a path leads from `loc`. -/
def follow (has : Place → Bool) (loc : Place) (path : List UInt8) : Option Place :=
  walk (enter has) (if path.head? = some slash then [] else loc) (components slash path)

/-! ### Trees -/

/-- What stands at a place. -/
inductive Item where
  | dir (owner mode : UInt16)
  | file (owner mode : UInt16) (bytes : List UInt8)

namespace Item

def isDir : Item → Bool
  | dir _ _ => true
  | file _ _ _ => false

def owner : Item → UInt16
  | dir owner _ => owner
  | file owner _ _ => owner

def mode : Item → UInt16
  | dir _ mode => mode
  | file _ mode _ => mode

/-- What a file holds. -/
def bytes : Item → Option (List UInt8)
  | dir _ _ => none
  | file _ _ bytes => some bytes

end Item

def itemOf (n : FsNode) : Item := if n.isDir then .dir n.owner n.mode else .file n.owner n.mode (contents n)

theorem itemOf_isDir (n : FsNode) : (itemOf n).isDir = n.isDir := by
  unfold itemOf
  cases n.isDir <;> rfl

theorem itemOf_owner (n : FsNode) : (itemOf n).owner = n.owner := by
  unfold itemOf
  cases n.isDir <;> rfl

theorem itemOf_mode (n : FsNode) : (itemOf n).mode = n.mode := by
  unfold itemOf
  cases n.isDir <;> rfl

theorem itemOf_bytes (n : FsNode) : (itemOf n).bytes = if n.isDir then none else some (contents n) := by
  unfold itemOf
  cases n.isDir <;> rfl

abbrev FileTree := Place → Option Item

namespace FileTree

def has (A : FileTree) (loc : Place) : Bool := (A loc).isSome

def isDirAt (A : FileTree) (loc : Place) : Bool := (A loc).any Item.isDir

/-- The directory and the name that a new entry gets; what stands before the name has less than 128
characters (`sizeof(parent_path)`). -/
def split (A : FileTree) (loc : Place) (path : List UInt8) : Option (Place × List UInt8) :=
  (lastSlash path).elim (if isValidName path then some (loc, path) else none) fun pos =>
    if pos ≥ 128 then none
    else
      (walk (enter A.has) (if path.head? = some slash then [] else loc)
        (components slash (path.take pos))).bind fun front =>
          if A.isDirAt front && isValidName (path.drop (pos + 1)) then some (front, path.drop (pos + 1)) else none

end FileTree

/-! ### The tree of a table -/

/-- The child of a slot with a name; the root, that is its own parent, is none. -/
def childOf (t : Nodes) (c : NodeId) (name : List UInt8) : Option NodeId :=
  (findChild t (c.val : Int) name).filter fun i => decide (i ≠ 0)

/-- The node at a place. -/
def locate (t : Nodes) (loc : Place) : Option NodeId := walk (childOf t) 0 loc

def treeOf (t : Nodes) : FileTree := fun loc => (locate t loc).map fun n => itemOf (t n)

theorem childOf_eq_some {t : Nodes} {c i : NodeId} {name : List UInt8} (h : childOf t c name = some i) :
    i ≠ 0 ∧ (t i).used = true ∧ (t i).parent.toInt = c.val ∧ cstr (t i).name = name := by
  obtain ⟨hfound, hi⟩ := Option.filter_eq_some_iff.mp h
  exact ⟨by simpa using hi, findChild_eq_some hfound⟩

theorem childOf_branching (t : Nodes) : Branching (childOf t) 0 where
  root c s h := (childOf_eq_some h).1 rfl
  once h h' := by
    obtain ⟨-, -, hp, hn⟩ := childOf_eq_some h
    obtain ⟨-, -, hp', hn'⟩ := childOf_eq_some h'
    exact ⟨Fin.ext (by rw [hp] at hp'; exact_mod_cast hp'), hn.symm.trans hn'⟩

/-- A place has one node, and a node one place. -/
theorem locate_inj {t : Nodes} {loc loc' : Place} {n : NodeId} (h : locate t loc = some n)
    (h' : locate t loc' = some n) : loc = loc' := (childOf_branching t).walk_inj h h'

theorem locate_root (t : Nodes) : locate t [] = some 0 := rfl

theorem locate_eq_root_iff {t : Nodes} {loc : Place} : locate t loc = some 0 ↔ loc = [] :=
  ⟨fun h => locate_inj h (locate_root t), fun h => h ▸ locate_root t⟩

theorem locate_concat (t : Nodes) (loc : Place) (name : List UInt8) :
    locate t (loc ++ [name]) = (locate t loc).bind fun c => childOf t c name :=
  Foundation.walk_concat (childOf t) 0 loc name

theorem has_treeOf (t : Nodes) (loc : Place) : (treeOf t).has loc = (locate t loc).isSome := Option.isSome_map ..

theorem isDirAt_treeOf {t : Nodes} {loc : Place} {n : NodeId} (h : locate t loc = some n) :
    (treeOf t).isDirAt loc = (t n).isDir := by
  unfold FileTree.isDirAt treeOf
  rw [h]
  exact itemOf_isDir (t n)

theorem treeOf_eq {t : Nodes} {loc : Place} {n : NodeId} (h : locate t loc = some n) :
    treeOf t loc = some (itemOf (t n)) := congrArg (Option.map fun n => itemOf (t n)) h

/-- The node is at the place. -/
abbrev At (t : Nodes) (n : NodeId) (loc : Place) : Prop := locate t loc = some n

theorem start_related {t : Nodes} {c : NodeId} {loc : Place} (h : At t c loc) (path : List UInt8) :
    At t (startOf c path) (if path.head? = some slash then [] else loc) := by
  unfold startOf
  split
  · exact locate_root t
  · exact h

section WellFormed
variable {t : Nodes} (wf : WellFormed t)
include wf

theorem WellFormed.locate_used {loc : Place} {n : NodeId} (h : locate t loc = some n) : (t n).used = true :=
  Foundation.walk_invariant (P := fun n => (t n).used = true) (fun _ _ _ _ hstep => (childOf_eq_some hstep).2.1)
    wf.root_used h

/-- A used node other than the root is the child of its parent. -/
theorem WellFormed.childOf_iff {c i : NodeId} {name : List UInt8} : childOf t c name = some i ↔
    i ≠ 0 ∧ (t i).used = true ∧ (t i).parent.toInt = c.val ∧ cstr (t i).name = name := by
  refine ⟨childOf_eq_some, fun ⟨h0, hu, hp, hn⟩ => ?_⟩
  have hself := wf.findChild_self i hu h0
  rw [hp, hn] at hself
  exact Option.filter_eq_some_iff.mpr ⟨hself, decide_eq_true h0⟩

/-- Every used node is at a place. -/
theorem WellFormed.located {n : NodeId} (h : (t n).used = true) : ∃ loc, locate t loc = some n := by
  have hrooted := wf.tree.rooted n h
  induction hrooted with
  | root => exact ⟨[], locate_root t⟩
  | @step i j hp _ ih =>
    by_cases h0 : i = 0
    · exact ⟨[], h0 ▸ locate_root t⟩
    · have hparent := parentOf_eq_some.mp hp
      obtain ⟨p, hp', hu, _⟩ := wf.parent i h
      have hpj : p = j := Fin.ext (by rw [hp'] at hparent; exact_mod_cast hparent)
      obtain ⟨loc, hloc⟩ := ih (hpj ▸ hu)
      refine ⟨loc ++ [cstr (t i).name], ?_⟩
      rw [locate_concat, hloc, Option.bind_some]
      exact wf.childOf_iff.mpr ⟨h0, h, hparent, rfl⟩

/-- A component without a slash finds the same child. -/
theorem WellFormed.childOf_name (c : NodeId) {name : List UInt8} (hs : slash ∉ name) :
    childOf t c name = findChild t (c.val : Int) name := by
  unfold childOf
  cases hf : findChild t (c.val : Int) name with
  | none => rfl
  | some i =>
    obtain ⟨hu, -, hn⟩ := findChild_eq_some hf
    simp [wf.name_no_slash i hu hs hn]

/-! ### Paths -/

/-- One component leads on in the tree as it does in the table. -/
theorem stepName_related {c : NodeId} {loc : Place} (h : At t c loc) {name : List UInt8} (hs : slash ∉ name) :
    Option.Rel (At t) (stepName t c name) (enter (treeOf t).has loc name) := by
  unfold stepName enter
  by_cases hdot : name = lit "."
  · rw [if_pos hdot, if_pos hdot]
    exact .some h
  rw [if_neg hdot, if_neg hdot]
  by_cases hdots : name = lit ".."
  · rw [if_pos hdots, if_pos hdots]
    cases loc using List.reverseRecOn with
    | nil =>
      obtain rfl : c = 0 := (Option.some.inj h).symm
      exact .some (locate_root t)
    | append_singleton loc s =>
      have h' := h
      rw [At, locate_concat] at h'
      obtain ⟨p, hp, hchild⟩ := Option.bind_eq_some_iff.mp h'
      obtain ⟨h0, -, hparent, -⟩ := childOf_eq_some hchild
      rw [if_neg h0, parentOf_eq_some.mpr hparent, List.dropLast_concat]
      exact .some hp
  rw [if_neg hdots, if_neg hdots, has_treeOf, locate_concat, h, Option.bind_some, wf.childOf_name c hs]
  cases hf : findChild t (c.val : Int) name with
  | none => exact .none
  | some i =>
    refine .some ?_
    rw [At, locate_concat, h, Option.bind_some, wf.childOf_name c hs, hf]

theorem walk_stepName_related {c : NodeId} {loc : Place} (h : At t c loc) {names : List (List UInt8)}
    (hs : ∀ s ∈ names, slash ∉ s) :
    Option.Rel (At t) (walk (stepName t) c names) (walk (enter (treeOf t).has) loc names) := by
  have hstep (c : NodeId) (loc : Place) (h : At t c loc) (s : List UInt8) (hmem : s ∈ names) :
      Option.Rel (At t) (stepName t c s) (enter (treeOf t).has loc s) := stepName_related wf h (hs s hmem)
  exact Foundation.walk_related hstep h

/-- **A path leads in the tree where it leads in the table.** -/
theorem resolve_related {c : NodeId} {loc : Place} (h : At t c loc) (path : List UInt8) :
    Option.Rel (At t) (resolve t c path) (follow (treeOf t).has loc path) :=
  walk_stepName_related wf (start_related h path) fun _ hs => (Foundation.no_sep_of_mem_components slash hs).1

/-- A path is split into the same directory and name. -/
theorem split_related {c : NodeId} {loc : Place} (h : At t c loc) (path : CStr) :
    Option.Rel (fun x y => At t x.1 y.1 ∧ x.2.chars = y.2) (parentNode t c path)
      ((treeOf t).split loc path.chars) := by
  have hleaf {p : NodeId} {front : Place} (hp : At t p front) (s : CStr) :
      Option.Rel (fun x y => At t x.1 y.1 ∧ x.2.chars = y.2) ((validLeaf s).map fun leaf => (p, leaf))
        (if isValidName s.chars then some (front, s.chars) else none) := by
    unfold validLeaf
    split
    · exact .some ⟨hp, rfl⟩
    · exact .none
  unfold parentNode FileTree.split
  cases hk : lastSlash path.chars with
  | none => exact hleaf h path
  | some pos =>
    dsimp only [Option.elim]
    by_cases hlong : pos ≥ 128
    · rw [if_pos hlong, if_pos hlong]
      exact .none
    rw [if_neg hlong, if_neg hlong]
    have hfront := walk_stepName_related wf (start_related h path.chars)
      (fun s (hs : s ∈ components slash (path.chars.take pos)) => (Foundation.no_sep_of_mem_components slash hs).1)
    generalize walk (stepName t) (startOf c path.chars) (components slash (path.chars.take pos)) = x at hfront ⊢
    generalize walk (enter (treeOf t).has) _ (components slash (path.chars.take pos)) = y at hfront ⊢
    cases hfront with
    | none => exact .none
    | @some p front hp =>
      rw [Option.bind_some, Option.bind_some, isDirAt_treeOf hp]
      cases (t p).isDir with
      | false => exact .none
      | true =>
        rw [if_pos rfl, Bool.true_and]
        exact hleaf hp (path.drop (pos + 1))

/-! ### Changes of one slot -/

theorem Created.childOf_iff {t' : Nodes} {n p : NodeId} {leaf : Name} {dir : Bool} {owner mode : UInt16}
    (h : Created t t' n p leaf dir owner mode) (wf' : WellFormed t') {c i : NodeId} {name : List UInt8} :
    childOf t' c name = some i ↔ (i = n ∧ c = p ∧ name = leaf.chars) ∨ childOf t c name = some i := by
  rw [wf'.childOf_iff, wf.childOf_iff]
  by_cases hi : i = n
  · subst hi
    constructor
    · rintro ⟨-, -, hparent, hname⟩
      rw [h.parent] at hparent
      exact .inl ⟨rfl, Fin.ext (by exact_mod_cast hparent.symm), hname.symm.trans h.name⟩
    · rintro (⟨-, rfl, rfl⟩ | ⟨-, hu, -, -⟩)
      · exact ⟨h.slot, h.used, h.parent, h.name⟩
      · rw [h.free] at hu
        cases hu
  · rw [h.other i hi]
    constructor
    · exact fun hold => .inr hold
    · rintro (⟨rfl, -, -⟩ | hold)
      · exact absurd rfl hi
      · exact hold

/-- A new node is one place more. -/
theorem Created.locate {t' : Nodes} {n p : NodeId} {leaf : Name} {dir : Bool} {owner mode : UInt16}
    (h : Created t t' n p leaf dir owner mode) (wf' : WellFormed t') {front : Place} (hp : At t p front)
    (hnone : findChild t (p.val : Int) leaf.chars = none) (loc : Place) :
    locate t' loc = if loc = front ++ [leaf.chars] then some n else FurOS.locate t loc := by
  have hunused : ∀ i, (t i).used = true → i ≠ n := fun i hi heq => by
    rw [heq, h.free] at hi
    cases hi
  refine (childOf_branching t).walk_grow hp h.slot (fun c s hc => ?_) ?_ ?_ (fun s => ?_) (fun c s hcn hcs => ?_) loc
  · exact hunused n (childOf_eq_some hc).2.1 rfl
  · rw [wf.childOf_name p leaf.no_slash, hnone]
  · exact (h.childOf_iff wf wf').mpr (.inl ⟨rfl, rfl, rfl⟩)
  · rw [Option.eq_none_iff_forall_ne_some]
    intro i hi
    rcases (h.childOf_iff wf wf').mp hi with ⟨-, rfl, -⟩ | hi
    · exact hunused n (wf.locate_used hp) rfl
    · obtain ⟨-, hu, hparent, -⟩ := childOf_eq_some hi
      obtain ⟨q, hq, huq, -⟩ := wf.parent i hu
      rw [hparent] at hq
      exact hunused q huq (Fin.ext (by exact_mod_cast hq.symm))
  · refine Option.ext fun i => ?_
    rw [h.childOf_iff wf wf']
    exact or_iff_right fun hnew => hcs hnew.2

theorem Created.tree {t' : Nodes} {n p : NodeId} {leaf : Name} {dir : Bool} {owner mode : UInt16}
    (h : Created t t' n p leaf dir owner mode) (wf' : WellFormed t') {front : Place} (hp : At t p front)
    (hnone : findChild t (p.val : Int) leaf.chars = none) :
    treeOf t' = Function.update (treeOf t) (front ++ [leaf.chars]) (some (itemOf (t' n))) := by
  funext loc
  unfold treeOf
  rw [h.locate wf wf' hp hnone]
  by_cases hloc : loc = front ++ [leaf.chars]
  · rw [if_pos hloc, hloc, Function.update_self]
    rfl
  · rw [if_neg hloc, Function.update_of_ne hloc]
    cases hi : FurOS.locate t loc with
    | none => rfl
    | some i =>
      show some (itemOf (t' i)) = some (itemOf (t i))
      rw [h.old (wf.locate_used hi)]

/-- A slot without children that is freed is a place less. -/
theorem treeOf_free {n : NodeId} (h0 : n ≠ 0) (hchildren : ∀ i, (t i).used = true → (t i).parent.toInt ≠ n.val)
    {loc : Place} (hn : At t n loc) :
    treeOf (Function.update t n {t n with used := false}) = Function.update (treeOf t) loc none := by
  have wf' := wf.free n h0 hchildren
  have hlocate (l : Place) : locate (Function.update t n {t n with used := false}) l =
      if locate t l = some n then none else locate t l := by
    refine Foundation.walk_prune h0 (fun s => ?_) (fun c s hcn => ?_) l
    · rw [Option.eq_none_iff_forall_ne_some]
      intro i hi
      obtain ⟨-, hu, hparent, -⟩ := childOf_eq_some hi
      exact hchildren i hu hparent
    · refine Option.ext fun i => ?_
      rw [wf'.childOf_iff]
      by_cases hi : i = n
      · subst hi
        rw [Function.update_self]
        split
        · simp
        · rename_i hne
          simp [hne]
      · rw [Function.update_of_ne hi, ← wf.childOf_iff]
        split
        · rename_i heq
          rw [heq]
          simp [Ne.symm hi]
        · exact Iff.rfl
  funext l
  unfold treeOf
  rw [hlocate]
  by_cases hl : l = loc
  · rw [hl, if_pos hn, Function.update_self]
    rfl
  · rw [if_neg fun heq => hl (locate_inj heq hn), Function.update_of_ne hl]
    cases hi : locate t l with
    | none => rfl
    | some i =>
      have hin : i ≠ n := fun heq => hl (locate_inj (heq ▸ hi) hn)
      show some (itemOf (Function.update t n _ i)) = some (itemOf (t i))
      rw [Function.update_of_ne hin]

end WellFormed

/-- Another node of its name and its parent in a used slot is another item at its place. -/
theorem treeOf_update {t : Nodes} {n : NodeId} {m : FsNode} (hu : m.used = (t n).used) (hp : m.parent = (t n).parent)
    (hname : cstr m.name = cstr (t n).name) {loc : Place} (hn : At t n loc) :
    treeOf (Function.update t n m) = Function.update (treeOf t) loc (some (itemOf m)) := by
  have hused := update_field (t := t) FsNode.used hu
  have hparent := update_field (t := t) FsNode.parent hp
  have hnames := update_field (t := t) (fun n => cstr n.name) hname
  have hchild : childOf (Function.update t n m) = childOf t := by
    funext c name
    unfold childOf findChild
    simp only [hused, hparent, hnames]
  funext l
  unfold treeOf locate
  rw [hchild]
  by_cases hl : l = loc
  · rw [hl, Function.update_self]
    show ((locate t loc).map fun n' => itemOf (Function.update t n m n')) = _
    rw [hn, Option.map_some, Function.update_self]
  · rw [Function.update_of_ne hl]
    show ((locate t l).map fun n' => itemOf (Function.update t n m n')) = (locate t l).map fun n => itemOf (t n)
    cases hi : locate t l with
    | none => rfl
    | some i =>
      have hin : i ≠ n := fun heq => hl (locate_inj (heq ▸ hi) hn)
      rw [Option.map_some, Option.map_some, Function.update_of_ne hin]

/-! ### Room -/

/-- There is no room in a tree of `FS_MAX_NODES` places. -/
def FileTree.Full (A : FileTree) : Prop := 128 ≤ {loc | A.has loc = true}.ncard

/-- As many places as used nodes. -/
theorem WellFormed.ncard_places {t : Nodes} (wf : WellFormed t) :
    {loc | (treeOf t).has loc = true}.ncard = {n | (t n).used = true}.ncard := by
  have hsome (loc : Place) (h : loc ∈ {loc | (treeOf t).has loc = true}) : (locate t loc).isSome = true := by
    rwa [Set.mem_ofPred_eq, has_treeOf] at h
  refine Set.ncard_congr (fun loc h => (locate t loc).get (hsome loc h)) (fun loc h => ?_) (fun l l' h h' heq => ?_)
    (fun n hn => ?_)
  · exact wf.locate_used (Option.some_get (hsome loc h)).symm
  · exact locate_inj (Option.some_get (hsome l h)).symm (heq ▸ (Option.some_get (hsome l' h')).symm)
  · obtain ⟨loc, hloc⟩ := wf.located hn
    refine ⟨loc, ?_, ?_⟩
    · rw [Set.mem_ofPred_eq, has_treeOf, hloc]
      rfl
    · simp only [hloc, Option.get_some]

/-- No slot is free when there is no room. -/
theorem WellFormed.allocNode_iff {t : Nodes} (wf : WellFormed t) : allocNode t = none ↔ (treeOf t).Full := by
  have hall : allocNode t = none ↔ ∀ i, (t i).used = true := by
    unfold allocNode
    cases hf : Fin.find? (fun i : NodeId => decide (i ≠ 0) && !(t i).used) with
    | none =>
      rw [Fin.find?_eq_none_iff] at hf
      refine ⟨fun _ i => ?_, fun _ => rfl⟩
      by_cases h0 : i = 0
      · exact h0 ▸ wf.root_used
      · simpa [h0] using hf i
    | some i =>
      have hfree := (Fin.find?_eq_some_iff.mp hf).1
      refine ⟨fun h => (by cases h), fun h => ?_⟩
      rw [h i] at hfree
      simp at hfree
  have hcard : Nat.card NodeId = 128 := Nat.card_fin 128
  unfold FileTree.Full
  rw [hall, wf.ncard_places, ← hcard, ← Set.ncard_univ]
  constructor
  · intro h
    rw [show {n | (t n).used = true} = Set.univ from Set.eq_univ_of_forall h]
  · intro h i
    have huniv := Set.eq_of_subset_of_ncard_le (Set.subset_univ {n | (t n).used = true}) h
    have hi : i ∈ {n | (t n).used = true} := by
      rw [huniv]
      exact Set.mem_univ i
    exact hi

end FurOS
