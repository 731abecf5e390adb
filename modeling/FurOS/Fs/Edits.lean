import FurOS.Fs.Outcomes
import FurOS.Fs.Shape
import Mathlib.Logic.Relation

/-! What the filesystem operations do to any table.

A table need not be in order: an image may hold anything, and a shell whose directory was removed
goes on making nodes below a free slot. Whatever the table, an operation that ends has made nodes
where none of that name was, filled files, freed slots, and set owners and modes (`Edits`). So
slots keep ending inside their arrays, and a file that is neither filled nor freed stays where its
name finds it (`Edits.holds`). -/
namespace FurOS

/-! ### Names in a directory -/

/-- The slot is one that `find_child` looks for. -/
def Matches (t : Nodes) (parent : Int) (name : List UInt8) (i : NodeId) : Prop :=
  (t i).used = true ∧ (t i).parent.toInt = parent ∧ cstr (t i).name = name

theorem findChild_eq_some_iff {t : Nodes} {parent : Int} {name : List UInt8} {i : NodeId} :
    findChild t parent name = some i ↔ Matches t parent name i ∧ ∀ j < i, ¬ Matches t parent name j := by
  unfold findChild
  rw [Fin.find?_eq_some_iff]
  unfold Matches
  simp [and_assoc]

/-- A name still finds its slot where nothing else has come to match. -/
theorem findChild_kept {t t' : Nodes} {parent : Int} {name : List UInt8} {i : NodeId}
    (h : findChild t parent name = some i) (hi : Matches t' parent name i)
    (hback : ∀ j, Matches t' parent name j → Matches t parent name j) : findChild t' parent name = some i := by
  obtain ⟨_, hfirst⟩ := findChild_eq_some_iff.mp h
  exact findChild_eq_some_iff.mpr ⟨hi, fun j hj hmatch => hfirst j hj (hback j hmatch)⟩

section Loop
variable (t : Nodes) (current : Int)

/-- Characters without a `'/'` go into the token. -/
theorem resolveLoop_block (tok : Token) {block : List UInt8} (hs : slash ∉ block)
    (hfits : (tok.chars ++ block).length ≤ 31) (rest : List UInt8) :
    resolveLoop t current tok (block ++ rest) = resolveLoop t current ⟨tok.chars ++ block, hfits⟩ rest := by
  induction block generalizing tok with
  | nil => simp
  | cons ch block ih =>
    have hch : ch ≠ slash := fun h => hs (by simp [h])
    have hlen : ¬ tok.chars.length ≥ 31 := by
      rw [List.length_append, List.length_cons] at hfits
      omega
    have hrest := ih (tok.push ch hlen) (fun h => hs (by simp [h])) (by simpa [Token.push] using hfits)
    rw [List.cons_append, resolveLoop, if_neg hch, dif_neg hlen, hrest]
    simp [Token.push]

/-- A first component goes into the empty token. -/
theorem resolveLoop_first {block : List UInt8} (hs : slash ∉ block) (hfits : block.length ≤ 31)
    (rest : List UInt8) :
    resolveLoop t current Token.empty (block ++ rest) = resolveLoop t current ⟨block, hfits⟩ rest :=
  resolveLoop_block t current Token.empty hs hfits rest

/-- A token that is neither `.` nor `..` is looked up. -/
theorem enterToken_name {tok : Token} (hne : tok.chars ≠ []) (hdot : tok.chars ≠ lit ".")
    (hdots : tok.chars ≠ lit "..") :
    enterToken t current tok = .ok ((findChild t current tok.chars).map fun i => (i.val : Int)) := by
  unfold enterToken
  rw [if_neg hne, if_neg hdot, if_neg hdots]
  cases findChild t current tok.chars with
  | none => rfl
  | some i => rfl

end Loop

/-- A name that a path may consist of: one component, neither `.` nor `..`. -/
structure PlainName (name : List UInt8) : Prop where
  ne_nil : name ≠ []
  no_slash : slash ∉ name
  length_le : name.length ≤ 31
  ne_dot : name ≠ lit "."
  ne_dots : name ≠ lit ".."

/-- A path of one name leads to the child of that name, whatever the table. -/
theorem fsResolve_name (t : Nodes) (cwd : Int) {path : CStr} (h : PlainName path.chars) :
    fsResolve t cwd path = .ok (toC (findChild t cwd path.chars)) := by
  have hhead : path.chars.head? ≠ some slash := fun hh => h.no_slash (List.mem_of_head? hh)
  have hloop := resolveLoop_first t cwd h.no_slash h.length_le []
  rw [List.append_nil] at hloop
  unfold fsResolve
  rw [if_neg h.ne_nil, if_neg hhead, hloop, resolveLoop, enterToken_name t cwd h.ne_nil h.ne_dot h.ne_dots]
  cases findChild t cwd path.chars with
  | none => rfl
  | some i => rfl

/-- A path of two names leads to the child of the child. -/
theorem fsResolve_names (t : Nodes) (cwd : Int) {path : CStr} {front back : List UInt8}
    (hpath : path.chars = front ++ slash :: back) (hf : PlainName front) (hb : PlainName back) :
    fsResolve t cwd path = .ok (toC ((findChild t cwd front).bind fun i => findChild t i.val back)) := by
  have hne : path.chars ≠ [] := by
    rw [hpath]
    simp
  have hhead : path.chars.head? ≠ some slash := by
    intro hh
    rw [hpath, List.head?_append_of_ne_nil _ hf.ne_nil] at hh
    exact hf.no_slash (List.mem_of_head? hh)
  unfold fsResolve
  rw [if_neg hne, if_neg hhead, hpath, resolveLoop_first t cwd hf.no_slash hf.length_le, resolveLoop,
    if_pos rfl, enterToken_name t cwd hf.ne_nil hf.ne_dot hf.ne_dots]
  cases findChild t cwd front with
  | none => rfl
  | some i =>
    have hloop := resolveLoop_first t i.val hb.no_slash hb.length_le []
    rw [List.append_nil] at hloop
    show resolveLoop t i.val Token.empty back = _
    rw [hloop, resolveLoop, enterToken_name t i.val hb.ne_nil hb.ne_dot hb.ne_dots, Option.bind_some]
    cases findChild t i.val back with
    | none => rfl
    | some j => rfl

/-! ### Edits -/

/-- One change of a table. Only slots of `P` are filled or freed. -/
inductive Edit (P : NodeId → Prop) (t : Nodes) : Nodes → Prop where
  | made {n p : NodeId} {leaf : Name} {dir : Bool} {owner mode : UInt16} {t' : Nodes} :
      findChild t (p.val : Int) leaf.chars = none → Created t t' n p leaf dir owner mode → Edit P t t'
  | filled {n : NodeId} (bytes : List UInt8) : P n → Edit P t (Function.update t n (fillNode (t n) bytes))
  | freed {n : NodeId} : P n → n ≠ 0 → Edit P t (Function.update t n {t n with used := false})
  | owned (n : NodeId) (owner : UInt16) : Edit P t (Function.update t n {t n with owner := owner})
  | moded (n : NodeId) (mode : UInt16) : Edit P t (Function.update t n {t n with mode := mode &&& 0o777})

/-- Any number of changes, one after another. -/
def Edits (P : NodeId → Prop) : Nodes → Nodes → Prop := Relation.ReflTransGen (Edit P)

namespace Edits
variable {P : NodeId → Prop} {t t' t'' : Nodes}

theorem refl (t : Nodes) : Edits P t t := Relation.ReflTransGen.refl

theorem trans (h : Edits P t t') (h' : Edits P t' t'') : Edits P t t'' := Relation.ReflTransGen.trans h h'

theorem one (h : Edit P t t') : Edits P t t' := .single h

/-- What every change preserves. -/
theorem invariant {Q : Nodes → Prop} (hQ : ∀ t t', Q t → Edit P t t' → Q t') (h : Edits P t t') (hq : Q t) :
    Q t' := by
  induction h with
  | refl => exact hq
  | tail _ hstep ih => exact hQ _ _ ih hstep

end Edits

/-! ### What edits keep -/

/-- A file of the root, with its bytes. -/
structure Holds (t : Nodes) (name bytes : List UInt8) (f : NodeId) : Prop where
  found : findChild t 0 name = some f
  file : (t f).isDir = false
  bytes : contents (t f) = bytes

theorem Edit.normal {P : NodeId → Prop} {t t' : Nodes} (hn : ∀ i, Normal (t i)) (h : Edit P t t') (i : NodeId) :
    Normal (t' i) := by
  cases h with
  | made _ hcr => exact hcr.normal hn i
  | @filled n bytes _ => exact normal_update hn ⟨fillNode_contained _ bytes (hn n).mode, (hn n).name⟩ i
  | @freed n _ _ =>
    obtain ⟨⟨hs, hz, hm⟩, hl⟩ := hn n
    exact normal_update hn (m := {t n with used := false}) ⟨⟨hs, hz, hm⟩, hl⟩ i
  | owned n owner =>
    obtain ⟨⟨hs, hz, hm⟩, hl⟩ := hn n
    exact normal_update hn (m := {t n with owner := owner}) ⟨⟨hs, hz, hm⟩, hl⟩ i
  | moded n mode =>
    obtain ⟨⟨hs, hz, _⟩, hl⟩ := hn n
    exact normal_update hn (m := {t n with mode := mode &&& 0o777}) ⟨⟨hs, hz, mask_mode mode⟩, hl⟩ i

/-- The root stays in use, and a directory. -/
theorem Edit.root {P : NodeId → Prop} {t t' : Nodes} (h : Edit P t t')
    (hroot : (t 0).used = true ∧ (t 0).isDir = true) : (t' 0).used = true ∧ (t' 0).isDir = true := by
  cases h with
  | made _ hcr => rwa [hcr.other 0 hcr.slot.symm]
  | @filled n bytes _ =>
    rw [update_field (m := fillNode (t n) bytes) FsNode.used rfl,
      update_field (m := fillNode (t n) bytes) FsNode.isDir rfl]
    exact hroot
  | freed _ h0 => rwa [Function.update_of_ne h0.symm]
  | owned n owner =>
    rw [update_field (m := {t n with owner := owner}) FsNode.used rfl,
      update_field (m := {t n with owner := owner}) FsNode.isDir rfl]
    exact hroot
  | moded n mode =>
    rw [update_field (m := {t n with mode := mode &&& 0o777}) FsNode.used rfl,
      update_field (m := {t n with mode := mode &&& 0o777}) FsNode.isDir rfl]
    exact hroot

/-- A slot changed in something other than its parent and its name, and still in use where it is the
one that was found. -/
theorem findChild_update {t : Nodes} {parent : Int} {name : List UInt8} {f n : NodeId} {m : FsNode}
    (h : findChild t parent name = some f) (hu : m.used = true → (t n).used = true)
    (hp : m.parent = (t n).parent) (hname : m.name = (t n).name) (hf : f = n → m.used = true) :
    findChild (Function.update t n m) parent name = some f := by
  have hparent := update_field (t := t) FsNode.parent hp
  have hnames := update_field (t := t) FsNode.name hname
  refine findChild_kept h ?_ fun j hj => ?_
  · obtain ⟨hused, hpar, hnam⟩ := findChild_eq_some h
    refine ⟨?_, by rw [hparent, hpar], by rw [hnames, hnam]⟩
    by_cases hfn : f = n
    · rw [hfn, Function.update_self]
      exact hf hfn
    · rw [Function.update_of_ne hfn, hused]
  · obtain ⟨hused, hpar, hnam⟩ := hj
    rw [hparent] at hpar
    rw [hnames] at hnam
    refine ⟨?_, hpar, hnam⟩
    by_cases hjn : j = n
    · rw [hjn, Function.update_self] at hused
      rw [hjn]
      exact hu hused
    · rwa [Function.update_of_ne hjn] at hused

/-- A new node does not come before one that a name finds already. -/
theorem Created.findChild_old {t t' : Nodes} {n p f : NodeId} {leaf : Name} {dir : Bool} {owner mode : UInt16}
    (h : Created t t' n p leaf dir owner mode) (hnone : findChild t (p.val : Int) leaf.chars = none)
    {parent : Int} {name : List UInt8} (hf : findChild t parent name = some f) :
    findChild t' parent name = some f := by
  obtain ⟨hused, hpar, hname⟩ := findChild_eq_some hf
  have hold := h.old hused
  refine findChild_kept hf ⟨by rw [hold, hused], by rw [hold, hpar], by rw [hold, hname]⟩ fun j hj => ?_
  by_cases hjn : j = n
  · obtain ⟨_, hpar', hname'⟩ := hj
    rw [hjn, h.parent] at hpar'
    rw [hjn, h.name] at hname'
    rw [hpar', hname', hf] at hnone
    cases hnone
  · unfold Matches at hj ⊢
    rwa [h.other j hjn] at hj

/-- The name of a new node finds it, where it found nothing. -/
theorem Created.findChild_new {t t' : Nodes} {n p : NodeId} {leaf : Name} {dir : Bool} {owner mode : UInt16}
    (h : Created t t' n p leaf dir owner mode) (hnone : findChild t (p.val : Int) leaf.chars = none) :
    findChild t' (p.val : Int) leaf.chars = some n := by
  refine findChild_eq_some_iff.mpr ⟨⟨h.used, h.parent, h.name⟩, fun j hj hmatch => ?_⟩
  obtain ⟨hused, hpar, hname⟩ := hmatch
  rw [h.other j hj.ne] at hused hpar hname
  exact findChild_eq_none.mp hnone j hused hpar hname

/-- **A node that is neither filled nor freed stays** where a name finds it, with its data. -/
theorem Edit.kept {t t' : Nodes} {parent : Int} {name : List UInt8} {f : NodeId} (h : Edit (· ≠ f) t t')
    (hf : findChild t parent name = some f) : findChild t' parent name = some f ∧
      (t' f).isDir = (t f).isDir ∧ (t' f).data = (t f).data ∧ (t' f).size = (t f).size := by
  have hsame : ∀ {n : NodeId} {m : FsNode}, (m.used = true → (t n).used = true) → m.parent = (t n).parent →
      m.name = (t n).name → m.isDir = (t n).isDir →
      (f = n → m.used = true ∧ m.data = (t n).data ∧ m.size = (t n).size) →
      findChild (Function.update t n m) parent name = some f ∧ (Function.update t n m f).isDir = (t f).isDir ∧
        (Function.update t n m f).data = (t f).data ∧ (Function.update t n m f).size = (t f).size := by
    intro n m hu hp hname hdir hfn
    refine ⟨findChild_update hf hu hp hname fun h => (hfn h).1, update_field FsNode.isDir hdir f, ?_⟩
    by_cases heq : f = n
    · rw [heq, Function.update_self]
      exact (hfn heq).2
    · rw [Function.update_of_ne heq]
      exact ⟨rfl, rfl⟩
  have hused := (findChild_eq_some hf).1
  cases h with
  | made hnone hcr =>
    have hold := hcr.old hused
    exact ⟨hcr.findChild_old hnone hf, by rw [hold], by rw [hold], by rw [hold]⟩
  | filled bytes hne => exact hsame id rfl rfl rfl fun hf => absurd hf.symm hne
  | freed hne _ => exact hsame (fun h => by cases h) rfl rfl rfl fun hf => absurd hf.symm hne
  | owned n owner => exact hsame id rfl rfl rfl fun hf => ⟨hf ▸ hused, rfl, rfl⟩
  | moded n mode => exact hsame id rfl rfl rfl fun hf => ⟨hf ▸ hused, rfl, rfl⟩

/-- **A file that is neither filled nor freed stays.** -/
theorem Edit.holds {t t' : Nodes} {name bytes : List UInt8} {f : NodeId} (h : Edit (· ≠ f) t t')
    (hd : Holds t name bytes f) : Holds t' name bytes f := by
  obtain ⟨hfound, hdir, hdata, hsize⟩ := h.kept hd.found
  refine ⟨hfound, hdir.trans hd.file, ?_⟩
  rw [← hd.bytes, contents, contents, hdata, hsize]

namespace Edits
variable {P : NodeId → Prop} {t t' : Nodes}

theorem normal (h : Edits P t t') (hn : ∀ i, Normal (t i)) : ∀ i, Normal (t' i) :=
  h.invariant (Q := fun t => ∀ i, Normal (t i)) (fun _ _ hn hstep => hstep.normal hn) hn

theorem root (h : Edits P t t') (hroot : (t 0).used = true ∧ (t 0).isDir = true) :
    (t' 0).used = true ∧ (t' 0).isDir = true :=
  h.invariant (Q := fun t => (t 0).used = true ∧ (t 0).isDir = true) (fun _ _ hroot hstep => hstep.root hroot) hroot

theorem kept {parent : Int} {name : List UInt8} {f : NodeId} (h : Edits (· ≠ f) t t')
    (hf : findChild t parent name = some f) : findChild t' parent name = some f ∧
      (t' f).isDir = (t f).isDir ∧ (t' f).data = (t f).data ∧ (t' f).size = (t f).size :=
  h.invariant (Q := fun t' => findChild t' parent name = some f ∧
    (t' f).isDir = (t f).isDir ∧ (t' f).data = (t f).data ∧ (t' f).size = (t f).size)
    (fun _ _ hbefore hstep => by
      obtain ⟨hfound, hdir, hdata, hsize⟩ := hstep.kept hbefore.1
      exact ⟨hfound, hdir.trans hbefore.2.1, hdata.trans hbefore.2.2.1, hsize.trans hbefore.2.2.2⟩)
    ⟨hf, rfl, rfl, rfl⟩

theorem holds {name bytes : List UInt8} {f : NodeId} (h : Edits (· ≠ f) t t') (hd : Holds t name bytes f) :
    Holds t' name bytes f :=
  h.invariant (Q := fun t => Holds t name bytes f) (fun _ _ hd hstep => hstep.holds hd) hd

end Edits

/-! ### The operations -/

/-- Making a node from a directory of the table. -/
theorem create_edits (P : NodeId → Prop) {t t' : Nodes} {c : NodeId} {path : CStr} {dir : Bool}
    {owner mode : UInt16} {found : Bool → Int} {make : Int → Name → FsNode → FsNode} {r : Int}
    (hmake : Makes dir owner mode make) (h : create t (c.val : Int) path found make = .ok (r, t')) :
    Edits P t t' := by
  obtain ⟨o, hres, h⟩ := Foundation.bind_eq_ok.mp h
  cases o with
  | none =>
    cases h
    exact .refl t
  | some x =>
    obtain ⟨p, leaf⟩ := x
    obtain ⟨q, rfl⟩ := resolveParentAndLeaf_slot hres
    dsimp only at h
    cases hf : findChild t (q.val : Int) leaf.chars with
    | some e =>
      rw [hf] at h
      cases h
      exact .refl t
    | none =>
      rw [hf] at h
      dsimp only at h
      cases ha : allocNode t with
      | none =>
        rw [ha] at h
        cases h
        exact .refl t
      | some y =>
        rw [ha] at h
        cases h
        exact .one (.made hf (created_of_alloc q leaf hmake ha))

theorem fsMkdirAs_edits (P : NodeId → Prop) {t t' : Nodes} {c : NodeId} {path : CStr} {owner mode : UInt16} {r : Int}
    (h : fsMkdirAs t (c.val : Int) path owner mode = .ok (r, t')) : Edits P t t' :=
  create_edits P (dirNode_makes owner mode) (fsMkdirAs_eq .. ▸ h)

theorem fsTouchAs_edits (P : NodeId → Prop) {t t' : Nodes} {c : NodeId} {path : CStr} {owner mode : UInt16} {r : Int}
    (h : fsTouchAs t (c.val : Int) path owner mode = .ok (r, t')) : Edits P t t' :=
  create_edits P (fileNode_makes owner mode) (fsTouchAs_eq .. ▸ h)

/-- The node whose data `fs_write_file` replaces: where its path leads, after `fs_touch` where it led
nowhere before. -/
def writeTarget (t : Nodes) (cwd : Int) (path : CStr) : Except Fault Int := do
  let node ← fsResolve t cwd path
  if node < 0 then do
    let (_, t) ← fsTouch t cwd path
    fsResolve t cwd path
  else return node

theorem writeNode_edits {P : NodeId → Prop} {t t' : Nodes} {node : Int} {bytes : List UInt8} {r : Int}
    (h : writeNode t node (some bytes) bytes.length = .ok (r, t')) (hP : ∀ n : NodeId, node = n.val → P n) :
    Edits P t t' := by
  by_cases hneg : node < 0
  · unfold writeNode at h
    rw [if_pos hneg] at h
    cases h
    exact .refl t
  · have hslot := h
    unfold writeNode at hslot
    rw [if_neg hneg] at hslot
    obtain ⟨n, hn, _⟩ := Foundation.bind_eq_ok.mp hslot
    have hnode := nodeIndex_eq_ok.mp hn
    subst hnode
    cases hdir : (t n).isDir with
    | true =>
      rw [writeNode_dir t n hdir] at h
      cases h
      exact .refl t
    | false =>
      rw [writeNode_file t n hdir] at h
      cases h
      exact .one (.filled bytes (hP n rfl))

/-- A write fills its target and nothing else. -/
theorem fsWriteFile_edits {P : NodeId → Prop} {t t' : Nodes} {c : NodeId} {path : CStr} {bytes : List UInt8}
    {r : Int} (h : fsWriteFile t (c.val : Int) path (some bytes) bytes.length = .ok (r, t'))
    (hP : ∀ n : NodeId, writeTarget t (c.val : Int) path = .ok (n.val : Int) → P n) : Edits P t t' := by
  unfold writeTarget at hP
  obtain ⟨node, hres, h⟩ := Foundation.bind_eq_ok.mp h
  rw [hres, Foundation.ok_bind] at hP
  split at h
  · rename_i hneg
    obtain ⟨⟨status, t₁⟩, htouch, h⟩ := Foundation.bind_eq_ok.mp h
    have hmade := fsTouchAs_edits P htouch
    dsimp only at h
    split at h
    · cases h
      exact hmade
    · obtain ⟨node', hres', h⟩ := Foundation.bind_eq_ok.mp h
      rw [if_pos hneg, htouch, Foundation.ok_bind] at hP
      exact hmade.trans (writeNode_edits h fun n hn => hP n (hres'.trans (congrArg _ hn)))
  · rename_i hpos
    rw [if_neg hpos] at hP
    exact writeNode_edits h fun n hn => hP n (by rw [hn]; rfl)

/-- A removal frees the slot its path leads to. -/
theorem fsRemove_edits {P : NodeId → Prop} {t t' : Nodes} {cwd : Int} {path : CStr} {r : Int}
    (h : fsRemove t cwd path = .ok (r, t'))
    (hP : ∀ n : NodeId, fsResolve t cwd path = .ok (n.val : Int) → P n) : Edits P t t' := by
  obtain ⟨node, hres, h⟩ := Foundation.bind_eq_ok.mp h
  split at h
  · cases h
    exact .refl t
  · rename_i hpos
    obtain ⟨n, hn, h⟩ := Foundation.bind_eq_ok.mp h
    have hnode := nodeIndex_eq_ok.mp hn
    subst hnode
    split at h
    · cases h
      exact .refl t
    · cases h
      refine .one (.freed (hP n hres) ?_)
      intro heq
      subst heq
      exact hpos (le_refl _)

theorem fsSetOwner_edits (P : NodeId → Prop) (t : Nodes) (node : Int) (owner : UInt16) :
    Edits P t (fsSetOwner t node owner).2 := by
  unfold fsSetOwner
  cases usedNode t node with
  | none => exact .refl t
  | some n => exact .one (.owned n owner)

theorem fsSetMode_edits (P : NodeId → Prop) (t : Nodes) (node : Int) (mode : UInt16) :
    Edits P t (fsSetMode t node mode).2 := by
  unfold fsSetMode
  cases usedNode t node with
  | none => exact .refl t
  | some n => exact .one (.moded n mode)

/-- Saving texts to a file one after another. -/
theorem saveAll_edits {P : NodeId → Prop} (t : Nodes) {n : NodeId} (texts : List (List UInt8))
    (hP : texts ≠ [] → P n) : Edits P t (Function.update t n (texts.foldl fillNode (t n))) := by
  induction texts generalizing t with
  | nil =>
    rw [List.foldl_nil, Function.update_eq_self]
    exact .refl t
  | cons text texts ih =>
    have hrest := ih (Function.update t n (fillNode (t n) text)) fun _ => hP (by simp)
    rw [Function.update_self, Function.update_idem] at hrest
    exact (Edits.one (.filled text (hP (by simp)))).trans hrest

/-! ### Reading -/

/-- What a read that succeeded has found. -/
theorem fsReadFile_eq_some {t : Nodes} {cwd : Int} {path : CStr} {data : Fin 4096 → UInt8} {size : UInt64}
    (h : fsReadFile t cwd path = .ok (some (data, size))) : ∃ n : NodeId,
      fsResolve t cwd path = .ok (n.val : Int) ∧ (t n).isDir = false ∧ data = (t n).data ∧ size = (t n).size := by
  obtain ⟨node, hres, h⟩ := Foundation.bind_eq_ok.mp h
  split at h
  · cases h
  · obtain ⟨n, hn, hfound⟩ := Foundation.bind_eq_ok.mp h
    have hnode := nodeIndex_eq_ok.mp hn
    subst hnode
    split at hfound
    · cases hfound
    · rename_i hfile
      cases hfound
      exact ⟨n, hres, by simpa using hfile, rfl, rfl⟩

/-- A read of what a resolution has found. -/
theorem fsReadFile_found {t : Nodes} {cwd : Int} {path : CStr} {o : Option NodeId}
    (h : fsResolve t cwd path = .ok (toC o)) : fsReadFile t cwd path =
      .ok (o.bind fun n => if (t n).isDir then none else some ((t n).data, (t n).size)) := by
  unfold fsReadFile
  rw [h, Foundation.ok_bind]
  cases o with
  | none => rfl
  | some n =>
    rw [toC_some, if_neg (by omega), nodeIndex_ofNat, Foundation.ok_bind, Option.bind_some]
    cases (t n).isDir with
    | true => rfl
    | false => rfl

end FurOS
