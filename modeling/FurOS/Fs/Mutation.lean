import FurOS.Fs.Resolution

/-! What the filesystem operations do to a well-formed table.

Each operation either leaves the table as it was or changes one slot in one of a
few ways: a free slot becomes a new node (`Created`), a node's data is replaced
(`Filled`), a slot is freed, an owner or a mode is set. `Creation`, `Writing` and
`Removal` list the outcomes of one call; each keeps the table well-formed. -/
namespace FurOS

/-- The bytes a node holds. -/
def contents (n : FsNode) : List UInt8 := (List.ofFn n.data).take n.size.toNat

/-! ### A new node -/

/-- The free slot `n` became an empty node called `leaf` under `p`; nothing else changed. -/
structure Created (t t' : Nodes) (n p : NodeId) (leaf : Name) (isDir : Bool) (owner mode : UInt16) :
    Prop where
  slot : n ≠ 0
  free : (t n).used = false
  other : ∀ i, i ≠ n → t' i = t i
  used : (t' n).used = true
  dir : (t' n).isDir = isDir
  parent : (t' n).parent.toInt = p.val
  owner : (t' n).owner = owner
  mode : (t' n).mode = mode &&& 0o777
  name : cstr (t' n).name = leaf.chars
  last : (t n).name 31 = 0 → (t' n).name 31 = 0
  size : (t' n).size = 0
  data : (t' n).data 0 = 0

theorem mask_mode (m : UInt16) : m &&& 0o777 ≤ 0o777 := by
  rw [UInt16.le_iff_toNat_le, UInt16.toNat_and]
  exact Nat.and_le_right

theorem parent_toInt (p : NodeId) : (Int32.ofInt (p.val : Int)).toInt = p.val := by
  have hp := p.isLt
  exact Int32.toInt_ofInt_of_le (by omega) (by omega)

/-- The slot `alloc_node` returns is an empty file. -/
theorem allocNode_empty {t t' : Nodes} {n : NodeId} (h : allocNode t = some (n, t')) :
    (t' n).used = true ∧ (t' n).size = 0 ∧ (t' n).data 0 = 0 := by
  unfold allocNode at h
  split at h
  · cases h
  · cases h
    rw [Function.update_self]
    refine ⟨rfl, rfl, ?_⟩
    show Function.update (t n).data 0 0 0 = 0
    rw [Function.update_self]

/-- `alloc_node` clears the first character of a name only. -/
theorem allocNode_last {t t' : Nodes} {n : NodeId} (h : allocNode t = some (n, t')) :
    (t' n).name 31 = (t n).name 31 := by
  unfold allocNode at h
  split at h
  · cases h
  · cases h
    rw [Function.update_self]
    show Function.update (t n).name 0 0 31 = (t n).name 31
    rw [Function.update_of_ne (by decide)]

/-- A copied name of at most 31 characters leaves the array terminated. -/
theorem kstrcpy_last {name : Fin 32 → UInt8} (leaf : Name) (h : name 31 = 0) :
    kstrcpy name leaf.chars 31 = 0 := by
  have hl := leaf.length_le
  have hlast : ((31 : Fin 32).val) = 31 := rfl
  unfold kstrcpy Foundation.Buffer.setText
  rw [dif_neg (by omega)]
  split
  · rfl
  · exact h

namespace Created
variable {t t' : Nodes} {n p : NodeId} {leaf : Name} {isDir : Bool} {owner mode : UInt16}

theorem used_iff (h : Created t t' n p leaf isDir owner mode) (i : NodeId) :
    (t' i).used = true ↔ (t i).used = true ∨ i = n := by
  by_cases hi : i = n
  · subst hi
    simp [h.used]
  · simp [h.other i hi, hi]

theorem old (h : Created t t' n p leaf isDir owner mode) {i : NodeId} (hi : (t i).used = true) :
    t' i = t i := by
  apply h.other
  intro heq
  subst heq
  rw [h.free] at hi
  cases hi

theorem contained (h : Created t t' n p leaf isDir owner mode) : Contained (t' n) := by
  have hs : (t' n).size.toNat = 0 := by rw [h.size]; rfl
  refine ⟨by omega, ?_, by rw [h.mode]; exact mask_mode mode⟩
  simp only [hs]
  exact h.data

theorem normal (h : Created t t' n p leaf isDir owner mode) (hn : ∀ i, Normal (t i)) (i : NodeId) :
    Normal (t' i) := by
  by_cases hi : i = n
  · subst hi
    exact ⟨h.contained, h.last (hn i).name⟩
  · rw [h.other i hi]
    exact hn i

/-- A new node keeps the table well-formed when its directory had none of its name. -/
theorem wellFormed (h : Created t t' n p leaf isDir owner mode) (wf : WellFormed t)
    (hp : (t p).used = true) (hd : (t p).isDir = true)
    (hnone : findChild t (p.val : Int) leaf.chars = none) : WellFormed t' := by
  have hcases : ∀ i, (t' i).used = true → ((t i).used = true ∧ t' i = t i) ∨ i = n := fun i hi =>
    ((h.used_iff i).mp hi).imp (fun hu => ⟨hu, h.old hu⟩) id
  have hfresh : ∀ i, (t i).used = true → (t' i).parent = (t' n).parent →
      cstr (t' i).name = cstr (t' n).name → False := by
    intro i hi hpar hname
    rw [h.old hi] at hpar hname
    refine findChild_eq_none.mp hnone i hi ?_ ?_
    · rw [hpar, h.parent]
    · rw [hname, h.name]
  have htree : IsTree t' := by
    refine Foundation.Tree.insert wf.tree n p (by simp [h.free]) hp hd h.used_iff ?_ ?_
      (parentOf_eq_some.mpr h.parent)
    · exact fun i hi => by rw [h.old hi]
    · exact fun i hi _ => parentOf_congr (by rw [h.old hi])
  have h0 : t' 0 = t 0 := h.old wf.root_used
  refine ⟨⟨htree, by rw [h0, wf.root_parent], ?_, ?_, ?_⟩, by rw [h0, wf.root_name], ?_, ?_⟩
  · intro i hi hi0
    rcases hcases i hi with ⟨hu, he⟩ | rfl
    · rw [he]
      exact wf.name_ne i hu hi0
    · rw [h.name]
      exact leaf.ne_nil
  · intro i hi hi0
    rcases hcases i hi with ⟨hu, he⟩ | rfl
    · rw [he]
      exact wf.name_slash i hu hi0
    · rw [h.name]
      exact leaf.no_slash
  · intro i j hi hj hi0 hj0 hpar hname
    rcases hcases i hi with ⟨hui, hei⟩ | rfl
    · rcases hcases j hj with ⟨huj, hej⟩ | rfl
      · rw [hei, hej] at hpar hname
        exact wf.siblings i j hui huj hi0 hj0 hpar hname
      · exact (hfresh i hui hpar hname).elim
    · rcases hcases j hj with ⟨huj, _⟩ | rfl
      · exact (hfresh j huj hpar.symm hname.symm).elim
      · rfl
  · intro i hi hi0
    rcases hcases i hi with ⟨hu, he⟩ | rfl
    · rw [he]
      exact wf.name_length i hu hi0
    · rw [h.name]
      exact leaf.length_le
  · intro i hi
    rcases hcases i hi with ⟨hu, he⟩ | rfl
    · rw [he]
      exact wf.contained i hu
    · exact h.contained

/-- What a name led to before, it leads to afterwards. -/
theorem stepName_mono (h : Created t t' n p leaf isDir owner mode) (wf : WellFormed t)
    (wf' : WellFormed t') {c d : NodeId} {name : List UInt8} (hs : slash ∉ name)
    (hc : (t c).used = true) (hstep : stepName t c name = some d) : stepName t' c name = some d := by
  unfold stepName at hstep ⊢
  split
  · rename_i hdot
    rwa [if_pos hdot] at hstep
  · rename_i hdot
    rw [if_neg hdot] at hstep
    split
    · rename_i hdots
      rw [if_pos hdots] at hstep
      rwa [parentOf_congr (by rw [h.old hc])]
    · rename_i hdots
      rw [if_neg hdots] at hstep
      obtain ⟨hu, hpar, hname⟩ := findChild_eq_some hstep
      have h0 := wf.name_no_slash d hu hs hname
      have := wf'.findChild_self d ((h.used_iff d).mpr (.inl hu)) h0
      rwa [h.old hu, hpar, hname] at this

/-- A walk that succeeded ends where it did. -/
theorem walk_mono (h : Created t t' n p leaf isDir owner mode) (wf : WellFormed t) (wf' : WellFormed t')
    {c d : NodeId} {names : List (List UInt8)} (hs : ∀ s ∈ names, slash ∉ s) (hc : (t c).used = true)
    (hwalk : Foundation.walk (stepName t) c names = some d) :
    Foundation.walk (stepName t') c names = some d :=
  Foundation.walk_mono (P := fun c => (t c).used = true)
    (fun _ s _ hmem hc he => ⟨stepName_used wf.navigable hc he, h.stepName_mono wf wf' (hs s hmem) hc he⟩)
    hc hwalk

/-- Where a path led before, it leads afterwards. -/
theorem resolve_mono (h : Created t t' n p leaf isDir owner mode) (wf : WellFormed t) (wf' : WellFormed t')
    {c d : NodeId} (hc : (t c).used = true) {path : List UInt8} (hres : resolve t c path = some d) :
    resolve t' c path = some d :=
  h.walk_mono wf wf' (fun _ hs => (Foundation.no_sep_of_mem_components slash hs).1)
    (startOf_used wf.navigable hc path) hres

/-- What a path's parent was before, it is afterwards. -/
theorem parent_mono (h : Created t t' n p leaf isDir owner mode) (wf : WellFormed t)
    (wf' : WellFormed t') {c q : NodeId} (hc : (t c).used = true) {path : List UInt8} {last : Name}
    (hpar : Parent t c path q last) : Parent t' c path q last := by
  obtain ⟨names, hnames, hwalk⟩ := hpar.front
  have hmem : ∀ s ∈ names, slash ∉ s := fun s hs =>
    (Foundation.no_sep_of_mem_components slash
      (by rw [hnames]; exact List.mem_append_left _ hs : s ∈ Foundation.components slash path)).1
  refine ⟨(h.used_iff q).mpr (.inl hpar.used), ?_, names, hnames,
    h.walk_mono wf wf' hmem (startOf_used wf.navigable hc path) hwalk⟩
  rw [h.old hpar.used, hpar.dir]

/-- The new node is the one its path leads to. -/
theorem resolve_eq (h : Created t t' n p leaf isDir owner mode) (wf : WellFormed t)
    (wf' : WellFormed t') {c : NodeId} (hc : (t c).used = true) {path : List UInt8}
    (hpar : Parent t c path p leaf) (hdot : leaf.chars ≠ lit ".") (hdots : leaf.chars ≠ lit "..") :
    resolve t' c path = some n := by
  rw [(h.parent_mono wf wf' hc hpar).resolve_eq]
  unfold stepName
  rw [if_neg hdot, if_neg hdots, ← h.parent, ← h.name]
  exact wf'.findChild_self n h.used h.slot

end Created

/-! ### Changes of one slot that keep the tree -/

/-- A field that the new slot has as the old one is as it was everywhere. -/
theorem update_field {β : Type} (f : FsNode → β) {t : Nodes} {n : NodeId} {m : FsNode}
    (h : f m = f (t n)) (i : NodeId) : f (Function.update t n m i) = f (t i) := by
  by_cases hi : i = n
  · subst hi
    rw [Function.update_self, h]
  · rw [Function.update_of_ne hi]

/-- Replacing a slot by one with the same name, parent and kind, still in use. -/
theorem WellFormed.update {t : Nodes} (wf : WellFormed t) (n : NodeId) (hn : (t n).used = true)
    (m : FsNode) (hu : m.used = true) (hd : m.isDir = (t n).isDir) (hp : m.parent = (t n).parent)
    (hname : m.name = (t n).name) (hc : Contained m) : WellFormed (Function.update t n m) := by
  have hused := update_field (t := t) FsNode.used (hu.trans hn.symm)
  have hdir := update_field (t := t) FsNode.isDir hd
  have hpar := update_field (t := t) FsNode.parent hp
  have hnam := update_field (t := t) FsNode.name hname
  refine ⟨⟨?_, ?_, ?_, ?_, ?_⟩, ?_, ?_, ?_⟩
  · exact wf.tree.congr (fun i => by rw [hused]) (fun i _ => by rw [hdir])
      (fun i _ _ => parentOf_congr (hpar i))
  · rw [hpar, wf.root_parent]
  · intro i hi
    rw [hused] at hi
    rw [hnam]
    exact wf.name_ne i hi
  · intro i hi
    rw [hused] at hi
    rw [hnam]
    exact wf.name_slash i hi
  · intro i j hi hj
    rw [hused] at hi hj
    rw [hpar, hpar, hnam, hnam]
    exact wf.siblings i j hi hj
  · rw [hnam, wf.root_name]
  · intro i hi
    rw [hused] at hi
    rw [hnam]
    exact wf.name_length i hi
  · intro i hi
    rw [hused] at hi
    by_cases he : i = n
    · subst he
      rwa [Function.update_self]
    · rw [Function.update_of_ne he]
      exact wf.contained i hi

theorem normal_update {t : Nodes} (hn : ∀ i, Normal (t i)) {n : NodeId} {m : FsNode} (hm : Normal m)
    (i : NodeId) : Normal (Function.update t n m i) := by
  by_cases hi : i = n
  · subst hi
    rwa [Function.update_self]
  · rw [Function.update_of_ne hi]
    exact hn i

/-- A used node without used children can be freed. -/
theorem WellFormed.free {t : Nodes} (wf : WellFormed t) (n : NodeId) (hn : n ≠ 0)
    (hc : ∀ i, (t i).used = true → (t i).parent.toInt ≠ n.val) :
    WellFormed (Function.update t n {t n with used := false}) := by
  have hother : ∀ i, (Function.update t n {t n with used := false} i).used = true →
      (t i).used = true ∧ i ≠ n ∧ Function.update t n {t n with used := false} i = t i := by
    intro i hi
    have hin : i ≠ n := by
      intro heq
      subst heq
      rw [Function.update_self] at hi
      cases hi
    rw [Function.update_of_ne hin] at hi ⊢
    exact ⟨hi, hin, rfl⟩
  have hlive : ∀ i, (Function.update t n {t n with used := false} i).used = true ↔
      (t i).used = true ∧ i ≠ n := by
    intro i
    refine ⟨fun hi => ⟨(hother i hi).1, (hother i hi).2.1⟩, fun hi => ?_⟩
    rw [Function.update_of_ne hi.2]
    exact hi.1
  have hdir := update_field (t := t) (m := {t n with used := false}) FsNode.isDir rfl
  have hpar := update_field (t := t) (m := {t n with used := false}) FsNode.parent rfl
  have h0 : Function.update t n {t n with used := false} 0 = t 0 := Function.update_of_ne hn.symm ..
  refine ⟨⟨?_, by rw [h0, wf.root_parent], ?_, ?_, ?_⟩, by rw [h0, wf.root_name], ?_, ?_⟩
  · have := wf.tree.erase n hn
      (fun i hi _ hp => hc i hi (parentOf_eq_some.mp hp)) hlive
    exact this.congr (fun _ => Iff.rfl) (fun i _ => by rw [hdir]) (fun i _ _ => parentOf_congr (hpar i))
  · intro i hi
    obtain ⟨hu, _, he⟩ := hother i hi
    rw [he]
    exact wf.name_ne i hu
  · intro i hi
    obtain ⟨hu, _, he⟩ := hother i hi
    rw [he]
    exact wf.name_slash i hu
  · intro i j hi hj
    obtain ⟨hui, _, hei⟩ := hother i hi
    obtain ⟨huj, _, hej⟩ := hother j hj
    rw [hei, hej]
    exact wf.siblings i j hui huj
  · intro i hi
    obtain ⟨hu, _, he⟩ := hother i hi
    rw [he]
    exact wf.name_length i hu
  · intro i hi
    obtain ⟨hu, _, he⟩ := hother i hi
    rw [he]
    exact wf.contained i hu

end FurOS
