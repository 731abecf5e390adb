import FurOS.Fs.Contract
import FurOS.Shell.Confidentiality
import FurOS.Shell.Parents
import FurOS.Shell.Privilege

/-! Who may change a file, and who may change a directory.

The filesystem checks no right; each command has to. `mkdir` and `touch` ask before
they make a node. `write`, `nano` and `rm` do not: what they change is protected only
where the user happens to have the right, or where nothing changes. `Permitted` says
when that is, of the line, the keys and the table before it. -/
namespace FurOS

/-- From `t` to `t'` the user `u` has changed what they had the right to change: the bytes of files
they may write, the entries of directories they may write and enter. -/
structure Protected (u : UInt16) (t t' : Nodes) : Prop where
  written : ∀ i, (t i).used = true → (t i).isDir = false →
    (t' i).data ≠ (t i).data ∨ (t' i).size ≠ (t i).size → fsCheckAccess t i.val u fsAccessWrite = true
  created : ∀ i, (t i).used = false → (t' i).used = true →
    fsCheckAccess t (t' i).parent.toInt u (fsAccessWrite ||| fsAccessExec) = true
  removed : ∀ i, (t i).used = true → (t' i).used = false →
    fsCheckAccess t (t i).parent.toInt u (fsAccessWrite ||| fsAccessExec) = true

namespace Protected
variable {u : UInt16} {t t' : Nodes}

/-- Nothing is asked where no byte changes and no node comes or goes. -/
theorem of_same (hdata : ∀ i, (t' i).data = (t i).data) (hsize : ∀ i, (t' i).size = (t i).size)
    (hused : ∀ i, (t' i).used = (t i).used) : Protected u t t' := by
  refine ⟨fun i _ _ h => ?_, fun i hfree h => ?_, fun i h hfree => ?_⟩
  · simp [hdata, hsize] at h
  · simp [hused, hfree] at h
  · simp [hused, h] at hfree

theorem refl (u : UInt16) (t : Nodes) : Protected u t t :=
  .of_same (fun _ => rfl) (fun _ => rfl) (fun _ => rfl)

end Protected

/-! ### Changing one file -/

/-- Saving the text that a file holds leaves it as it was. -/
theorem fillNode_eq_self_iff {n : FsNode} (h : Contained n) (text : List UInt8) :
    fillNode n text = n ↔ contents n = text.take (clampSize text.length) := by
  have hlt := clampSize_lt text.length
  have hle := clampSize_le text.length
  constructor
  · intro heq
    rw [← contents_fillNode n text, heq]
  · intro heq
    have hlen := congrArg List.length heq
    have hsize := h.size
    simp only [contents, List.length_take, List.length_ofFn] at hlen
    have hclamp : n.size.toNat = clampSize text.length := by omega
    have hdata : (fillNode n text).data = n.data := by
      funext i
      unfold fillNode
      dsimp only
      by_cases hi : i = ⟨clampSize text.length, hlt⟩
      · subst hi
        rw [Function.update_self]
        have hz := h.data
        simp only [hclamp] at hz
        exact hz.symm
      · rw [Function.update_of_ne hi]
        by_cases hin : i.val < clampSize text.length ∧ i.val < text.length
        · rw [dif_pos hin]
          have hget := congrArg (·[i.val]?) heq
          simp only [contents, List.getElem?_take, hclamp, if_pos hin.1, List.getElem?_ofFn] at hget
          rw [dif_pos i.isLt, List.getElem?_eq_getElem hin.2] at hget
          exact (Option.some.inj hget).symm
        · rw [dif_neg hin]
    have hsize' : (fillNode n text).size = n.size := by
      apply UInt64.toNat_inj.mp
      rw [fillNode_size, hclamp]
    calc fillNode n text = {n with data := (fillNode n text).data, size := (fillNode n text).size} := rfl
      _ = n := by rw [hdata, hsize']

/-- Saving changes nothing but data and size. -/
theorem saveAll_rest (n : FsNode) (texts : List (List UInt8)) :
    saveAll n texts = {n with data := (saveAll n texts).data, size := (saveAll n texts).size} := by
  induction texts generalizing n with
  | nil => rfl
  | cons text texts ih => exact ih (fillNode n text)

/-- Saving to a file that was there. -/
theorem protected_saveAll_iff {u : UInt16} {t : Nodes} {e : NodeId} (hu : (t e).used = true)
    (hfile : (t e).isDir = false) (texts : List (List UInt8)) :
    Protected u t (Function.update t e (saveAll (t e) texts)) ↔
      (saveAll (t e) texts ≠ t e → fsCheckAccess t e.val u fsAccessWrite = true) := by
  have hused : ∀ i, (Function.update t e (saveAll (t e) texts) i).used = (t i).used :=
    (refilled_saveAll t e texts).used
  constructor
  · intro h hne
    refine h.written e hu hfile ?_
    rw [Function.update_self]
    by_contra hsame
    simp only [not_or, not_not] at hsame
    apply hne
    calc saveAll (t e) texts
        = {t e with data := (saveAll (t e) texts).data, size := (saveAll (t e) texts).size} := saveAll_rest ..
      _ = t e := by rw [hsame.1, hsame.2]
  · intro h
    refine ⟨fun i _ _ hchanged => ?_, fun i hfree hi => ?_, fun i hi hfree => ?_⟩
    · by_cases hie : i = e
      · subst hie
        apply h
        intro heq
        rw [Function.update_self, heq] at hchanged
        simp at hchanged
      · rw [Function.update_of_ne hie] at hchanged
        simp at hchanged
    · simp [hused, hfree] at hi
    · simp [hused, hi] at hfree

/-! ### Changing one directory -/

/-- Making a node, and saving to it. -/
theorem Created.protected_iff {u : UInt16} {t t' t'' : Nodes} {n p : NodeId} {leaf : Name} {dir : Bool}
    {owner mode : UInt16} (h : Created t t' n p leaf dir owner mode) (hsame : SameBut n t' t'') :
    Protected u t t'' ↔ fsCheckAccess t p.val u (fsAccessWrite ||| fsAccessExec) = true := by
  have hold : ∀ i, i ≠ n → t'' i = t i := fun i hi => (hsame.other i hi).trans (h.other i hi)
  have hparent : (t'' n).parent.toInt = p.val := by
    rw [hsame.field FsNode.parent (fun _ => rfl) n, h.parent]
  constructor
  · intro hprot
    have hmade := hprot.created n h.free ((hsame.used n).trans h.used)
    rwa [hparent] at hmade
  · intro haccess
    refine ⟨fun i hi _ hchanged => ?_, fun i hfree hi => ?_, fun i hi hfree => ?_⟩
    · have hin : i ≠ n := by
        intro heq
        rw [heq, h.free] at hi
        cases hi
      simp [hold i hin] at hchanged
    · by_cases hin : i = n
      · rw [hin, hparent]
        exact haccess
      · rw [hold i hin, hfree] at hi
        cases hi
    · have hin : i ≠ n := by
        intro heq
        rw [heq, h.free] at hi
        cases hi
      rw [hold i hin, hi] at hfree
      cases hfree

/-- Freeing a slot. -/
theorem protected_free_iff {u : UInt16} {t : Nodes} {n : NodeId} (hu : (t n).used = true) :
    Protected u t (Function.update t n {t n with used := false}) ↔
      fsCheckAccess t (t n).parent.toInt u (fsAccessWrite ||| fsAccessExec) = true := by
  constructor
  · intro h
    exact h.removed n hu (by rw [Function.update_self])
  · intro haccess
    refine ⟨fun i _ _ hchanged => ?_, fun i hfree hi => ?_, fun i hi hfree => ?_⟩
    · have hdata := update_field (t := t) (m := {t n with used := false}) FsNode.data rfl i
      have hsize := update_field (t := t) (m := {t n with used := false}) FsNode.size rfl i
      simp [hdata, hsize] at hchanged
    · by_cases hin : i = n
      · rw [hin, Function.update_self] at hi
        cases hi
      · rw [Function.update_of_ne hin, hfree] at hi
        cases hi
    · by_cases hin : i = n
      · rw [hin]
        exact haccess
      · rw [Function.update_of_ne hin, hi] at hfree
        cases hfree

/-! ### What each operation owes -/

/-- Where a node would be made at a path, the user may make it. -/
def MayAdd (t : Nodes) (cwd : Int) (path : CStr) (u : UInt16) : Prop :=
  ∀ p leaf, resolveParentAndLeaf t cwd path = .ok (some (p, leaf)) → findChild t p leaf.chars = none →
    allocNode t ≠ none → fsCheckAccess t p u (fsAccessWrite ||| fsAccessExec) = true

theorem MayCreate.mayAdd {t : Nodes} {cwd : Int} {path : CStr} {u : UInt16} (h : MayCreate t cwd path u) :
    MayAdd t cwd path u := fun p leaf hres _ _ => h p leaf hres

theorem Creation.protected_iff {t t' : Nodes} {c : NodeId} {path : CStr} {dir : Bool} {owner mode u : UInt16}
    {r : Int} (h : Creation t c path dir owner mode r t') :
    Protected u t t' ↔ MayAdd t (c.val : Int) path u := by
  cases h with
  | failed hwhy =>
    refine iff_of_true (.refl u t) fun p leaf hres hnone halloc => ?_
    rcases hwhy p leaf hres with ⟨e, he, _⟩ | ⟨_, hfull⟩
    · rw [hnone] at he
      cases he
    · exact absurd hfull halloc
  | found _ hres hf _ =>
    refine iff_of_true (.refl u t) fun p leaf hres' hnone _ => ?_
    rw [hres] at hres'
    cases hres'
    rw [hf] at hnone
    cases hnone
  | @created n p leaf t' _ hres hf halloc hcr =>
    refine (hcr.protected_iff (.refl n t')).trans ⟨fun haccess p' leaf' hres' _ _ => ?_,
      fun h => h p.val leaf hres hf halloc⟩
    rw [hres] at hres'
    cases hres'
    exact haccess

/-- The file a path leads to has the text already, or the user may write it; where a path leads
nowhere, the user may make a node. -/
structure MayWrite (t : Nodes) (cwd : Int) (path : CStr) (text : List UInt8) (u : UInt16) : Prop where
  fill : ∀ e : NodeId, fsResolve t cwd path = .ok (e.val : Int) → (t e).isDir = false →
    contents (t e) ≠ text.take (clampSize text.length) → fsCheckAccess t e.val u fsAccessWrite = true
  add : fsResolve t cwd path = .ok (-1) → MayAdd t cwd path u

/-- The node a path leads to cannot be freed, or the user may change its directory. -/
def MayRemove (t : Nodes) (cwd : Int) (path : CStr) (u : UInt16) : Prop :=
  ∀ n : NodeId, fsResolve t cwd path = .ok (n.val : Int) → n ≠ 0 →
    (∀ i, (t i).used = true → (t i).parent.toInt ≠ n.val) →
    fsCheckAccess t (t n).parent.toInt u (fsAccessWrite ||| fsAccessExec) = true

/-- Where the editor ends after it has made a file, the user may make it; and where it ends after it
has opened one, what it saves leaves the file as it was or the user may write it. -/
structure MayEdit (t : Nodes) (cwd : Int) (path : CStr) (keys : List UInt8) (u : UInt16) : Prop where
  add : ∀ p leaf, resolveParentAndLeaf t cwd path = .ok (some (p, leaf)) →
    (leaf.chars = lit "." ∨ leaf.chars = lit "..") ∨ keyExit ∈ keys → findChild t p leaf.chars = none →
    allocNode t ≠ none → fsCheckAccess t p u (fsAccessWrite ||| fsAccessExec) = true
  fill : ∀ p leaf (e : NodeId), resolveParentAndLeaf t cwd path = .ok (some (p, leaf)) →
    fsResolve t cwd path = .ok (e.val : Int) → (t e).isDir = false → keyExit ∈ keys →
    saveAll (t e) (saves (.ofData (t e).data (t e).size) false keys) ≠ t e →
    fsCheckAccess t e.val u fsAccessWrite = true

section Owed
variable {t t' : Nodes} (wf : WellFormed t) {c : NodeId} (hc : (t c).used = true) {path : CStr} {u : UInt16}
include wf hc

theorem Writing.protected_iff {text : List UInt8} {r : Int} (h : Writing t c path text r t') :
    Protected u t t' ↔ MayWrite t (c.val : Int) path text u := by
  have hsome : ∀ e : NodeId, fsResolve t (c.val : Int) path = .ok (e.val : Int) ↔
      resolve t c path.chars = some e :=
    fun e => fsResolve_eq_some wf.navigable hc
  have hnowhere : fsResolve t (c.val : Int) path = .ok (-1) ↔ resolve t c path.chars = none :=
    fsResolve_eq_neg wf.navigable hc
  cases h with
  | directory hr hdir =>
    refine iff_of_true (.refl u t) ⟨fun e he hfile => ?_, fun hnone => ?_⟩
    · rw [hsome, hr] at he
      cases he
      rw [hdir] at hfile
      cases hfile
    · rw [hnowhere, hr] at hnone
      cases hnone
  | failed hr hwhy =>
    refine iff_of_true (.refl u t) ⟨fun e he => ?_, fun _ p leaf hres hnone halloc => ?_⟩
    · rw [hsome, hr] at he
      cases he
    · exact absurd (hwhy p leaf hres hnone) halloc
  | @filled n hr hu hfile =>
    have hsame : fillNode (t n) text ≠ t n ↔ contents (t n) ≠ text.take (clampSize text.length) :=
      not_congr (fillNode_eq_self_iff (wf.contained n hu) text)
    refine (protected_saveAll_iff hu hfile [text]).trans ⟨fun h => ⟨fun e he _ hne => ?_,
      fun hnone => ?_⟩, fun h hne => ?_⟩
    · rw [hsome, hr] at he
      cases he
      exact h (hsame.mpr hne)
    · rw [hnowhere, hr] at hnone
      cases hnone
    · exact h.fill n ((hsome n).mpr hr) hfile (hsame.mp hne)
  | @created n p leaf t₁ hr hpar hres hf halloc hcr =>
    have hmade := Creation.protected_iff (u := u) (.created hpar hres hf halloc hcr)
    rw [hcr.protected_iff (.refl n t₁)] at hmade
    refine ((hcr.protected_iff (refilled_fillNode t₁ n text).toSameBut).trans hmade).trans
      ⟨fun h => ⟨fun e he => ?_, fun _ => h⟩, fun h => h.add (hnowhere.mpr hr)⟩
    rw [hsome, hr] at he
    cases he

theorem Removal.protected_iff {r : Int} (h : Removal t c path r t') :
    Protected u t t' ↔ MayRemove t (c.val : Int) path u := by
  cases h with
  | failed hwhy =>
    refine iff_of_true (.refl u t) fun n hn h0 hleaf => ?_
    obtain ⟨i, hi, hparent⟩ := hwhy n ((fsResolve_eq_some wf.navigable hc).mp hn) h0
    exact absurd hparent (hleaf i hi)
  | @removed n hr h0 hu hleaf =>
    refine (protected_free_iff hu).trans ⟨fun haccess m hm _ _ => ?_, fun h => ?_⟩
    · rw [fsResolve_eq_some wf.navigable hc, hr] at hm
      cases hm
      exact haccess
    · exact h n ((fsResolve_eq_some wf.navigable hc).mpr hr) h0 hleaf

/-- Where a path leads to a file, its last component is the name of the file. -/
theorem findChild_of_file (hd : (t c).isDir = true) {p : Int} {leaf : Name} {e : NodeId}
    (hres : resolveParentAndLeaf t (c.val : Int) path = .ok (some (p, leaf)))
    (he : fsResolve t (c.val : Int) path = .ok (e.val : Int)) (hfile : (t e).isDir = false) :
    ¬ (leaf.chars = lit "." ∨ leaf.chars = lit "..") ∧ findChild t p leaf.chars = some e := by
  obtain ⟨o, ho, hpar⟩ := resolveParentAndLeaf_ok wf hc hd path
  rw [hres] at ho
  obtain ⟨⟨q, name⟩, rfl, hq⟩ := Option.map_eq_some_iff.mp (Except.ok.inj ho).symm
  obtain ⟨rfl, rfl⟩ := Prod.mk.inj hq.symm
  have hp := hpar q leaf rfl
  have hresolve := (fsResolve_eq_some wf.navigable hc).mp he
  have hdots : ¬ (leaf.chars = lit "." ∨ leaf.chars = lit "..") := by
    intro hdots
    have hfileto : LeadsTo t c path false := leadsTo_of_resolve wf hc hresolve hfile
    exact Bool.noConfusion (hfileto.unique (hp.leadsTo_dots wf hc hdots))
  refine ⟨hdots, ?_⟩
  rw [hp.resolve_eq] at hresolve
  unfold stepName at hresolve
  rwa [if_neg fun h => hdots (.inl h), if_neg fun h => hdots (.inr h)] at hresolve

/-- The editor does not open a directory. -/
theorem fsReadFile_directory (hto : LeadsTo t c path true) : fsReadFile t (c.val : Int) path = .ok none := by
  obtain ⟨n, hn, _, hdir⟩ := hto
  rw [fsReadFile_eq wf hc, (fsResolve_eq_some wf.navigable hc).mp hn, Option.bind_some, if_pos hdir]

omit wf hc in
/-- What holds of the table that a session in the editor leaves when it ends. -/
theorem forall_ended_iff {x : Except Fault (Nodes × Text × Option (List UInt8))} {text : Text}
    {rest : Option (List UInt8)} (hx : x = .ok (t', text, rest)) (P : Nodes → Prop) :
    (∀ t'' text' keys, x = .ok (t'', text', some keys) → P t'') ↔ (rest ≠ none → P t') := by
  subst hx
  constructor
  · intro h hrest
    obtain ⟨keys, rfl⟩ := Option.ne_none_iff_exists'.mp hrest
    exact h t' text keys rfl
  · intro h t'' text' keys heq
    cases heq
    exact h (by simp)

/-- What `nano` owes at this path. -/
def NanoOwes (t : Nodes) (c : NodeId) (path : CStr) (args : List CStr) (keys : List UInt8) (u : UInt16) : Prop :=
  (∀ t' text rest, cmdNano t (c.val : Int) (path :: args) keys = .ok (t', text, some rest) → Protected u t t') ↔
    MayEdit t (c.val : Int) path keys u

/-- `fs_touch` refuses the path: nothing is made, and no file is there. -/
theorem nanoOwes_failed (hd : (t c).isDir = true) (args : List CStr) (keys : List UInt8)
    (htouch : fsTouch t (c.val : Int) path = .ok (-1, t))
    (hwhy : ∀ p leaf, resolveParentAndLeaf t (c.val : Int) path = .ok (some (p, leaf)) →
      (∃ e, findChild t p leaf.chars = some e ∧ (t e).isDir ≠ false) ∨
        findChild t p leaf.chars = none ∧ allocNode t = none) : NanoOwes t c path args keys u := by
  have hop := cmdNano_unopened htouch (fun h => absurd h (by decide)) args keys
  refine (forall_ended_iff hop _).trans (iff_of_true (fun _ => .refl u t) ⟨?_, ?_⟩)
  · intro p leaf hres _ hnone halloc
    rcases hwhy p leaf hres with ⟨e, he, _⟩ | ⟨_, hfull⟩
    · rw [hnone] at he
      cases he
    · exact absurd hfull halloc
  · intro p leaf e hres he hfile
    have hchild := (findChild_of_file wf hc hd hres he hfile).2
    rcases hwhy p leaf hres with ⟨e', he', hkind⟩ | ⟨hnone, _⟩
    · rw [hchild] at he'
      cases he'
      exact absurd hfile hkind
    · rw [hchild] at hnone
      cases hnone

/-- `fs_touch` finds a file: it is edited, unless the path leads past it by `.` or `..`. -/
theorem nanoOwes_found (hd : (t c).isDir = true) (args : List CStr) (keys : List UInt8)
    (htouch : fsTouch t (c.val : Int) path = .ok (0, t)) {p e : NodeId} {leaf : Name}
    (hp : Parent t c path.chars p leaf)
    (hres : resolveParentAndLeaf t (c.val : Int) path = .ok (some ((p.val : Int), leaf)))
    (hf : findChild t (p.val : Int) leaf.chars = some e) (hfile : (t e).isDir = false) :
    NanoOwes t c path args keys u := by
  have hsame : ∀ p' leaf', resolveParentAndLeaf t (c.val : Int) path = .ok (some (p', leaf')) →
      p' = (p.val : Int) ∧ leaf' = leaf := by
    intro p' leaf' hres'
    rw [hres] at hres'
    cases hres'
    exact ⟨rfl, rfl⟩
  have hadd : ∀ p' leaf', resolveParentAndLeaf t (c.val : Int) path = .ok (some (p', leaf')) →
      findChild t p' leaf'.chars ≠ none := by
    intro p' leaf' hres'
    obtain ⟨rfl, rfl⟩ := hsame p' leaf' hres'
    simp [hf]
  by_cases hdots : leaf.chars = lit "." ∨ leaf.chars = lit ".."
  · have hread := fsReadFile_directory wf hc (hp.leadsTo_dots wf hc hdots)
    have hop := cmdNano_unopened htouch (fun _ => hread) args keys
    refine (forall_ended_iff hop _).trans (iff_of_true (fun _ => .refl u t) ⟨?_, ?_⟩)
    · intro p' leaf' hres' _ hnone
      exact absurd hnone (hadd p' leaf' hres')
    · intro p' leaf' e' hres' he' hfile'
      obtain ⟨rfl, rfl⟩ := hsame p' leaf' hres'
      exact absurd hdots (findChild_of_file wf hc hd hres' he' hfile').1
  · obtain ⟨e', he', hu, hfile'⟩ := hp.leadsTo_child wf hc hdots hf hfile
    obtain ⟨text, rest, hop, hend⟩ := cmdNano_opened htouch he' hfile' args keys
    refine (forall_ended_iff hop _).trans ?_
    rw [protected_saveAll_iff hu hfile', ne_eq, hend, not_not]
    constructor
    · intro h
      refine ⟨fun p' leaf' hres' _ hnone => absurd hnone (hadd p' leaf' hres'), ?_⟩
      intro p'' leaf'' e'' _ he'' _ hin
      rw [he'] at he''
      cases Fin.ext (by exact_mod_cast Except.ok.inj he'' : e'.val = e''.val)
      exact h hin
    · intro h hin
      exact h.fill p.val leaf e' hres he' hfile' hin

/-- `fs_touch` makes a file: it is edited, unless the path leads past it by `.` or `..`. -/
theorem nanoOwes_created (hd : (t c).isDir = true) (args : List CStr) (keys : List UInt8) {t₁ : Nodes}
    (htouch : fsTouch t (c.val : Int) path = .ok (0, t₁)) {n p : NodeId} {leaf : Name} {owner mode : UInt16}
    (hp : Parent t c path.chars p leaf)
    (hres : resolveParentAndLeaf t (c.val : Int) path = .ok (some ((p.val : Int), leaf)))
    (hf : findChild t (p.val : Int) leaf.chars = none) (halloc : allocNode t ≠ none)
    (hcr : Created t t₁ n p leaf false owner mode) : NanoOwes t c path args keys u := by
  have wf₁ := hcr.wellFormed wf hp.used hp.dir hf
  have hc₁ : (t₁ c).used = true := (hcr.used_iff c).mpr (.inl hc)
  have howed : ((leaf.chars = lit "." ∨ leaf.chars = lit "..") ∨ keyExit ∈ keys →
      fsCheckAccess t p.val u (fsAccessWrite ||| fsAccessExec) = true) ↔ MayEdit t (c.val : Int) path keys u := by
    constructor
    · intro h
      refine ⟨fun p' leaf' hres' hends _ _ => ?_, fun p' leaf' e hres' he hfile => ?_⟩
      · rw [hres] at hres'
        cases hres'
        exact h hends
      · have hchild := (findChild_of_file wf hc hd hres' he hfile).2
        rw [hres] at hres'
        cases hres'
        rw [hf] at hchild
        cases hchild
    · intro h hends
      exact h.add p.val leaf hres hends hf halloc
  unfold NanoOwes
  rw [← howed]
  by_cases hdots : leaf.chars = lit "." ∨ leaf.chars = lit ".."
  · have hread := fsReadFile_directory wf₁ hc₁ ((hcr.parent_mono wf wf₁ hc hp).leadsTo_dots wf₁ hc₁ hdots)
    have hop := cmdNano_unopened htouch (fun _ => hread) args keys
    refine (forall_ended_iff hop _).trans ?_
    rw [hcr.protected_iff (.refl n t₁)]
    simp [hdots]
  · have hleads := hcr.resolve_eq wf wf₁ hc hp (fun h => hdots (.inl h)) fun h => hdots (.inr h)
    obtain ⟨text, rest, hop, hend⟩ := cmdNano_opened htouch ((fsResolve_eq_some wf₁.navigable hc₁).mpr hleads)
      hcr.dir args keys
    refine (forall_ended_iff hop _).trans ?_
    rw [hcr.protected_iff (refilled_saveAll t₁ n _).toSameBut, ne_eq, hend, not_not]
    simp [hdots]

theorem cmdNano_protected_iff (hd : (t c).isDir = true) (args : List CStr) (keys : List UInt8) :
    NanoOwes t c path args keys u := by
  obtain ⟨r, t₁, htouch, hcr⟩ := fsTouchAs_ok wf hc hd path 0 fsDefaultFileMode
  cases hcr with
  | failed hwhy => exact nanoOwes_failed wf hc hd args keys htouch hwhy
  | found hp hres hf hfile => exact nanoOwes_found wf hc hd args keys htouch hp hres hf hfile
  | created hp hres hf halloc hcr => exact nanoOwes_created wf hc hd args keys htouch hp hres hf halloc hcr

end Owed

/-! ### Command lines -/

/-- What the line, its keys and the table must be for a user without `sudo` to change only what they
may change. -/
def Permitted (argv : List CStr) (s : System) : Prop :=
  match argv with
  | [] => True
  | name :: args =>
    match commandOf name, args with
    | .write, path :: word :: words =>
      MayWrite s.nodes s.shellCwd path (joinWords [] (word :: words)) s.shellUid
    | .nano, path :: _ => MayEdit s.nodes s.shellCwd path s.keys s.shellUid
    | .rm, path :: _ => MayRemove s.nodes s.shellCwd path s.shellUid
    | _, _ => True

/-- The line protects what is in the table: if it ends, its user has changed only what they may. -/
def Protects (argv : List CStr) (s : System) : Prop :=
  ∀ s', shellDispatch argv s = .ok s' → Protected s.shellUid s.nodes s'.nodes

section Ways
variable {s : System} {u : UInt16}

theorem protected_edits_iff {x : Except Fault (Text × Nodes)} {text : Text} {t' : Nodes}
    (hx : x = .ok (text, t')) :
    (∀ s', s.edits x = .ok s' → Protected u s.nodes s'.nodes) ↔ Protected u s.nodes t' := by
  subst hx
  constructor
  · intro h
    exact h _ rfl
  · intro h s' hs
    cases hs
    exact h

theorem protected_types_iff {x : Except Fault (Nodes × Text × Option (List UInt8))} :
    (∀ s', s.types x = .ok s' → Protected u s.nodes s'.nodes) ↔
      ∀ t' text keys, x = .ok (t', text, some keys) → Protected u s.nodes t' := by
  constructor
  · intro h t' text keys hx
    subst hx
    exact h _ rfl
  · intro h s' hs
    obtain ⟨t', text, keys, hx, rfl⟩ := types_eq_ok hs
    exact h t' text keys hx

end Ways

theorem fsSetMode_protected (u : UInt16) (t : Nodes) (node : Int) (mode : UInt16) :
    Protected u t (fsSetMode t node mode).2 := by
  unfold fsSetMode
  cases usedNode t node with
  | none => exact .refl u t
  | some n =>
    exact .of_same (fun i => update_field (m := {t n with mode := mode &&& 0o777}) FsNode.data rfl i)
      (fun i => update_field (m := {t n with mode := mode &&& 0o777}) FsNode.size rfl i)
      (fun i => update_field (m := {t n with mode := mode &&& 0o777}) FsNode.used rfl i)

theorem fsSetOwner_protected (u : UInt16) (t : Nodes) (node : Int) (owner : UInt16) :
    Protected u t (fsSetOwner t node owner).2 := by
  unfold fsSetOwner
  cases usedNode t node with
  | none => exact .refl u t
  | some n =>
    exact .of_same (fun i => update_field (m := {t n with owner := owner}) FsNode.data rfl i)
      (fun i => update_field (m := {t n with owner := owner}) FsNode.size rfl i)
      (fun i => update_field (m := {t n with owner := owner}) FsNode.used rfl i)

/-- **A line protects what its user may not change exactly when it is permitted.** -/
theorem shellDispatch_protects_iff (s : System) (wf : WellFormed s.nodes) (hcwd : UsedDir s.nodes s.shellCwd)
    (argv : List CStr) (hpriv : privileged argv = false) : Protects argv s ↔ Permitted argv s := by
  obtain ⟨c, hcwd, hc, hd⟩ := hcwd
  cases argv with
  | nil =>
    refine iff_of_true (fun s' h => ?_) trivial
    cases h
    exact .refl _ _
  | cons name args =>
    have hnot : ∀ k, commandOf name = k → (k = .sudo ∨ k = .disk ∨ k = .install) → False := by
      intro k hk hor
      rw [privileged_of_commandOf (by rwa [hk])] at hpriv
      cases hpriv
    unfold Protects Permitted
    simp only [shellDispatch, hcwd]
    cases hk : commandOf name with
    | help | clear | whoami | id | logout | apt | networkmanager | nmcli | ifconfig | unknown =>
      refine iff_of_true (fun s' h => ?_) trivial
      cases h
      exact .refl _ _
    | pwd | ls | cat =>
      refine iff_of_true (fun s' h => ?_) trivial
      obtain ⟨text, _, rfl⟩ := shows_eq_ok h
      exact .refl _ _
    | cd =>
      refine iff_of_true (fun s' h => ?_) trivial
      obtain ⟨text, cwd, _, rfl⟩ := moves_eq_ok h
      exact .refl _ _
    | mkdir =>
      obtain ⟨text, t', hcmd, hout⟩ := cmdMkdir_ok wf hc hd args s.shellUid
      refine (protected_edits_iff hcmd).trans (iff_of_true ?_ trivial)
      rcases hout with rfl | ⟨path, r, hmay, hcr⟩
      · exact .refl _ _
      · exact hcr.protected_iff.mpr hmay.mayAdd
    | touch =>
      obtain ⟨text, t', hcmd, hout⟩ := cmdTouch_ok wf hc hd args s.shellUid
      refine (protected_edits_iff hcmd).trans (iff_of_true ?_ trivial)
      rcases hout with rfl | ⟨path, r, hmay, hcr⟩
      · exact .refl _ _
      · exact hcr.protected_iff.mpr hmay.mayAdd
    | write =>
      obtain _ | ⟨path, _ | ⟨word, words⟩⟩ := args
      · exact (protected_edits_iff rfl).trans (iff_of_true (.refl _ _) trivial)
      · exact (protected_edits_iff rfl).trans (iff_of_true (.refl _ _) trivial)
      · obtain ⟨text, r, t', hcmd, hw⟩ := cmdWrite_ok wf hc hd path word words
        exact (protected_edits_iff hcmd).trans (hw.protected_iff wf hc)
    | nano =>
      cases args with
      | nil =>
        refine protected_types_iff.trans (iff_of_true (fun t' text keys h => ?_) trivial)
        cases h
        exact .refl _ _
      | cons path rest => exact protected_types_iff.trans (cmdNano_protected_iff wf hc hd rest s.keys)
    | rm =>
      cases args with
      | nil => exact (protected_edits_iff rfl).trans (iff_of_true (.refl _ _) trivial)
      | cons path rest =>
        obtain ⟨text, r, t', hcmd, hr⟩ := cmdRm_ok wf hc path rest
        exact (protected_edits_iff hcmd).trans (hr.protected_iff wf hc)
    | chmod =>
      obtain ⟨text, t', hcmd, hout⟩ := cmdChmod_ok wf hc args s.shellUid
      refine (protected_edits_iff hcmd).trans (iff_of_true ?_ trivial)
      rcases hout with rfl | ⟨node, mode, rfl⟩
      · exact .refl _ _
      · exact fsSetMode_protected _ _ _ _
    | chown =>
      obtain ⟨text, t', hcmd, hout⟩ := cmdChown_ok wf hc args s.shellUid
      refine (protected_edits_iff hcmd).trans (iff_of_true ?_ trivial)
      rcases hout with rfl | ⟨node, owner, rfl⟩
      · exact .refl _ _
      · exact fsSetOwner_protected _ _ _ _
    | sync =>
      refine iff_of_true (fun s' h => ?_) trivial
      cases h
      obtain ⟨disk, text, heq⟩ := cmdSync_eq s
      rw [heq]
      exact .refl _ _
    | «sudo» => exact (hnot _ hk (.inl rfl)).elim
    | disk => exact (hnot _ hk (.inr (.inl rfl))).elim
    | install => exact (hnot _ hk (.inr (.inr rfl))).elim

theorem shellDispatch_protects_rm :
    Protects [.ofLit "rm", .ofLit "a"] (session fsInit []) ↔
      Permitted [.ofLit "rm", .ofLit "a"] (session fsInit []) :=
  shellDispatch_protects_iff (session fsInit []) wellFormed_fsInit wellFormed_fsInit.usedDir_root
    [.ofLit "rm", .ofLit "a"] (by decide)

/-- `write a b` puts a file into the root of a filesystem that is not its user's. -/
theorem shellDispatch_write_unprotected :
    WellFormed (session fsInit []).nodes ∧ UsedDir (session fsInit []).nodes (session fsInit []).shellCwd ∧
      (session fsInit []).shellUid ≠ 0 ∧ privileged [.ofLit "write", .ofLit "a", .ofLit "b"] = false ∧
      ¬ Protects [.ofLit "write", .ofLit "a", .ofLit "b"] (session fsInit []) := by
  refine ⟨wellFormed_fsInit, wellFormed_fsInit.usedDir_root, by decide, by decide, fun h => ?_⟩
  obtain ⟨text, r, t', hcmd, hw⟩ := cmdWrite_ok wellFormed_fsInit wellFormed_fsInit.root_used
    wellFormed_fsInit.root_dir (.ofLit "a") (.ofLit "b") []
  have hwrite : commandOf (.ofLit "write") = .write := by decide
  unfold Protects at h
  simp only [shellDispatch, hwrite] at h
  have hmay := (hw.protected_iff wellFormed_fsInit wellFormed_fsInit.root_used).mp
    ((protected_edits_iff hcmd).mp h)
  have hnowhere : fsResolve fsInit 0 (.ofLit "a") = .ok (-1) :=
    (fsResolve_eq_neg wellFormed_fsInit.navigable wellFormed_fsInit.root_used).mpr resolve_fsInit
  have haccess := hmay.add hnowhere 0 ⟨lit "a", by decide, by decide⟩ rfl
    (findChild_fsInit (by decide)) allocNode_fsInit
  exact absurd haccess (by decide)

end FurOS
