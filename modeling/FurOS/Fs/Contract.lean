import FurOS.Fs.Runs
import FurOS.Fs.Shape

/-! What a caller of the filesystem operations can rely on.

A call that fails leaves the table alone, and one that succeeds changes a single slot
(`fsMutators_atomic`). What was made is found again by the same path, unless its last
component is one that `fs_resolve` gives a meaning of its own (`creation_resolves_iff`).
What was written is read back, and no other file is touched (`fsWriteFile_read`). -/
namespace FurOS

/-! ### One slot at a time -/

/-- At most one slot differs. -/
def OneSlot (t t' : Nodes) : Prop := ∃ n : NodeId, ∀ i, i ≠ n → t' i = t i

theorem OneSlot.refl (t : Nodes) : OneSlot t t := ⟨0, fun _ _ => rfl⟩

theorem OneSlot.update (t : Nodes) (n : NodeId) (m : FsNode) : OneSlot t (Function.update t n m) :=
  ⟨n, fun _ hi => Function.update_of_ne hi _ _⟩

/-- The call ends: with `-1` and the table as it was, or with `0` and one slot changed. -/
def Atomic (t : Nodes) (x : Except Fault (Int × Nodes)) : Prop :=
  ∃ r t', x = .ok (r, t') ∧ (r = -1 ∧ t' = t ∨ r = 0 ∧ OneSlot t t')

/-- The call ends and leaves the table as it was. -/
def Idle (t : Nodes) (x : Except Fault (Int × Nodes)) : Prop := ∃ r, x = .ok (r, t)

theorem Created.oneSlot {t t' : Nodes} {n p : NodeId} {leaf : Name} {dir : Bool} {owner mode : UInt16}
    (h : Created t t' n p leaf dir owner mode) : OneSlot t t' := ⟨n, h.other⟩

theorem Creation.atomic {t t' : Nodes} {c : NodeId} {path : CStr} {dir : Bool} {owner mode : UInt16}
    {r : Int} (h : Creation t c path dir owner mode r t') : r = -1 ∧ t' = t ∨ r = 0 ∧ OneSlot t t' := by
  cases h with
  | failed => exact .inl ⟨rfl, rfl⟩
  | found => exact .inr ⟨rfl, .refl t⟩
  | created _ _ _ _ hcr => exact .inr ⟨rfl, hcr.oneSlot⟩

theorem Creation.idle {t t' : Nodes} {c : NodeId} {path : CStr} {dir : Bool} {owner mode : UInt16}
    {r : Int} (h : Creation t c path dir owner mode r t') (hfull : ∀ i, (t i).used = true) : t' = t := by
  cases h with
  | failed => rfl
  | found => rfl
  | @created n p leaf t' _ _ _ _ hcr =>
    have hfree := hcr.free
    rw [hfull n] at hfree
    cases hfree

theorem Writing.atomic {t t' : Nodes} {c : NodeId} {path : CStr} {bytes : List UInt8} {r : Int}
    (h : Writing t c path bytes r t') : r = -1 ∧ t' = t ∨ r = 0 ∧ OneSlot t t' := by
  cases h with
  | directory => exact .inl ⟨rfl, rfl⟩
  | failed => exact .inl ⟨rfl, rfl⟩
  | filled => exact .inr ⟨rfl, .update t _ _⟩
  | @created n p leaf t₁ _ _ _ _ _ hcr =>
    refine .inr ⟨rfl, n, fun i hi => ?_⟩
    rw [Function.update_of_ne hi, hcr.other i hi]

theorem Writing.idle {t t' : Nodes} {c : NodeId} {path : CStr} {bytes : List UInt8} {r : Int}
    (h : Writing t c path bytes r t') (hfull : ∀ i, (t i).used = true)
    (hnone : resolve t c path.chars = none) : t' = t := by
  cases h with
  | directory => rfl
  | failed => rfl
  | filled hr =>
    rw [hr] at hnone
    cases hnone
  | @created n p leaf t₁ _ _ _ _ _ hcr =>
    have hfree := hcr.free
    rw [hfull n] at hfree
    cases hfree

theorem Removal.atomic {t t' : Nodes} {c : NodeId} {path : CStr} {r : Int} (h : Removal t c path r t') :
    r = -1 ∧ t' = t ∨ r = 0 ∧ OneSlot t t' := by
  cases h with
  | failed => exact .inl ⟨rfl, rfl⟩
  | removed => exact .inr ⟨rfl, .update t _ _⟩

/-- **A call that fails changes nothing, and one that succeeds at most one slot.** On a full table
nothing is made. -/
theorem fsMutators_atomic (t : Nodes) (wf : WellFormed t) (cwd : Int) (hc : UsedDir t cwd) (path : CStr)
    (owner mode : UInt16) (bytes : List UInt8) :
    Atomic t (fsMkdirAs t cwd path owner mode) ∧ Atomic t (fsTouchAs t cwd path owner mode) ∧
      Atomic t (fsWriteFile t cwd path (some bytes) bytes.length) ∧ Atomic t (fsRemove t cwd path) ∧
      ((∀ i, (t i).used = true) → Idle t (fsMkdirAs t cwd path owner mode) ∧
        Idle t (fsTouchAs t cwd path owner mode) ∧
        (fsResolve t cwd path = .ok (-1) → Idle t (fsWriteFile t cwd path (some bytes) bytes.length))) := by
  obtain ⟨c, rfl, hu, hd⟩ := hc
  obtain ⟨r₁, t₁, hmkdir, h₁⟩ := fsMkdirAs_ok wf hu hd path owner mode
  obtain ⟨r₂, t₂, htouch, h₂⟩ := fsTouchAs_ok wf hu hd path owner mode
  obtain ⟨r₃, t₃, hwrite, h₃⟩ := fsWriteFile_ok wf hu hd path bytes
  obtain ⟨r₄, t₄, hremove, h₄⟩ := fsRemove_ok wf hu path
  refine ⟨⟨r₁, t₁, hmkdir, h₁.atomic⟩, ⟨r₂, t₂, htouch, h₂.atomic⟩, ⟨r₃, t₃, hwrite, h₃.atomic⟩,
    ⟨r₄, t₄, hremove, h₄.atomic⟩, fun hfull => ⟨⟨r₁, ?_⟩, ⟨r₂, ?_⟩, fun hnone => ⟨r₃, ?_⟩⟩⟩
  · rw [hmkdir, h₁.idle hfull]
  · rw [htouch, h₂.idle hfull]
  · rw [fsResolve_eq wf.navigable hu] at hnone
    have hres : resolve t c path.chars = none := by
      cases hr : resolve t c path.chars with
      | none => rfl
      | some n =>
        rw [hr, toC_some] at hnone
        have hneg : (n.val : Int) = -1 := Except.ok.inj hnone
        omega
    rw [hwrite, h₃.idle hfull hres]

theorem fsMutators_atomic_nested :
    Atomic nested (fsMkdirAs nested 1 (.ofLit "../a/./f") 1000 0o755) ∧
      Atomic nested (fsTouchAs nested 1 (.ofLit "../a/./f") 1000 0o755) ∧
      Atomic nested (fsWriteFile nested 1 (.ofLit "../a/./f") (some [4, 5, 6]) 3) ∧
      Atomic nested (fsRemove nested 1 (.ofLit "../a/./f")) ∧
      ((∀ i, (nested i).used = true) → Idle nested (fsMkdirAs nested 1 (.ofLit "../a/./f") 1000 0o755) ∧
        Idle nested (fsTouchAs nested 1 (.ofLit "../a/./f") 1000 0o755) ∧
        (fsResolve nested 1 (.ofLit "../a/./f") = .ok (-1) →
          Idle nested (fsWriteFile nested 1 (.ofLit "../a/./f") (some [4, 5, 6]) 3))) :=
  fsMutators_atomic nested nested_wellFormed 1 nested_usedDir (.ofLit "../a/./f") 1000 0o755 [4, 5, 6]

/-! ### What was made is found -/

/-- The path leads to a used node, of the kind `dir`. -/
def LeadsTo (t : Nodes) (c : NodeId) (path : CStr) (dir : Bool) : Prop :=
  ∃ n : NodeId, fsResolve t (c.val : Int) path = .ok (n.val : Int) ∧ (t n).used = true ∧ (t n).isDir = dir

/-- What `fs_mkdir_as` and `fs_touch_as` report as made is at its path. -/
def CreationResolves (t : Nodes) (c : NodeId) (path : CStr) (owner mode : UInt16) : Prop :=
  (∀ t', fsMkdirAs t (c.val : Int) path owner mode = .ok (0, t') → LeadsTo t' c path true) ∧
    ∀ t', fsTouchAs t (c.val : Int) path owner mode = .ok (0, t') → LeadsTo t' c path false

/-- The last component is `.` or `..`, and its directory has a file of that name or could be given one. -/
def DotFile (t : Nodes) (c : NodeId) (path : CStr) : Prop :=
  ∃ p leaf, parentNode t c path = some (p, leaf) ∧ (leaf.chars = lit "." ∨ leaf.chars = lit "..") ∧
    ((∃ e, findChild t (p.val : Int) leaf.chars = some e ∧ (t e).isDir = false) ∨
      findChild t (p.val : Int) leaf.chars = none ∧ allocNode t ≠ none)

section Found
variable {t : Nodes} (wf : WellFormed t) {c : NodeId} (hc : (t c).used = true)
include wf hc

theorem leadsTo_of_resolve {path : CStr} {n : NodeId} {dir : Bool} (h : resolve t c path.chars = some n)
    (hd : (t n).isDir = dir) : LeadsTo t c path dir := by
  exact ⟨n, (fsResolve_eq_some wf.navigable hc).mpr h, resolve_used wf.navigable hc h, hd⟩

/-- Where `.` and `..` lead is a directory. -/
theorem Parent.leadsTo_dots {path : CStr} {p : NodeId} {leaf : Name} (hp : Parent t c path.chars p leaf)
    (hdots : leaf.chars = lit "." ∨ leaf.chars = lit "..") : LeadsTo t c path true := by
  have hres := hp.resolve_eq
  rcases hdots with hdot | hdots
  · rw [hdot] at hres
    exact leadsTo_of_resolve wf hc hres hp.dir
  · rw [hdots] at hres
    unfold stepName at hres
    rw [if_neg (by decide), if_pos rfl] at hres
    split at hres
    · exact leadsTo_of_resolve wf hc hres wf.root_dir
    · obtain ⟨q, hq, _, hdir⟩ := wf.parent p hp.used
      rw [parentOf_eq_some.mpr hq] at hres
      exact leadsTo_of_resolve wf hc hres hdir

/-- Any other last component leads to the child of that name. -/
theorem Parent.leadsTo_child {path : CStr} {p e : NodeId} {leaf : Name} {dir : Bool}
    (hp : Parent t c path.chars p leaf) (hdots : ¬ (leaf.chars = lit "." ∨ leaf.chars = lit ".."))
    (he : findChild t (p.val : Int) leaf.chars = some e) (hd : (t e).isDir = dir) :
    LeadsTo t c path dir := by
  have hres := hp.resolve_eq
  unfold stepName at hres
  rw [if_neg fun h => hdots (.inl h), if_neg fun h => hdots (.inr h), he] at hres
  exact leadsTo_of_resolve wf hc hres hd

end Found

theorem LeadsTo.unique {t : Nodes} {c : NodeId} {path : CStr} {d d' : Bool} (h : LeadsTo t c path d)
    (h' : LeadsTo t c path d') : d = d' := by
  obtain ⟨n, hn, _, hd⟩ := h
  obtain ⟨n', hn', _, hd'⟩ := h'
  rw [hn] at hn'
  have hnn : n = n' := Fin.ext (by exact_mod_cast Except.ok.inj hn')
  rw [← hd, hnn, hd']

/-- What a creation that succeeded leaves at its path: the node asked for, or a directory when the
last component is `.` or `..`. -/
theorem Creation.leadsTo {t t' : Nodes} (wf : WellFormed t) {c : NodeId} (hc : (t c).used = true)
    {path : CStr} {dir : Bool} {owner mode : UInt16} (h : Creation t c path dir owner mode 0 t') :
    ∃ p leaf, parentNode t c path = some (p, leaf) ∧
      LeadsTo t' c path (if leaf.chars = lit "." ∨ leaf.chars = lit ".." then true else dir) := by
  cases h with
  | @found p e leaf hp hres hf he =>
    refine ⟨p, leaf, (resolveParentAndLeaf_eq_some wf.navigable hc).mp hres, ?_⟩
    split
    · exact hp.leadsTo_dots wf hc ‹_›
    · exact hp.leadsTo_child wf hc ‹_› hf he
  | @created n p leaf t' hp hres hf _ hcr =>
    have wf' := hcr.wellFormed wf hp.used hp.dir hf
    have hc' : (t' c).used = true := (hcr.used_iff c).mpr (.inl hc)
    have hp' := hcr.parent_mono wf wf' hc hp
    refine ⟨p, leaf, (resolveParentAndLeaf_eq_some wf.navigable hc).mp hres, ?_⟩
    split
    · exact hp'.leadsTo_dots wf' hc' ‹_›
    · refine hp'.leadsTo_child wf' hc' ‹_› ?_ hcr.dir
      rw [← hcr.parent, ← hcr.name]
      exact wf'.findChild_self n hcr.used hcr.slot

/-- `mkdir` makes a directory that its path leads to, whatever its last component. -/
theorem fsMkdirAs_leadsTo {t t' : Nodes} (wf : WellFormed t) {c : NodeId} (hc : (t c).used = true)
    (hd : (t c).isDir = true) {path : CStr} {owner mode : UInt16}
    (h : fsMkdirAs t (c.val : Int) path owner mode = .ok (0, t')) : LeadsTo t' c path true := by
  obtain ⟨r, t₁, hmkdir, hcr⟩ := fsMkdirAs_ok wf hc hd path owner mode
  rw [hmkdir] at h
  cases h
  obtain ⟨p, leaf, _, hto⟩ := hcr.leadsTo wf hc
  rwa [ite_self] at hto

/-- A file is made at such a path: the call succeeds. -/
theorem DotFile.touch {t : Nodes} (wf : WellFormed t) {c : NodeId} (hc : (t c).used = true)
    (hd : (t c).isDir = true) {path : CStr} (h : DotFile t c path) (owner mode : UInt16) :
    ∃ t', fsTouchAs t (c.val : Int) path owner mode = .ok (0, t') ∧ LeadsTo t' c path true := by
  obtain ⟨p, leaf, hnode, hdots, hmade⟩ := h
  have hres := (resolveParentAndLeaf_eq_some wf.navigable hc).mpr hnode
  obtain ⟨r, t', htouch, hcr⟩ := fsTouchAs_ok wf hc hd path owner mode
  have hr : r = 0 := by
    cases hcr with
    | failed hwhy =>
      rcases hwhy _ _ hres with ⟨e, he, hkind⟩ | ⟨hnone, hfull⟩
      · rcases hmade with ⟨e', he', hkind'⟩ | ⟨hnone, _⟩
        · rw [he] at he'
          cases he'
          exact absurd hkind' hkind
        · rw [he] at hnone
          cases hnone
      · rcases hmade with ⟨e', he', _⟩ | ⟨_, hfree⟩
        · rw [hnone] at he'
          cases he'
        · exact absurd hfull hfree
    | found => rfl
    | created => rfl
  subst hr
  obtain ⟨p', leaf', hnode', hto⟩ := hcr.leadsTo wf hc
  rw [hnode] at hnode'
  cases hnode'
  rw [if_pos hdots] at hto
  exact ⟨t', htouch, hto⟩

/-- Where `.` and `..` lead is a directory, not the file that was made. -/
theorem DotFile.not_resolves {t : Nodes} (wf : WellFormed t) {c : NodeId} (hc : (t c).used = true)
    (hd : (t c).isDir = true) {path : CStr} (h : DotFile t c path) (owner mode : UInt16) :
    ¬ CreationResolves t c path owner mode := by
  obtain ⟨t', htouch, hto⟩ := h.touch wf hc hd owner mode
  exact fun hres => absurd (hto.unique (hres.2 t' htouch)) (by decide)

/-- **What was made is found at its path**, but for a file whose last component is `.` or `..`. -/
theorem creation_resolves_iff (t : Nodes) (wf : WellFormed t) (c : NodeId) (hc : (t c).used = true)
    (hd : (t c).isDir = true) (path : CStr) (owner mode : UInt16) :
    CreationResolves t c path owner mode ↔ ¬ DotFile t c path := by
  constructor
  · exact fun hres h => h.not_resolves wf hc hd owner mode hres
  · intro hno
    obtain ⟨r, t', htouch, hcr⟩ := fsTouchAs_ok wf hc hd path owner mode
    refine ⟨fun t' h => fsMkdirAs_leadsTo wf hc hd h, fun t₁ h => ?_⟩
    rw [htouch] at h
    cases h
    obtain ⟨p, leaf, hnode, hto⟩ := hcr.leadsTo wf hc
    rwa [if_neg] at hto
    intro hdots
    refine hno ⟨p, leaf, hnode, hdots, ?_⟩
    cases hcr with
    | found hp hres hf he =>
      have hsame := (resolveParentAndLeaf_eq_some wf.navigable hc).mp hres
      rw [hnode] at hsame
      cases hsame
      exact .inl ⟨_, hf, he⟩
    | created hp hres hf hfree _ =>
      have hsame := (resolveParentAndLeaf_eq_some wf.navigable hc).mp hres
      rw [hnode] at hsame
      cases hsame
      exact .inr ⟨hf, hfree⟩

theorem creation_resolves_fsInit :
    CreationResolves fsInit 0 (.ofLit "a") 1000 0o644 ↔ ¬ DotFile fsInit 0 (.ofLit "a") :=
  creation_resolves_iff fsInit wellFormed_fsInit 0 wellFormed_fsInit.root_used wellFormed_fsInit.root_dir
    (.ofLit "a") 1000 0o644

theorem allocNode_fsInit : allocNode fsInit ≠ none := by
  intro h
  have hused := (fsInit_used 1).mp (allocNode_eq_none_iff.mp h 1 (by decide))
  exact absurd hused (by decide)

/-- In the empty filesystem `.` can be given to a file. -/
theorem dotFile_fsInit : DotFile fsInit 0 (.ofLit ".") :=
  ⟨0, ⟨lit ".", by decide, by decide⟩, rfl, .inl rfl, .inr ⟨findChild_fsInit (by decide), allocNode_fsInit⟩⟩

/-- `touch .` in an empty filesystem reports a file, and its path leads to the root. -/
theorem touch_dot_unreachable : ¬ CreationResolves fsInit 0 (.ofLit ".") 1000 0o644 :=
  dotFile_fsInit.not_resolves wellFormed_fsInit wellFormed_fsInit.root_used wellFormed_fsInit.root_dir 1000 0o644

/-! ### What was written is read -/

/-- The path leads to the file `m`. -/
def FileAt (t : Nodes) (cwd : Int) (path : CStr) (m : NodeId) : Prop :=
  fsResolve t cwd path = .ok (m.val : Int) ∧ (t m).isDir = false

/-- A read through this path gives exactly these bytes. -/
def ReadsBytes (t : Nodes) (cwd : Int) (path : CStr) (bytes : List UInt8) : Prop :=
  ∃ data size, fsReadFile t cwd path = .ok (some (data, size)) ∧ (List.ofFn data).take size.toNat = bytes

theorem take_clampSize (bytes : List UInt8) : bytes.take (clampSize bytes.length) = bytes.take 4095 := by
  unfold clampSize
  split
  · rfl
  · rw [List.take_of_length_le (le_refl _), List.take_of_length_le (by omega)]

/-- A path to a node that was filled reads the bytes. -/
theorem writeNode_readsBytes {t t' : Nodes} {cwd node : Int} {path : CStr} {bytes : List UInt8}
    (hr : fsResolve t cwd path = .ok node)
    (h : writeNode t node (some bytes) bytes.length = .ok (0, t')) :
    ReadsBytes t' cwd path (bytes.take 4095) := by
  by_cases hneg : node < 0
  · rw [writeNode, if_pos hneg] at h
    cases h
  cases hidx : nodeIndex node with
  | error f =>
    rw [writeNode, if_neg hneg, hidx] at h
    cases h
  | ok n =>
    obtain rfl := nodeIndex_eq_ok.mp hidx
    cases hd : (t n).isDir with
    | true =>
      rw [writeNode_dir t n hd] at h
      cases h
    | false =>
      rw [writeNode_file t n hd] at h
      cases h
      have hsame : SameBut n t (Function.update t n (fillNode (t n) bytes)) := .update_self rfl
      refine ⟨_, _, fsReadFile_file ((hsame.fsResolve cwd path).trans hr) ((hsame.isDir n).trans hd), ?_⟩
      rw [Function.update_self, ← take_clampSize]
      exact contents_fillNode (t n) bytes

/-- A write that succeeded is read back, on any table. -/
theorem fsWriteFile_readsBytes {t t' : Nodes} {cwd : Int} {path : CStr} {bytes : List UInt8}
    (h : fsWriteFile t cwd path (some bytes) bytes.length = .ok (0, t')) :
    ReadsBytes t' cwd path (bytes.take 4095) := by
  unfold fsWriteFile at h
  obtain ⟨node, hr, h⟩ := Foundation.bind_eq_ok.mp h
  by_cases hneg : node < 0
  · rw [if_pos hneg] at h
    obtain ⟨⟨status, t₁⟩, _, h⟩ := Foundation.bind_eq_ok.mp h
    by_cases hs : status ≠ 0
    · simp only [if_pos hs] at h
      cases h
    · simp only [if_neg hs] at h
      obtain ⟨node', hr', h⟩ := Foundation.bind_eq_ok.mp h
      exact writeNode_readsBytes hr' h
  · rw [if_neg hneg] at h
    exact writeNode_readsBytes hr h

/-- A read of an unchanged file, through a path that still leads to it. -/
theorem fsReadFile_congr {t t' : Nodes} (wf : WellFormed t) (wf' : WellFormed t') {c m : NodeId}
    (hc : (t c).used = true) (hc' : (t' c).used = true) {path : CStr}
    (hr : resolve t c path.chars = some m) (hr' : resolve t' c path.chars = some m) (hm : t' m = t m) :
    fsReadFile t' (c.val : Int) path = fsReadFile t (c.val : Int) path := by
  rw [fsReadFile_eq wf hc, fsReadFile_eq wf' hc', hr, hr', Option.bind_some, Option.bind_some, hm]

/-- What a write that succeeded leaves of the rest: paths that led somewhere, and every other node in use. -/
theorem Writing.others {t t' : Nodes} {c : NodeId} {path : CStr} {bytes : List UInt8} (wf : WellFormed t)
    (h : Writing t c path bytes 0 t') :
    (∀ q c' d, (t c').used = true → resolve t c' q = some d → resolve t' c' q = some d) ∧
      ∀ i, (t i).used = true → resolve t c path.chars ≠ some i → t' i = t i := by
  cases h with
  | @filled n hr hu hn =>
    have hsame : SameBut n t (Function.update t n (fillNode (t n) bytes)) := .update_self rfl
    have hres : ∀ c q, resolve (Function.update t n (fillNode (t n) bytes)) c q = resolve t c q :=
      fun c q => hsame.congr (fun t => resolve t c q) fun _ => rfl
    refine ⟨fun q c' d _ hd => by rw [hres, hd], fun i _ hne => ?_⟩
    exact hsame.other i fun hin => hne (by rw [hr, hin])
  | @created n p leaf t₁ hr hp _ hf _ hcr =>
    obtain ⟨hdot, hdots, _⟩ := hp.no_dots wf hr
    have wf₁ := hcr.wellFormed wf hp.used hp.dir hf
    have hsame : SameBut n t₁ (Function.update t₁ n (fillNode (t₁ n) bytes)) := .update_self rfl
    have hres : ∀ c q, resolve (Function.update t₁ n (fillNode (t₁ n) bytes)) c q = resolve t₁ c q :=
      fun c q => hsame.congr (fun t => resolve t c q) fun _ => rfl
    refine ⟨fun q c' d hc' hd => ?_, fun i hi _ => ?_⟩
    · rw [hres, hcr.resolve_mono wf wf₁ hc' hd]
    · have hin : i ≠ n := fun hin => by
        have hfree := hcr.free
        rw [← hin, hi] at hfree
        cases hfree
      rw [hsame.other i hin, hcr.old hi]

/-- **What was written is read back, and no other file is touched.** -/
theorem fsWriteFile_read (t : Nodes) (wf : WellFormed t) (cwd : Int) (hc : UsedDir t cwd) (path : CStr)
    (bytes : List UInt8) (t' : Nodes) (h : fsWriteFile t cwd path (some bytes) bytes.length = .ok (0, t')) :
    ReadsBytes t' cwd path (bytes.take 4095) ∧
      ∀ c q m, UsedDir t c → FileAt t c q m → ¬ FileAt t cwd path m →
        fsReadFile t' c q = fsReadFile t c q := by
  obtain ⟨c, rfl, hu, hd⟩ := hc
  obtain ⟨r, t₁, hwrite, hout⟩ := fsWriteFile_ok wf hu hd path bytes
  rw [hwrite] at h
  cases h
  have wf' := hout.wellFormed wf
  have hused : ∀ i, (t i).used = true → (t' i).used = true := fun i hi => (fsWriteFile_extends hwrite).used hi
  obtain ⟨hmono, hother⟩ := hout.others wf
  refine ⟨fsWriteFile_readsBytes hwrite, ?_⟩
  rintro _ q m ⟨c', rfl, hu', _⟩ ⟨hq, hm⟩ hne
  have hqm := (fsResolve_eq_some wf.navigable hu').mp hq
  refine fsReadFile_congr wf wf' hu' (hused c' hu') hqm (hmono q.chars c' m hu' hqm) (hother m ?_ ?_)
  · exact resolve_used wf.navigable hu' hqm
  · intro hpm
    exact hne ⟨(fsResolve_eq_some wf.navigable hu).mpr hpm, hm⟩

/-- There is no `a` in an empty filesystem. -/
theorem resolve_fsInit : resolve fsInit 0 (CStr.ofLit "a").chars = none := by
  have hstep : stepName fsInit 0 (lit "a") = none := by
    unfold stepName
    rw [if_neg (by decide), if_neg (by decide)]
    exact findChild_fsInit (by decide)
  have hnames : Foundation.components slash (CStr.ofLit "a").chars = [lit "a"] := by decide
  have hstart : startOf 0 (CStr.ofLit "a").chars = 0 := by decide
  unfold resolve
  rw [hnames, hstart, Foundation.walk_cons, hstep]
  rfl

/-- A file `a` can be written there. -/
theorem fsWriteFile_fsInit (bytes : List UInt8) :
    ∃ t', fsWriteFile fsInit 0 (.ofLit "a") (some bytes) bytes.length = .ok (0, t') := by
  obtain ⟨r, t', hwrite, hout⟩ := fsWriteFile_ok wellFormed_fsInit (c := 0) wellFormed_fsInit.root_used
    wellFormed_fsInit.root_dir (.ofLit "a") bytes
  have hnone : findChild fsInit 0 (lit "a") = none := findChild_fsInit (by decide)
  have hparent : parentNode fsInit 0 (.ofLit "a") = some (0, ⟨lit "a", by decide, by decide⟩) := rfl
  cases hout with
  | directory h =>
    rw [resolve_fsInit] at h
    cases h
  | failed _ hwhy =>
    have hres := (resolveParentAndLeaf_eq_some wellFormed_fsInit.navigable wellFormed_fsInit.root_used).mpr hparent
    exact absurd (hwhy _ _ hres hnone) allocNode_fsInit
  | filled => exact ⟨_, hwrite⟩
  | created => exact ⟨_, hwrite⟩

/-- The file `g` is written from the directory, and the one in the directory reads as before. -/
theorem fsWriteFile_read_nested :
    ∃ t', fsWriteFile nested 1 (.ofLit "../g") (some [4, 5, 6]) 3 = .ok (0, t') ∧
      ReadsBytes t' 1 (.ofLit "../g") [4, 5, 6] ∧
      fsReadFile t' 0 (.ofLit "a/f") = fsReadFile nested 0 (.ofLit "a/f") := by
  have hdone : (match fsWriteFile nested 1 (.ofLit "../g") (some [4, 5, 6]) 3 with
    | .ok (r, _) => r
    | .error _ => -1) = 0 := by decide +kernel
  split at hdone
  · rename_i r t' hwrite
    subst hdone
    obtain ⟨hread, hothers⟩ := fsWriteFile_read nested nested_wellFormed 1 nested_usedDir (.ofLit "../g") [4, 5, 6]
      t' hwrite
    refine ⟨t', hwrite, hread, hothers 0 _ 2 nested_wellFormed.usedDir_root ⟨by decide +kernel, by decide +kernel⟩ ?_⟩
    exact fun h => absurd h.1 (by decide +kernel)
  · cases hdone

end FurOS
