import FurOS.Fs.Runs

/-! Printed paths.

The absolute path of a node spells the names on the way down to it. `fs_make_path`
climbs the same way up (`pathStack_eq`) and stores what it met (`putNames_eq`), if one
more byte than the path and its terminator fits (`fsMakePath_fits_iff`). What it stored
leads back to the node (`fsMakePath_resolve`). -/
namespace FurOS
open Foundation (Lineage components walk spell)

/-- The names of the nodes on a way. -/
def namesOf (t : Nodes) (l : List NodeId) : List (List UInt8) := l.map fun i => cstr (t i).name

@[simp] theorem namesOf_nil (t : Nodes) : namesOf t [] = [] := rfl

@[simp] theorem namesOf_cons (t : Nodes) (i : NodeId) (l : List NodeId) :
    namesOf t (i :: l) = cstr (t i).name :: namesOf t l := rfl

/-- The path that names every node on the way down from the root; the root's is `"/"`. -/
def AbsolutePath (t : Nodes) (n : NodeId) (path : List UInt8) : Prop :=
  ∃ l, Lineage (parentOf t) 0 n l ∧ path = if l = [] then [slash] else spell slash (namesOf t l)

/-! ### Climbing -/

/-- With room for every node on the way, the stack holds them in order. -/
theorem pathStack_eq {t : Nodes} {n : NodeId} {l : List NodeId} (h : Lineage (parentOf t) 0 n l)
    (stack : List Int) {room : Nat} (hroom : l.length < room) :
    pathStack t (n.val : Int) stack room = .ok (l.map (fun i => (i.val : Int)) ++ stack) := by
  induction h generalizing stack room with
  | root =>
    cases room with
    | zero => rfl
    | succ room => rfl
  | @step i j l hi hp _ ih =>
    rw [List.length_append, List.length_singleton] at hroom
    obtain ⟨room, rfl⟩ : ∃ k, room = k + 1 := ⟨room - 1, by omega⟩
    have hne : (i.val : Int) ≠ 0 := fun h0 => hi (Fin.ext (by show i.val = 0; omega))
    rw [pathStack, if_neg hne, nodeIndex_ofNat, Foundation.ok_bind, parentOf_eq_some.mp hp,
      ih (i.val :: stack) (by omega)]
    simp

theorem Written.empty_put (cap : Nat) (s : List UInt8) (h : s.length ≤ cap) :
    ∃ out, (⟨[], Nat.zero_le cap⟩ : Written cap).put s = .ok out ∧ out.chars = s := by
  obtain ⟨out, hout, hchars⟩ := Written.put_ok (⟨[], Nat.zero_le cap⟩ : Written cap) s (by simpa using h)
  exact ⟨out, hout, hchars⟩

/-- What storing a path ends with: `0` and the whole path where `need` bytes fit, `-1` elsewhere. -/
def Stored (cap : Nat) (path : List UInt8) (need : Nat) (x : Int × Written cap) : Prop :=
  x.1 = 0 ∧ x.2.chars = path ++ [0] ∧ need ≤ cap ∨ x.1 = -1 ∧ cap < need

section Names
variable {t : Nodes} {cap : Nat}

/-- A name that fits is stored, with what follows it. -/
theorem putNames_cons (i : NodeId) (rest : List Int) (hname : (cstr (t i).name).length ≤ 31)
    (out : Written cap) : putNames t out ((i.val : Int) :: rest) =
      if out.chars.length + (cstr (t i).name).length + 1 ≥ cap then .ok (-1, out)
      else out.put (cstr (t i).name) >>= fun out =>
        if rest ≠ [] then out.put [slash] >>= fun out => putNames t out rest else putNames t out rest := by
  have hread : readStr (t i).name = .ok (cstr (t i).name) := by
    unfold readStr
    rw [if_pos (by omega)]
  rw [putNames, nodeIndex_ofNat, Foundation.ok_bind, hread]
  rfl

/-- The names are stored as the rest of the path, or the first that does not fit ends it. -/
theorem putNames_eq (i : NodeId) (l : List NodeId) (hname : ∀ k ∈ i :: l, (cstr (t k).name).length ≤ 31)
    {out : Written cap} (front : List UInt8) (hout : out.chars = front ++ [slash]) :
    ∃ x, putNames t out ((i :: l).map fun k => (k.val : Int)) = .ok x ∧
      Stored cap (front ++ spell slash (namesOf t (i :: l)))
        ((front ++ spell slash (namesOf t (i :: l))).length + 2) x := by
  have hlen := congrArg List.length hout
  rw [List.length_append, List.length_singleton] at hlen
  induction l generalizing i out front with
  | nil =>
    rw [List.map_cons, putNames_cons i _ (hname i List.mem_cons_self)]
    by_cases hfull : out.chars.length + (cstr (t i).name).length + 1 ≥ cap
    · rw [if_pos hfull]
      exact ⟨_, rfl, .inr ⟨rfl, by simp; omega⟩⟩
    · obtain ⟨out₁, hout₁, hch₁⟩ := out.put_ok (cstr (t i).name) (by omega)
      obtain ⟨out₂, hout₂, hch₂⟩ := out₁.put_ok [0] (by rw [hch₁]; simp; omega)
      refine ⟨(0, out₂), ?_, .inl ⟨rfl, ?_, by simp; omega⟩⟩
      · rw [if_neg hfull, hout₁, Foundation.ok_bind]
        show (out₁.put [0] >>= fun out => pure ((0 : Int), out)) = _
        rw [hout₂]
        rfl
      · rw [hch₂, hch₁, hout]
        simp
  | cons j l ih =>
    rw [List.map_cons, putNames_cons i _ (hname i List.mem_cons_self)]
    by_cases hfull : out.chars.length + (cstr (t i).name).length + 1 ≥ cap
    · rw [if_pos hfull]
      exact ⟨_, rfl, .inr ⟨rfl, by simp; omega⟩⟩
    · obtain ⟨out₁, hout₁, hch₁⟩ := out.put_ok (cstr (t i).name) (by omega)
      obtain ⟨out₂, hout₂, hch₂⟩ := out₁.put_ok [slash] (by rw [hch₁]; simp; omega)
      obtain ⟨x, hx, hstored⟩ := ih j (fun k hk => hname k (List.mem_cons_of_mem _ hk)) _ hch₂
        (by rw [hch₂]; simp)
      refine ⟨x, ?_, ?_⟩
      · rw [if_neg hfull, hout₁, Foundation.ok_bind, if_pos (by simp), hout₂, Foundation.ok_bind]
        exact hx
      · rw [hch₁, hout] at hstored
        simpa using hstored

end Names

/-- How many bytes `fs_make_path` wants for a path: one more than the path with its terminator takes,
but for the root's. -/
def roomFor (n : NodeId) (path : List UInt8) : Nat := if n = 0 then path.length + 1 else path.length + 2

theorem roomFor_root (path : List UInt8) : roomFor 0 path = path.length + 1 := if_pos rfl

theorem roomFor_below {n : NodeId} (h : n ≠ 0) (path : List UInt8) : roomFor n path = path.length + 2 :=
  if_neg h

/-- Every used node has an absolute path. -/
theorem WellFormed.absolutePath {t : Nodes} (wf : WellFormed t) {n : NodeId} (hn : (t n).used = true) :
    ∃ path, AbsolutePath t n path := by
  obtain ⟨l, hl⟩ := (wf.tree.rooted n hn).lineage
  exact ⟨_, l, hl, rfl⟩

theorem fsMakePath_stored {t : Nodes} (wf : WellFormed t) {n : NodeId} (hn : (t n).used = true)
    {path : List UInt8} (hpath : AbsolutePath t n path) (cap : Nat) :
    ∃ x, fsMakePath t (n.val : Int) cap = .ok x ∧ Stored cap path (roomFor n path) x := by
  obtain ⟨l, hl, rfl⟩ := hpath
  unfold fsMakePath
  dsimp only
  rw [usedNode_ofNat t n hn]
  by_cases hcap : cap = 0
  · refine ⟨_, by rw [if_pos hcap]; rfl, .inr ⟨rfl, ?_⟩⟩
    unfold roomFor
    split
    · omega
    · omega
  rw [if_neg hcap, if_neg (by simp)]
  by_cases h0 : n = 0
  · subst h0
    rw [if_pos (hl.eq_nil_iff.mpr rfl), roomFor_root, if_pos (by rfl)]
    by_cases h2 : cap < 2
    · exact ⟨_, by rw [if_pos h2]; rfl, .inr ⟨rfl, h2⟩⟩
    · obtain ⟨out, hout, hch⟩ := Written.empty_put cap [slash, 0] (by simp; omega)
      refine ⟨(0, out), ?_, .inl ⟨rfl, hch, by simp; omega⟩⟩
      rw [if_neg h2, hout]
      rfl
  · have hne : (n.val : Int) ≠ 0 := fun hz => h0 (Fin.ext (by show n.val = 0; omega))
    have hcard := hl.length_lt_card
    rw [Fintype.card_fin] at hcard
    rw [if_neg hne, pathStack_eq hl [] hcard, Foundation.ok_bind, List.append_nil, roomFor_below h0,
      if_neg (fun h => h0 (hl.eq_nil_iff.mp h))]
    by_cases h1 : 1 ≥ cap
    · exact ⟨_, by rw [if_pos h1]; rfl, .inr ⟨rfl, by omega⟩⟩
    · obtain ⟨out, hout, hch⟩ := Written.empty_put cap [slash] (by simp; omega)
      rw [if_neg h1, hout, Foundation.ok_bind]
      have hlive := hl.live wf.tree hn
      cases l with
      | nil => exact absurd (hl.eq_nil_iff.mp rfl) h0
      | cons i l => exact putNames_eq i l (fun k hk => wf.name_le k (hlive k hk)) [] hch

/-! ### What fits -/

/-- The call stays inside `out` and succeeds exactly when the path and its terminator fit. -/
def SucceedsWhenFits (t : Nodes) (n : NodeId) (path : List UInt8) (cap : Nat) : Prop :=
  ∃ r out, fsMakePath t (n.val : Int) cap = .ok (r, out) ∧ (r = 0 ↔ path.length + 1 ≤ cap)

/-- **`fs_make_path` succeeds when the path fits**, but for a path other than `"/"` that fits exactly. -/
theorem fsMakePath_fits_iff (t : Nodes) (wf : WellFormed t) (n : NodeId) (hn : (t n).used = true) :
    ∃ path, AbsolutePath t n path ∧
      ∀ cap, 1 ≤ cap → (SucceedsWhenFits t n path cap ↔ n = 0 ∨ cap ≠ path.length + 1) := by
  obtain ⟨path, hpath⟩ := wf.absolutePath hn
  refine ⟨path, hpath, fun cap _ => ?_⟩
  obtain ⟨⟨r, out⟩, hx, hstored⟩ := fsMakePath_stored wf hn hpath cap
  have hstatus : r = 0 ↔ roomFor n path ≤ cap := by
    rcases hstored with ⟨hr, _, hfits⟩ | ⟨hr, hshort⟩
    · exact ⟨fun _ => hfits, fun _ => hr⟩
    · have hr' : r = -1 := hr
      exact ⟨fun h => by omega, fun h => by omega⟩
  have hsucceeds : SucceedsWhenFits t n path cap ↔ (roomFor n path ≤ cap ↔ path.length + 1 ≤ cap) := by
    constructor
    · intro hs
      obtain ⟨r', out', hx', hiff⟩ := hs
      rw [hx] at hx'
      cases hx'
      rw [← hiff, hstatus]
    · intro hiff
      exact ⟨r, out, hx, hstatus.trans hiff⟩
  rw [hsucceeds]
  by_cases h0 : n = 0
  · rw [h0, roomFor_root]
    simp
  · rw [roomFor_below h0]
    constructor
    · intro hiff
      exact .inr fun hcap => by omega
    · rintro (hn0 | hcap)
      · exact absurd hn0 h0
      · omega

/-- The path of a file in a directory. -/
theorem fsMakePath_fits_nested : ∃ path, AbsolutePath nested 2 path ∧
    ∀ cap, 1 ≤ cap → (SucceedsWhenFits nested 2 path cap ↔ (2 : NodeId) = 0 ∨ cap ≠ path.length + 1) :=
  fsMakePath_fits_iff nested nested_wellFormed 2 nested_file.1

/-- A table with a directory more, as `fs_mkdir_as` makes one in a slot of zeros. -/
def withDir (t : Nodes) (n p : NodeId) (leaf : Name) : Nodes :=
  Function.update t n (dirNode 0 fsDefaultDirMode p.val leaf {FsNode.zero with used := true})

/-- A node made in a slot of zeros. -/
theorem made_created {dir : Bool} {owner mode : UInt16} {make : Int → Name → FsNode → FsNode}
    (hmake : Makes dir owner mode make)
    {t : Nodes} {n : NodeId} (h0 : n ≠ 0) (hfree : (t n).used = false) (p : NodeId) (leaf : Name) :
    Created t (Function.update t n (make p.val leaf {FsNode.zero with used := true})) n p leaf dir owner mode := by
  have hself : Function.update t n (make p.val leaf {FsNode.zero with used := true}) n =
      make p.val leaf {FsNode.zero with used := true} := Function.update_self ..
  refine ⟨h0, hfree, fun i hi => Function.update_of_ne hi _ _, ?_, ?_, ?_, ?_, ?_, ?_, fun _ => ?_, ?_, ?_⟩
  all_goals rw [hself]
  · rw [hmake.used]
  · rw [hmake.isDir]
  · rw [hmake.parent, parent_toInt]
  · rw [hmake.owner]
  · rw [hmake.mode]
  · rw [hmake.name]
    exact cstr_kstrcpy _ _ leaf.noNul (Nat.lt_succ_of_le leaf.length_le)
  · rw [hmake.name]
    exact kstrcpy_last leaf rfl
  · rw [hmake.size _ _ _ rfl]
  · rw [hmake.data _ _ _ rfl]

theorem withDir_created {t : Nodes} {n : NodeId} (h0 : n ≠ 0) (hfree : (t n).used = false) (p : NodeId)
    (leaf : Name) : Created t (withDir t n p leaf) n p leaf true 0 fsDefaultDirMode :=
  made_created (dirNode_makes 0 fsDefaultDirMode) h0 hfree p leaf

/-- There is room for the directory there. -/
def Takes (t : Nodes) (n p : NodeId) (leaf : Name) : Prop :=
  (n ≠ 0 ∧ (t n).used = false) ∧ ((t p).used = true ∧ (t p).isDir = true) ∧
    findChild t (p.val : Int) leaf.chars = none

instance (t : Nodes) (n p : NodeId) (leaf : Name) : Decidable (Takes t n p leaf) :=
  inferInstanceAs (Decidable (_ ∧ _))

theorem Takes.wellFormed {t : Nodes} {n p : NodeId} {leaf : Name} (h : Takes t n p leaf) (wf : WellFormed t) :
    WellFormed (withDir t n p leaf) :=
  (withDir_created h.1.1 h.1.2 p leaf).wellFormed wf h.2.1.1 h.2.1.2 h.2.2

/-- The empty filesystem with a directory `a`. -/
def oneDir : Nodes :=
  Function.update fsInit 1
    { FsNode.zero with
      used := true
      isDir := true
      mode := fsDefaultDirMode
      name := kstrcpy FsNode.zero.name (lit "a") }

theorem oneDir_created : Created fsInit oneDir 1 0 ⟨lit "a", by decide, by decide⟩ true 0 fsDefaultDirMode :=
  withDir_created (t := fsInit) (n := 1) (by decide) (by rw [fsInit_other 1 (by decide)]; rfl) 0
    ⟨lit "a", by decide, by decide⟩

theorem oneDir_wellFormed : WellFormed oneDir :=
  oneDir_created.wellFormed wellFormed_fsInit wellFormed_fsInit.root_used wellFormed_fsInit.root_dir
    (findChild_fsInit (by decide))

theorem oneDir_path : AbsolutePath oneDir 1 (lit "/a") := by
  refine ⟨[1], .step (l := []) (by decide) (parentOf_eq_some.mpr oneDir_created.parent) .root, ?_⟩
  rw [if_neg (by decide), namesOf_cons, namesOf_nil, oneDir_created.name]
  rfl

/-- `"/a"` and its terminator take three bytes, and three are refused. -/
theorem fsMakePath_exact : ¬ SucceedsWhenFits oneDir 1 (lit "/a") 3 := by
  intro h
  obtain ⟨r, out, hx, hiff⟩ := h
  obtain ⟨x, hx', hstored⟩ := fsMakePath_stored oneDir_wellFormed oneDir_created.used oneDir_path 3
  have hroom : roomFor 1 (lit "/a") = 4 := by decide
  have hlen : (lit "/a").length = 2 := by decide
  rw [hx] at hx'
  cases hx'
  rw [hlen] at hiff
  rw [hroom] at hstored
  rcases hstored with ⟨_, _, hfits⟩ | ⟨hr, _⟩
  · omega
  · have hr' : r = -1 := hr
    omega

/-! ### Back again -/

/-- The names on the way down lead to the node. -/
theorem walk_namesOf {t : Nodes} (wf : WellFormed t)
    (hdots : ∀ i, (t i).used = true → cstr (t i).name ≠ lit "." ∧ cstr (t i).name ≠ lit "..")
    {n : NodeId} {l : List NodeId} (hl : Lineage (parentOf t) 0 n l) (hn : (t n).used = true) :
    walk (stepName t) 0 (namesOf t l) = some n := by
  induction hl with
  | root => rfl
  | @step i j l hi hp _ ih =>
    obtain ⟨p, hpar, hup, _⟩ := wf.parent i hn
    have hpj : j = p := by
      rw [parentOf_eq_some.mpr hpar] at hp
      exact (Option.some.inj hp).symm
    subst hpj
    obtain ⟨hdot, hdotdot⟩ := hdots i hn
    have hstep : stepName t j (cstr (t i).name) = some i := by
      unfold stepName
      rw [if_neg hdot, if_neg hdotdot, ← hpar]
      exact wf.findChild_self i hn hi
    have hsnoc : namesOf t (l ++ [i]) = namesOf t l ++ [cstr (t i).name] := by simp [namesOf]
    rw [hsnoc, Foundation.walk_append, ih hup, Option.bind_some, Foundation.walk_cons, hstep]
    rfl

theorem AbsolutePath.noNul {t : Nodes} {n : NodeId} {path : List UInt8} (h : AbsolutePath t n path) :
    0 ∉ path := by
  obtain ⟨l, _, rfl⟩ := h
  split
  · decide
  · intro hmem
    obtain ⟨name, hname, hchar⟩ := List.mem_flatMap.mp hmem
    obtain ⟨k, _, rfl⟩ := List.mem_map.mp hname
    rcases List.mem_cons.mp hchar with h0 | h0
    · exact absurd h0 (by decide)
    · exact cstr_noNul _ h0

/-- An absolute path leads to its node. -/
theorem AbsolutePath.resolve {t : Nodes} (wf : WellFormed t)
    (hdots : ∀ i, (t i).used = true → cstr (t i).name ≠ lit "." ∧ cstr (t i).name ≠ lit "..")
    {n : NodeId} (hn : (t n).used = true) {path : List UInt8} (h : AbsolutePath t n path) (c : NodeId) :
    path.head? = some slash ∧ FurOS.resolve t c path = some n := by
  obtain ⟨l, hl, rfl⟩ := h
  have hlive := hl.live wf.tree hn
  have hstart : (if l = [] then [slash] else spell slash (namesOf t l)).head? = some slash := by
    cases l with
    | nil => rfl
    | cons i l => rfl
  have hnames : components slash (if l = [] then [slash] else spell slash (namesOf t l)) = namesOf t l := by
    split
    · rename_i hnil
      rw [hnil]
      rfl
    · refine Foundation.components_spell slash fun block hb => ?_
      obtain ⟨k, hk, rfl⟩ := List.mem_map.mp hb
      have hk0 := (hl.of_mem hk).1
      exact ⟨wf.name_slash k (hlive k hk) hk0, wf.name_ne k (hlive k hk) hk0⟩
  refine ⟨hstart, ?_⟩
  unfold FurOS.resolve startOf
  rw [if_pos hstart, hnames]
  exact walk_namesOf wf hdots hl hn

/-- **What `fs_make_path` prints leads back to its node**, from wherever it is read. -/
theorem fsMakePath_resolve (t : Nodes) (wf : WellFormed t)
    (hdots : ∀ i, (t i).used = true → cstr (t i).name ≠ lit "." ∧ cstr (t i).name ≠ lit "..")
    (n : NodeId) (hn : (t n).used = true) (cap : Nat) (out : Written cap)
    (h : fsMakePath t (n.val : Int) cap = .ok (0, out)) :
    ∃ path : CStr, out.chars = path.chars ++ [0] ∧ path.chars.length < cap ∧
      ∀ cwd : Int, fsResolve t cwd path = .ok (n.val : Int) := by
  obtain ⟨path, hpath⟩ := wf.absolutePath hn
  obtain ⟨x, hx, hstored⟩ := fsMakePath_stored wf hn hpath cap
  rw [h] at hx
  cases hx
  rcases hstored with ⟨_, hch, hfits⟩ | ⟨hr, _⟩
  · obtain ⟨hhead, hres⟩ := hpath.resolve wf hdots hn 0
    refine ⟨⟨path, hpath.noNul⟩, hch, ?_, fun cwd => ?_⟩
    · have hlen := out.fits
      have hch' : out.chars = path ++ [0] := hch
      rw [hch', List.length_append, List.length_singleton] at hlen
      exact hlen
    · rw [fsResolve_absolute hhead]
      exact (fsResolve_eq_some wf.navigable wf.root_used).mpr hres
  · have hr' : (0 : Int) = -1 := hr
    omega

/-- A new node with another name than the two that paths treat apart. -/
theorem Created.no_dots {t t' : Nodes} {n p : NodeId} {leaf : Name} {dir : Bool} {owner mode : UInt16}
    (h : Created t t' n p leaf dir owner mode) (hleaf : leaf.chars ≠ lit "." ∧ leaf.chars ≠ lit "..")
    (hold : ∀ i, (t i).used = true → cstr (t i).name ≠ lit "." ∧ cstr (t i).name ≠ lit "..") (i : NodeId)
    (hi : (t' i).used = true) : cstr (t' i).name ≠ lit "." ∧ cstr (t' i).name ≠ lit ".." := by
  rcases (h.used_iff i).mp hi with hu | rfl
  · rw [h.old hu]
    exact hold i hu
  · rw [h.name]
    exact hleaf

theorem fsInit_names (i : NodeId) (hi : (fsInit i).used = true) :
    cstr (fsInit i).name ≠ lit "." ∧ cstr (fsInit i).name ≠ lit ".." := by
  rw [(fsInit_used i).mp hi, wellFormed_fsInit.root_name]
  decide

theorem oneDir_names (i : NodeId) (hi : (oneDir i).used = true) :
    cstr (oneDir i).name ≠ lit "." ∧ cstr (oneDir i).name ≠ lit ".." :=
  oneDir_created.no_dots (by decide) fsInit_names i hi

theorem fsMakePath_resolve_oneDir : ∃ out : Written 4, fsMakePath oneDir 1 4 = .ok (0, out) ∧
    ∃ path : CStr, out.chars = path.chars ++ [0] ∧ path.chars.length < 4 ∧
      ∀ cwd : Int, fsResolve oneDir cwd path = .ok 1 := by
  obtain ⟨⟨r, out⟩, hx, hstored⟩ := fsMakePath_stored oneDir_wellFormed oneDir_created.used oneDir_path 4
  have hroom : roomFor 1 (lit "/a") = 4 := by decide
  rw [hroom] at hstored
  rcases hstored with ⟨hr, _, _⟩ | ⟨_, hshort⟩
  · have hr' : r = 0 := hr
    subst hr'
    exact ⟨out, hx, fsMakePath_resolve oneDir oneDir_wellFormed oneDir_names 1 oneDir_created.used 4 out hx⟩
  · omega

end FurOS
