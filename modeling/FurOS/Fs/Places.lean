import FurOS.Fs.Tree

/-! Trees without modes.

A layout says what stands at each place but for the modes and the owners of files. A node table is laid out as
a layout when its used nodes stand at different places, each one name below its parent's, and are what the
layout says (`Laid`): then the layout is what the tree of the table comes to (`Laid.layout`). Such a table need
not be well-formed, as files can have children in it. A path is followed from place to place
(`Laid.resolve_map`), and making a directory or writing a file changes the layout at one place (`Laid.mkdir`,
`Laid.write`). -/
namespace FurOS
open Foundation (components walk)

inductive Entry where
  | dir (owner : UInt16)
  | file (bytes : List UInt8)

/-- What stands at a place, without its mode. -/
def Item.entry : Item → Entry
  | .dir owner _ => .dir owner
  | .file _ _ bytes => .file bytes

abbrev Layout := Place → Option Entry

def FileTree.layout (A : FileTree) : Layout := fun loc => (A loc).map Item.entry

def entryOf (n : FsNode) : Entry := if n.isDir then .dir n.owner else .file (contents n)

theorem entry_itemOf (n : FsNode) : (itemOf n).entry = entryOf n := by
  unfold itemOf entryOf
  cases n.isDir <;> rfl

theorem entryOf_eq_dir {n : FsNode} {owner : UInt16} :
    entryOf n = .dir owner ↔ n.isDir = true ∧ n.owner = owner := by
  unfold entryOf
  cases n.isDir <;> simp

namespace Layout

def has (L : Layout) (loc : Place) : Bool := (L loc).isSome

def isDirAt (L : Layout) (loc : Place) : Bool :=
  match L loc with
  | some (.dir _) => true
  | _ => false

end Layout

/-- The directory and the name that a new entry gets. -/
def parentPlace (L : Layout) (loc : Place) (path : List UInt8) : Option (Place × List UInt8) :=
  match lastSlash path with
  | none => if isValidName path then some (loc, path) else none
  | some pos =>
    (walk (enter L.has) (if path.head? = some slash then [] else loc)
      (components slash (path.take pos))).bind fun front =>
        if L.isDirAt front && isValidName (path.drop (pos + 1)) then some (front, path.drop (pos + 1))
        else none

namespace Layout

/-- A new directory, where nothing stands yet. -/
def mkdir (L : Layout) (loc : Place) (path : List UInt8) (owner : UInt16) : Layout :=
  match parentPlace L loc path with
  | none => L
  | some (front, leaf) =>
    if L.has (front ++ [leaf]) then L else Function.update L (front ++ [leaf]) (some (.dir owner))

/-- A file written, where no directory stands. -/
def put (L : Layout) (loc : Place) (bytes : List UInt8) : Layout :=
  if L.isDirAt loc then L
  else Function.update L loc (some (.file (bytes.take (clampSize bytes.length))))

theorem has_update {L : Layout} {loc : Place} (h : L.has loc = true) {new : Place} (e : Entry) :
    Layout.has (Function.update L new (some e)) loc = true := by
  by_cases he : loc = new
  · rw [has, he, Function.update_self]
    rfl
  · rwa [has, Function.update_of_ne he]

theorem isDirAt_of_dir {L : Layout} {loc : Place} {owner : UInt16} (h : L loc = some (.dir owner)) :
    L.isDirAt loc = true := by
  rw [isDirAt, h]

theorem isDirAt_file (L : Layout) (loc : Place) (bytes : List UInt8) :
    Layout.isDirAt (Function.update L loc (some (.file bytes))) loc = false := by
  rw [isDirAt, Function.update_self]

theorem isDirAt_of_not_has {L : Layout} {loc : Place} (h : L.has loc = false) : L.isDirAt loc = false := by
  rw [has, Option.isSome_eq_false_iff, Option.isNone_iff_eq_none] at h
  rw [isDirAt, h]

theorem has_of_isDirAt {L : Layout} {loc : Place} (h : L.isDirAt loc = true) : L.has loc = true := by
  by_contra hhas
  rw [isDirAt_of_not_has (by simpa using hhas)] at h
  cases h

theorem put_dir {L : Layout} {loc : Place} (h : L.isDirAt loc = true) (bytes : List UInt8) :
    L.put loc bytes = L := if_pos h

theorem put_file {L : Layout} {loc : Place} (h : L.isDirAt loc = false) (bytes : List UInt8) :
    L.put loc bytes = Function.update L loc (some (.file (bytes.take (clampSize bytes.length)))) :=
  if_neg (by simp [h])

instance : LawfulBEq Place := inferInstance

/-- Directories of root, and nothing else. -/
def directories (places : List Place) : Layout := fun loc => if loc ∈ places then some (.dir 0) else none

theorem has_directories (places : List Place) (loc : Place) :
    (directories places).has loc = decide (loc ∈ places) := by
  rw [has, directories]
  split
  · simpa
  · simpa

theorem isDirAt_directories {places : List Place} {loc : Place} (h : loc ∈ places) :
    (directories places).isDirAt loc = true := by
  rw [isDirAt, directories, if_pos h]

/-- A new directory changes nothing that stands already. -/
theorem mkdir_old {L : Layout} {loc : Place} (h : L.has loc = true) (cwd : Place) (path : List UInt8)
    (owner : UInt16) : L.mkdir cwd path owner loc = L loc := by
  unfold mkdir
  cases parentPlace L cwd path with
  | none => rfl
  | some x =>
    dsimp only
    by_cases hnew : L.has (x.1 ++ [x.2]) = true
    · rw [if_pos hnew]
    · rw [if_neg hnew, Function.update_of_ne]
      intro heq
      subst heq
      exact hnew h

/-- Files put one after another. -/
def putAll (L : Layout) (files : List (Place × List UInt8)) : Layout :=
  files.foldl (fun L x => L.put x.1 x.2) L

theorem isDirAt_put (L : Layout) (loc new : Place) (bytes : List UInt8) :
    (L.put new bytes).isDirAt loc = L.isDirAt loc := by
  cases hd : L.isDirAt new with
  | true => rw [put_dir hd]
  | false =>
    rw [put_file hd]
    by_cases he : loc = new
    · rw [he, isDirAt_file, hd]
    · rw [isDirAt, Function.update_of_ne he, isDirAt]

theorem put_other (L : Layout) {loc new : Place} (h : loc ≠ new) (bytes : List UInt8) :
    L.put new bytes loc = L loc := by
  cases hd : L.isDirAt new with
  | true => rw [put_dir hd]
  | false => rw [put_file hd, Function.update_of_ne h]

/-- A directory stays what it is. -/
theorem put_isDirAt {L : Layout} {loc : Place} (h : L.isDirAt loc = true) (new : Place)
    (bytes : List UInt8) : L.put new bytes loc = L loc := by
  by_cases he : loc = new
  · rw [← he, put_dir h]
  · exact put_other L he bytes

/-- Files become no directories, nor directories files. -/
theorem put_dir_iff {L : Layout} {loc new : Place} {bytes : List UInt8} {owner : UInt16} :
    L.put new bytes loc = some (.dir owner) ↔ L loc = some (.dir owner) := by
  cases hd : L.isDirAt new with
  | true => rw [put_dir hd]
  | false =>
    rw [put_file hd]
    by_cases he : loc = new
    · rw [he, Function.update_self]
      constructor
      · intro h
        cases h
      · intro h
        rw [isDirAt, h] at hd
        cases hd
    · rw [Function.update_of_ne he]

theorem has_put (L : Layout) (loc new : Place) (bytes : List UInt8) :
    (L.put new bytes).has loc = (L.has loc || decide (loc = new)) := by
  by_cases he : loc = new
  · cases hd : L.isDirAt new with
    | true =>
      rw [put_dir hd, he, has_of_isDirAt hd]
      rfl
    | false =>
      rw [put_file hd, he, has, Function.update_self]
      simp
  · rw [has, put_other L he, ← has]
    simp [he]

section PutAll
variable (L : Layout) (files : List (Place × List UInt8))

theorem putAll_isDirAt {loc : Place} (h : L.isDirAt loc = true) : L.putAll files loc = L loc := by
  induction files generalizing L with
  | nil => rfl
  | cons x rest ih => exact (ih (L.put x.1 x.2) (by rw [isDirAt_put, h])).trans (put_isDirAt h x.1 x.2)

theorem putAll_other {loc : Place} (h : ∀ x ∈ files, loc ≠ x.1) : L.putAll files loc = L loc := by
  induction files generalizing L with
  | nil => rfl
  | cons x rest ih =>
    exact (ih (L.put x.1 x.2) fun y hy => h y (List.mem_cons_of_mem _ hy)).trans
      (put_other L (h x List.mem_cons_self) x.2)

theorem putAll_dir_iff {loc : Place} {owner : UInt16} :
    L.putAll files loc = some (.dir owner) ↔ L loc = some (.dir owner) := by
  induction files generalizing L with
  | nil => exact Iff.rfl
  | cons x rest ih => exact (ih (L.put x.1 x.2)).trans put_dir_iff

theorem has_putAll (loc : Place) :
    (L.putAll files).has loc = (L.has loc || decide (loc ∈ files.map Prod.fst)) := by
  induction files generalizing L with
  | nil => simp [putAll]
  | cons x rest ih =>
    show ((L.put x.1 x.2).putAll rest).has loc = _
    rw [ih (L.put x.1 x.2), has_put]
    simp only [List.map_cons, List.mem_cons, Bool.decide_or, Bool.or_assoc]

/-- Each file holds what was put there, where no directory stood. -/
theorem putAll_mem (hd : (files.map Prod.fst).Nodup) {loc : Place} {bytes : List UInt8}
    (h : (loc, bytes) ∈ files) (hdir : L.isDirAt loc = false) :
    L.putAll files loc = some (.file (bytes.take (clampSize bytes.length))) := by
  induction files generalizing L with
  | nil => cases h
  | cons x rest ih =>
    rw [List.map_cons, List.nodup_cons] at hd
    show (L.put x.1 x.2).putAll rest loc = _
    rcases List.mem_cons.mp h with rfl | h
    · rw [putAll_other _ _ fun y hy he => hd.1 (List.mem_map.mpr ⟨y, hy, he.symm⟩), put_file hdir,
        Function.update_self]
    · exact ih (L.put x.1 x.2) hd.2 h (by rw [isDirAt_put, hdir])

end PutAll

end Layout

/-- More places lead on. -/
theorem walk_enter_mono {has has' : Place → Bool} (h : ∀ loc, has loc = true → has' loc = true) {loc d : Place}
    {names : List (List UInt8)} (hw : walk (enter has) loc names = some d) :
    walk (enter has') loc names = some d := by
  refine Foundation.walk_mono (P := fun _ => True) (fun c s d _ _ he => ⟨trivial, ?_⟩) trivial hw
  unfold enter at he ⊢
  split
  · rwa [if_pos ‹_›] at he
  rw [if_neg ‹_›] at he
  split
  · rwa [if_pos ‹_›] at he
  rw [if_neg ‹_›] at he
  split at he
  · rw [if_pos (h _ ‹_›), he]
  · cases he

theorem enter_name (has : Place → Bool) (loc : Place) {name : List UInt8} (hdot : name ≠ lit ".")
    (hdots : name ≠ lit "..") :
    enter has loc name = if has (loc ++ [name]) then some (loc ++ [name]) else none := by
  unfold enter
  rw [if_neg hdot, if_neg hdots]

/-- No place that a path leads to from the root has a component that stays or goes up. -/
theorem follow_no_dots {has : Place → Bool} {path : List UInt8} {loc : Place}
    (h : follow has [] path = some loc) : ∀ name ∈ loc, name ≠ lit "." ∧ name ≠ lit ".." := by
  unfold follow at h
  rw [ite_self] at h
  refine Foundation.walk_invariant
    (P := fun loc : Place => ∀ name ∈ loc, name ≠ lit "." ∧ name ≠ lit "..") (fun c s d hc he => ?_)
    (by simp) h
  unfold enter at he
  split at he
  · cases he
    exact hc
  · split at he
    · cases he
      exact fun name hn => hc name (List.dropLast_subset _ hn)
    · split at he
      · cases he
        intro name hn
        rcases List.mem_append.mp hn with hn | hn
        · exact hc name hn
        · rw [List.mem_singleton.mp hn]
          exact ⟨‹_›, ‹_›⟩
      · cases he

/-- A path whose last component is a name leads to that name below the directory, where there is one. -/
theorem parentPlace_follow {L : Layout} {loc front : Place} {path leaf : List UInt8}
    (h : parentPlace L loc path = some (front, leaf)) (hdot : leaf ≠ lit ".") (hdots : leaf ≠ lit "..")
    (has : Place → Bool) (hhas : ∀ loc, L.has loc = true → has loc = true) :
    follow has loc path = if has (front ++ [leaf]) then some (front ++ [leaf]) else none := by
  have hspec := lastSlash_spec path
  unfold parentPlace at h
  unfold follow
  cases hk : lastSlash path with
  | none =>
    rw [hk] at h hspec
    dsimp only at h hspec
    split at h
    · cases h
      rename_i hv
      have hhead : path.head? ≠ some slash := fun hh => hspec (List.mem_of_mem_head? hh)
      rw [if_neg hhead, Foundation.components_block slash hspec, if_neg ((isValidName_iff path).mp hv).1,
        Foundation.walk_cons, enter_name has loc hdot hdots]
      cases has (loc ++ [path]) <;> rfl
    · cases h
  | some pos =>
    rw [hk] at h hspec
    obtain ⟨_, hsplit, hno⟩ := hspec
    obtain ⟨q, hq, h⟩ := Option.bind_eq_some_iff.mp h
    split at h
    · cases h
      rename_i hv
      rw [Bool.and_eq_true] at hv
      have hcomp : components slash path =
          components slash (path.take pos) ++ [path.drop (pos + 1)] := by
        conv_lhs => rw [hsplit]
        rw [Foundation.components_append, Foundation.components_block slash hno,
          if_neg ((isValidName_iff _).mp hv.2).1]
      rw [hcomp, Foundation.walk_append, walk_enter_mono hhas hq, Option.bind_some,
        Foundation.walk_cons, enter_name has _ hdot hdots]
      cases has (front ++ [path.drop (pos + 1)]) <;> rfl
    · cases h

/-! ### The layout of a tree -/

namespace FileTree
variable (A : FileTree)

theorem has_layout : A.layout.has = A.has := funext fun _ => Option.isSome_map ..

theorem isDirAt_layout (loc : Place) : A.layout.isDirAt loc = A.isDirAt loc := by
  unfold Layout.isDirAt isDirAt layout
  cases A loc with
  | none => rfl
  | some item => cases item <;> rfl

/-- A path that `parent_path` has room for is split in the layout as in the tree. -/
theorem split_layout {path : List UInt8} (hl : path.length ≤ 128) (loc : Place) :
    A.split loc path = parentPlace A.layout loc path := by
  have hspec := lastSlash_spec path
  unfold split parentPlace
  cases hk : lastSlash path with
  | none => rfl
  | some pos =>
    rw [hk] at hspec
    obtain ⟨hlt, _, _⟩ := hspec
    dsimp only [Option.elim]
    rw [if_neg (by omega), has_layout]
    simp only [isDirAt_layout]

end FileTree

/-! ### Tables -/

/-- The table `t` is laid out as `L`, with every slot from the `k`-th on free. -/
structure Laid (t : Nodes) (place : NodeId → Place) (L : Layout) (k : Nat) : Prop where
  root_used : (t 0).used = true
  root_dir : (t 0).isDir = true
  root_name : cstr (t 0).name = lit "/"
  root_parent : (t 0).parent = 0
  root_place : place 0 = []
  below : ∀ i, (t i).used = true → i ≠ 0 → ∃ p : NodeId, (t i).parent.toInt = p.val ∧
    (t p).used = true ∧ place i = place p ++ [cstr (t i).name]
  name : ∀ i, (t i).used = true → i ≠ 0 → isValidName (cstr (t i).name) = true
  inj : ∀ i j, (t i).used = true → (t j).used = true → place i = place j → i = j
  entry : ∀ i, (t i).used = true → L (place i) = some (entryOf (t i))
  only : ∀ loc, L.has loc = true → ∃ i, (t i).used = true ∧ place i = loc
  free : ∀ i : NodeId, k ≤ i.val → (t i).used = false
  normal : ∀ i, Normal (t i)

namespace Laid
variable {t : Nodes} {place : NodeId → Place} {L : Layout} {k : Nat}

theorem has_place (h : Laid t place L k) {i : NodeId} (hi : (t i).used = true) :
    L.has (place i) = true := by
  rw [Layout.has, h.entry i hi]
  rfl

theorem navigable (h : Laid t place L k) : Navigable t where
  root_used := h.root_used
  parent i hi := by
    by_cases h0 : i = 0
    · subst h0
      exact ⟨0, by rw [h.root_parent]; rfl, h.root_used⟩
    · obtain ⟨p, hp, hu, _⟩ := h.below i hi h0
      exact ⟨p, hp, hu⟩
  name_le i hi := by
    by_cases h0 : i = 0
    · subst h0
      rw [h.root_name]
      decide
    · exact ((isValidName_iff _).mp (h.name i hi h0)).2.2

/-- A child of a used slot stands one name below it. -/
theorem findChild_map (h : Laid t place L k) {c : NodeId} (hc : (t c).used = true) (name : List UInt8)
    (hs : slash ∉ name) : (findChild t (c.val : Int) name).map place =
      if L.has (place c ++ [name]) then some (place c ++ [name]) else none := by
  have hroot : ∀ i, (t i).used = true → cstr (t i).name = name → i ≠ 0 := by
    intro i _ hn heq
    subst heq
    rw [h.root_name] at hn
    rw [← hn] at hs
    exact absurd hs (by decide)
  cases hf : findChild t (c.val : Int) name with
  | some i =>
    obtain ⟨hu, hp, hn⟩ := findChild_eq_some hf
    obtain ⟨p, hp', _, hplace⟩ := h.below i hu (hroot i hu hn)
    have hpc : p = c := by
      apply Fin.ext
      rw [hp] at hp'
      exact_mod_cast hp'.symm
    subst hpc
    rw [hn] at hplace
    rw [Option.map_some, if_pos (by rw [← hplace]; exact h.has_place hu), hplace]
  | none =>
    rw [Option.map_none, if_neg]
    intro hhas
    obtain ⟨i, hu, hplace⟩ := h.only _ hhas
    have h0 : i ≠ 0 := by
      intro heq
      subst heq
      rw [h.root_place] at hplace
      exact absurd hplace.symm (by simp)
    obtain ⟨p, hp, hup, hplace'⟩ := h.below i hu h0
    rw [hplace'] at hplace
    obtain ⟨hpp, hnn⟩ := List.append_inj' hplace rfl
    have hpc : p = c := h.inj p c hup hc hpp
    subst hpc
    exact findChild_eq_none.mp hf i hu hp (by simpa using hnn)

/-- Going down to the place of a slot leads to the slot, -/
theorem locate_place (h : Laid t place L k) {i : NodeId} (hi : (t i).used = true) : locate t (place i) = some i := by
  generalize hn : (place i).length = n
  induction n generalizing i with
  | zero =>
    have hroot : place i = place 0 := (List.eq_nil_of_length_eq_zero hn).trans h.root_place.symm
    rw [h.inj i 0 hi h.root_used hroot, h.root_place]
    exact locate_root t
  | succ n ih =>
    have h0 : i ≠ 0 := by
      intro heq
      subst heq
      rw [h.root_place] at hn
      cases hn
    obtain ⟨p, -, hup, hplace⟩ := h.below i hi h0
    have hs := ((isValidName_iff _).mp (h.name i hi h0)).2.1
    have hchild := h.findChild_map hup _ hs
    have hhas := h.has_place hi
    rw [hplace] at hhas hn
    rw [if_pos hhas, ← hplace] at hchild
    obtain ⟨j, hj, hsame⟩ := Option.map_eq_some_iff.mp hchild
    obtain rfl : j = i := h.inj j i (findChild_eq_some hj).1 hi hsame
    rw [hplace, locate_concat, ih hup (by simpa using hn), Option.bind_some]
    exact Option.filter_eq_some_iff.mpr ⟨hj, decide_eq_true h0⟩

/-- and no other place leads to it. -/
theorem place_of_locate (h : Laid t place L k) {loc : Place} {n : NodeId} (hn : locate t loc = some n) :
    (t n).used = true ∧ place n = loc := by
  induction loc using List.reverseRecOn generalizing n with
  | nil =>
    obtain rfl : (0 : NodeId) = n := Option.some.inj hn
    exact ⟨h.root_used, h.root_place⟩
  | append_singleton loc s ih =>
    rw [locate_concat] at hn
    obtain ⟨c, hc, hchild⟩ := Option.bind_eq_some_iff.mp hn
    obtain ⟨h0, hu, hparent, hname⟩ := childOf_eq_some hchild
    obtain ⟨p, hp, _, hplace⟩ := h.below n hu h0
    obtain rfl : p = c := Fin.ext (by rw [hp] at hparent; exact_mod_cast hparent)
    exact ⟨hu, by rw [hplace, (ih hc).2, hname]⟩

/-- **A table is laid out as its tree without the modes.** -/
theorem layout (h : Laid t place L k) : (treeOf t).layout = L := by
  funext loc
  unfold FileTree.layout treeOf
  cases hn : locate t loc with
  | some n =>
    obtain ⟨hu, hplace⟩ := h.place_of_locate hn
    rw [← hplace, h.entry n hu, ← entry_itemOf]
    rfl
  | none =>
    cases hL : L loc with
    | none => rfl
    | some e =>
      obtain ⟨i, hi, hplace⟩ := h.only loc (by rw [Layout.has, hL]; rfl)
      rw [← hplace, h.locate_place hi] at hn
      cases hn

/-- One component from a slot is one component from its place. -/
theorem enter_place (h : Laid t place L k) {c : NodeId} (hc : (t c).used = true) {name : List UInt8}
    (hs : slash ∉ name) : enter L.has (place c) name = (stepName t c name).map place := by
  unfold enter stepName
  by_cases hdot : name = lit "."
  · rw [if_pos hdot, if_pos hdot]
    rfl
  rw [if_neg hdot, if_neg hdot]
  by_cases hdots : name = lit ".."
  · rw [if_pos hdots, if_pos hdots]
    by_cases h0 : c = 0
    · subst h0
      rw [if_pos rfl, h.root_place, Option.map_some, h.root_place]
      rfl
    · obtain ⟨p, hp, _, hplace⟩ := h.below c hc h0
      rw [if_neg h0, parentOf_eq_some.mpr hp, hplace, List.dropLast_concat]
      rfl
  · rw [if_neg hdots, if_neg hdots, h.findChild_map hc _ hs]

theorem walk_place (h : Laid t place L k) {names : List (List UInt8)} (hs : ∀ name ∈ names, slash ∉ name)
    {c : NodeId} (hc : (t c).used = true) :
    walk (enter L.has) (place c) names = (walk (stepName t) c names).map place := by
  induction names generalizing c with
  | nil => rfl
  | cons name rest ih =>
    rw [Foundation.walk_cons, Foundation.walk_cons, h.enter_place hc (hs name List.mem_cons_self)]
    cases hstep : stepName t c name with
    | none => rfl
    | some d =>
      exact ih (fun name hn => hs name (List.mem_cons_of_mem _ hn)) (stepName_used h.navigable hc hstep)

theorem place_start (h : Laid t place L k) (c : NodeId) (path : List UInt8) :
    (if path.head? = some slash then [] else place c) = place (startOf c path) := by
  unfold startOf
  split
  · exact h.root_place.symm
  · rfl

theorem used_start (h : Laid t place L k) {c : NodeId} (hc : (t c).used = true) (path : List UInt8) :
    (t (startOf c path)).used = true := by
  unfold startOf
  split
  · exact h.root_used
  · exact hc

/-- **A path leads from place to place as it does from slot to slot.** -/
theorem resolve_map (h : Laid t place L k) {c : NodeId} (hc : (t c).used = true) (path : List UInt8) :
    (resolve t c path).map place = follow L.has (place c) path := by
  unfold follow resolve
  rw [h.place_start, h.walk_place (fun _ hn => (Foundation.no_sep_of_mem_components slash hn).1)
    (h.used_start hc path)]

/-- `fs_resolve` finds what stands where its path leads. -/
theorem fsResolve_some (h : Laid t place L k) {c : NodeId} (hc : (t c).used = true) (path : CStr)
    {loc : Place} (hf : follow L.has (place c) path.chars = some loc) :
    ∃ n : NodeId, fsResolve t (c.val : Int) path = .ok (n.val : Int) ∧ (t n).used = true ∧
      place n = loc := by
  rw [← h.resolve_map hc] at hf
  obtain ⟨n, hn, hplace⟩ := Option.map_eq_some_iff.mp hf
  exact ⟨n, by rw [fsResolve_eq h.navigable hc, hn, toC_some], resolve_used h.navigable hc hn, hplace⟩

theorem fsResolve_none (h : Laid t place L k) {c : NodeId} (hc : (t c).used = true) (path : CStr)
    (hf : follow L.has (place c) path.chars = none) : fsResolve t (c.val : Int) path = .ok (-1) := by
  rw [← h.resolve_map hc, Option.map_eq_none_iff] at hf
  rw [fsResolve_eq h.navigable hc, hf, toC_none]

theorem isDirAt_place (h : Laid t place L k) {i : NodeId} (hi : (t i).used = true) :
    L.isDirAt (place i) = (t i).isDir := by
  rw [Layout.isDirAt, h.entry i hi, entryOf]
  cases (t i).isDir <;> rfl

theorem validLeaf_map (place : NodeId → Place) (p : NodeId) (s : CStr) :
    ((validLeaf s).map fun leaf => (p, leaf)).map (fun x => (place x.1, x.2.chars)) =
      if isValidName s.chars then some (place p, s.chars) else none := by
  unfold validLeaf
  split
  · rfl
  · rfl

/-- A path is split into the same directory and name. -/
theorem parentNode_map (h : Laid t place L k) {c : NodeId} (hc : (t c).used = true) (path : CStr)
    (hl : path.chars.length ≤ 128) : (parentNode t c path).map (fun x => (place x.1, x.2.chars)) =
      parentPlace L (place c) path.chars := by
  have hspec := lastSlash_spec path.chars
  unfold parentNode parentPlace
  cases hk : lastSlash path.chars with
  | none => exact validLeaf_map place c path
  | some pos =>
    rw [hk] at hspec
    obtain ⟨hlt, _, _⟩ := hspec
    dsimp only
    rw [if_neg (by omega), h.place_start,
      h.walk_place (fun _ hn => (Foundation.no_sep_of_mem_components slash hn).1)
        (h.used_start hc path.chars)]
    cases hw : walk (stepName t) (startOf c path.chars) (components slash (path.chars.take pos)) with
    | none => rfl
    | some p =>
      have hp := walk_used h.navigable (h.used_start hc path.chars) hw
      rw [Option.bind_some, Option.map_some, Option.bind_some, h.isDirAt_place hp]
      cases (t p).isDir with
      | false => rfl
      | true =>
        rw [if_pos rfl, Bool.true_and]
        exact validLeaf_map place p (path.drop (pos + 1))

/-! ### One slot changed -/

/-- A used slot becomes another node of its name, its parent and its kind. -/
theorem update (h : Laid t place L k) {n : NodeId} (hn : (t n).used = true) {m : FsNode}
    (hu : m.used = true) (hd : m.isDir = (t n).isDir) (hp : m.parent = (t n).parent)
    (hname : cstr m.name = cstr (t n).name) (hm : Normal m) :
    Laid (Function.update t n m) place (Function.update L (place n) (some (entryOf m))) k := by
  have hused := update_field (t := t) FsNode.used (hu.trans hn.symm)
  have hdir := update_field (t := t) FsNode.isDir hd
  have hpar := update_field (t := t) FsNode.parent hp
  have hnam := update_field (t := t) (fun n => cstr n.name) hname
  refine
    { root_used := (hused 0).trans h.root_used
      root_dir := (hdir 0).trans h.root_dir
      root_name := (hnam 0).trans h.root_name
      root_parent := (hpar 0).trans h.root_parent
      root_place := h.root_place
      below := fun i hi h0 => ?_
      name := fun i hi h0 => ?_
      inj := fun i j hi hj => ?_
      entry := fun i hi => ?_
      only := fun loc hloc => ?_
      free := fun i hi => (hused i).trans (h.free i hi)
      normal := normal_update h.normal hm }
  · rw [hused] at hi
    obtain ⟨p, hp, hup, hplace⟩ := h.below i hi h0
    exact ⟨p, by rw [hpar, hp], by rw [hused, hup], by rw [hnam, hplace]⟩
  · rw [hused] at hi
    rw [hnam]
    exact h.name i hi h0
  · rw [hused] at hi hj
    exact h.inj i j hi hj
  · rw [hused] at hi
    by_cases hin : i = n
    · subst hin
      rw [Function.update_self, Function.update_self]
    · rw [Function.update_of_ne hin, Function.update_of_ne (fun he => hin (h.inj i n hi hn he)),
        h.entry i hi]
  · have hhas : L.has loc = true := by
      by_cases he : loc = place n
      · rw [he]
        exact h.has_place hn
      · rwa [Layout.has, Function.update_of_ne he] at hloc
    obtain ⟨i, hi, hplace⟩ := h.only loc hhas
    exact ⟨i, by rw [hused, hi], hplace⟩

/-- New bytes in a file. -/
theorem filled (h : Laid t place L k) {n : NodeId} (hn : (t n).used = true) (hd : (t n).isDir = false)
    (bytes : List UInt8) : Laid (Function.update t n (fillNode (t n) bytes)) place
      (L.put (place n) bytes) k := by
  have hentry : entryOf (fillNode (t n) bytes) = .file (bytes.take (clampSize bytes.length)) := by
    rw [← contents_fillNode (t n) bytes, entryOf, if_neg]
    show ¬ (t n).isDir = true
    simp [hd]
  have := h.update hn (m := fillNode (t n) bytes) hn rfl rfl rfl
    ⟨fillNode_contained _ _ (h.normal n).mode, (h.normal n).name⟩
  rwa [hentry, ← Layout.put_file (by rw [h.isDirAt_place hn, hd])] at this

/-- A free slot is found among the first. -/
theorem alloc (h : Laid t place L k) (hk : k < 128) :
    ∃ n t', allocNode t = some (n, t') ∧ n.val ≤ k := by
  have h0 : k ≠ 0 := by
    intro heq
    subst heq
    exact absurd (h.free 0 (Nat.zero_le _)) (by simp [h.root_used])
  have hfree := h.free ⟨k, hk⟩ (le_refl k)
  unfold allocNode
  cases hf : Fin.find? (fun i : NodeId => decide (i ≠ 0) && !(t i).used) with
  | none =>
    have := Fin.find?_eq_none_iff.mp hf ⟨k, hk⟩
    rw [hfree] at this
    simp [Fin.ext_iff, h0] at this
  | some n =>
    refine ⟨n, _, rfl, ?_⟩
    by_contra hlt
    have := (Fin.find?_eq_some_iff.mp hf).2 ⟨k, hk⟩ (by rw [Fin.lt_def]; simpa using hlt)
    rw [hfree] at this
    simp [Fin.ext_iff, h0] at this

/-- A new node stands below its directory. -/
theorem created (h : Laid t place L k) {t' : Nodes} {n p : NodeId} {leaf : Name} {dir : Bool}
    {owner mode : UInt16} (hcr : Created t t' n p leaf dir owner mode) (hp : (t p).used = true)
    (hnone : findChild t (p.val : Int) leaf.chars = none) (hn : n.val ≤ k) :
    Laid t' (Function.update place n (place p ++ [leaf.chars]))
      (Function.update L (place p ++ [leaf.chars]) (some (if dir then .dir owner else .file []))) (k + 1) := by
  have hnew : L.has (place p ++ [leaf.chars]) = false := by
    have := h.findChild_map hp _ leaf.no_slash
    rw [hnone] at this
    by_contra hhas
    rw [if_pos (by simpa using hhas)] at this
    cases this
  have hcases : ∀ i, (t' i).used = true → (i ≠ n ∧ (t i).used = true ∧ t' i = t i) ∨ i = n := by
    intro i hi
    by_cases hin : i = n
    · exact .inr hin
    · exact .inl ⟨hin, by rwa [hcr.other i hin] at hi, hcr.other i hin⟩
  have hne : ∀ i, (t i).used = true → i ≠ n ∧ place i ≠ place p ++ [leaf.chars] := by
    intro i hi
    refine ⟨?_, fun he => ?_⟩
    · intro heq
      subst heq
      rw [hcr.free] at hi
      cases hi
    · rw [← he, h.has_place hi] at hnew
      cases hnew
  have hplace : ∀ i, (t i).used = true → Function.update place n (place p ++ [leaf.chars]) i = place i :=
    fun i hi => Function.update_of_ne (hne i hi).1 _ _
  have h0 := hcr.old h.root_used
  have hentry : entryOf (t' n) = if dir then .dir owner else .file [] := by
    rw [entryOf, hcr.dir, hcr.owner, contents, hcr.size]
    rfl
  refine
    { root_used := by rw [h0, h.root_used]
      root_dir := by rw [h0, h.root_dir]
      root_name := by rw [h0, h.root_name]
      root_parent := by rw [h0, h.root_parent]
      root_place := by rw [hplace 0 h.root_used, h.root_place]
      below := fun i hi hi0 => ?_
      name := fun i hi hi0 => ?_
      inj := fun i j hi hj he => ?_
      entry := fun i hi => ?_
      only := fun loc hloc => ?_
      free := fun i hi => ?_
      normal := hcr.normal h.normal }
  · rcases hcases i hi with ⟨_, hu, he⟩ | rfl
    · obtain ⟨q, hq, huq, hbelow⟩ := h.below i hu hi0
      exact ⟨q, by rw [he, hq], by rw [hcr.old huq, huq], by rw [hplace i hu, hplace q huq, he, hbelow]⟩
    · exact ⟨p, hcr.parent, by rw [hcr.old hp, hp], by
        rw [Function.update_self, hplace p hp, hcr.name]⟩
  · rcases hcases i hi with ⟨_, hu, he⟩ | rfl
    · rw [he]
      exact h.name i hu hi0
    · rw [hcr.name]
      exact leaf.valid
  · rcases hcases i hi with ⟨_, hui, _⟩ | rfl
    · rcases hcases j hj with ⟨_, huj, _⟩ | rfl
      · rw [hplace i hui, hplace j huj] at he
        exact h.inj i j hui huj he
      · rw [hplace i hui, Function.update_self] at he
        exact absurd he (hne i hui).2
    · rcases hcases j hj with ⟨_, huj, _⟩ | rfl
      · rw [hplace j huj, Function.update_self] at he
        exact absurd he.symm (hne j huj).2
      · rfl
  · rcases hcases i hi with ⟨_, hu, he⟩ | rfl
    · rw [hplace i hu, Function.update_of_ne (hne i hu).2, he, h.entry i hu]
    · rw [Function.update_self, Function.update_self, hentry]
  · by_cases he : loc = place p ++ [leaf.chars]
    · exact ⟨n, hcr.used, by rw [Function.update_self, he]⟩
    · rw [Layout.has, Function.update_of_ne he] at hloc
      obtain ⟨i, hi, hpl⟩ := h.only loc hloc
      exact ⟨i, by rw [hcr.old hi, hi], by rw [hplace i hi, hpl]⟩
  · have hin : i ≠ n := by
      intro heq
      subst heq
      omega
    rw [hcr.other i hin]
    exact h.free i (by omega)

theorem mono (h : Laid t place L k) {k' : Nat} (hk : k ≤ k') : Laid t place L k' :=
  {h with free := fun i hi => h.free i (le_trans hk hi)}

/-! ### The operations -/

/-- **`fs_mkdir_as` makes a directory in the layout.** -/
theorem mkdir (h : Laid t place L k) (hk : k < 128) {c : NodeId} (hc : (t c).used = true) (path : CStr)
    (hl : path.chars.length ≤ 128) (owner mode : UInt16) :
    ∃ r t' place', fsMkdirAs t (c.val : Int) path owner mode = .ok (r, t') ∧
      Laid t' place' (L.mkdir (place c) path.chars owner) (k + 1) := by
  rw [fsMkdirAs_eq]
  unfold create Layout.mkdir
  rw [resolveParentAndLeaf_eq h.navigable hc, Foundation.ok_bind, ← h.parentNode_map hc path hl]
  cases hpar : parentNode t c path with
  | none => exact ⟨-1, t, place, rfl, h.mono (Nat.le_succ k)⟩
  | some x =>
    obtain ⟨p, leaf⟩ := x
    have hp := (parentNode_front h.navigable hc hpar).1
    have hchild := h.findChild_map hp _ leaf.no_slash
    dsimp only [Option.map_some]
    cases hf : findChild t (p.val : Int) leaf.chars with
    | some e =>
      refine ⟨_, t, place, rfl, ?_⟩
      rw [hf] at hchild
      split at hchild
      · rw [if_pos ‹_›]
        exact h.mono (Nat.le_succ k)
      · cases hchild
    | none =>
      obtain ⟨n, t₁, ha, hn⟩ := h.alloc hk
      rw [hf] at hchild
      rw [ha]
      refine ⟨0, _, Function.update place n (place p ++ [leaf.chars]), rfl, ?_⟩
      have hcr := created_of_alloc p leaf (dirNode_makes owner mode) ha
      split at hchild
      · cases hchild
      · rw [if_neg ‹_›]
        exact h.created hcr hp hf hn

/-- A new empty file. -/
theorem touch (h : Laid t place L k) (hk : k < 128) {c p : NodeId} (hc : (t c).used = true) {path : CStr}
    {leaf : Name} (hpar : parentNode t c path = some (p, leaf))
    (hf : findChild t (p.val : Int) leaf.chars = none) :
    ∃ n t' place', fsTouch t (c.val : Int) path = .ok (0, t') ∧ (t' n).isDir = false ∧
      (t' n).used = true ∧ (t' c).used = true ∧ place' n = place p ++ [leaf.chars] ∧
      place' c = place c ∧
      Laid t' place' (Function.update L (place p ++ [leaf.chars]) (some (.file []))) (k + 1) := by
  obtain ⟨n, t₁, ha, hn⟩ := h.alloc hk
  have hp := (parentNode_front h.navigable hc hpar).1
  have hcr := created_of_alloc p leaf (fileNode_makes 0 fsDefaultFileMode) ha
  have hcn : c ≠ n := by
    intro heq
    subst heq
    rw [hcr.free] at hc
    cases hc
  refine ⟨n, _, _, ?_, hcr.dir, hcr.used, (hcr.used_iff c).mpr (.inl hc), Function.update_self ..,
    Function.update_of_ne hcn _ _, h.created hcr hp hf hn⟩
  unfold fsTouch
  rw [fsTouchAs_eq, create, resolveParentAndLeaf_eq h.navigable hc, Foundation.ok_bind, hpar]
  dsimp only [Option.map_some]
  rw [hf, ha]
  rfl

/-- **`fs_write_file` puts a file in the layout**, at a path whose last component is a name. -/
theorem write (h : Laid t place L k) (hk : k < 128) {c : NodeId} (hc : (t c).used = true) (path : CStr)
    (hl : path.chars.length ≤ 128) {front : Place} {leaf : List UInt8}
    (hpar : parentPlace L (place c) path.chars = some (front, leaf)) (hdot : leaf ≠ lit ".")
    (hdots : leaf ≠ lit "..") (bytes : List UInt8) :
    ∃ r t' place', fsWriteFile t (c.val : Int) path (some bytes) bytes.length = .ok (r, t') ∧
      Laid t' place' (L.put (front ++ [leaf]) bytes) (k + 1) := by
  have hres := h.resolve_map hc path.chars
  rw [parentPlace_follow hpar hdot hdots L.has fun _ h => h] at hres
  unfold fsWriteFile
  rw [fsResolve_eq h.navigable hc, Foundation.ok_bind]
  cases hr : resolve t c path.chars with
  | some n =>
    rw [hr, Option.map_some] at hres
    split at hres
    · have hplace : place n = front ++ [leaf] := by simpa using hres
      have hn := resolve_used h.navigable hc hr
      have hdirAt := h.isDirAt_place hn
      rw [toC_some, if_neg (by omega), ← hplace]
      cases hd : (t n).isDir with
      | true =>
        rw [hd] at hdirAt
        refine ⟨-1, t, place, writeNode_dir t n hd _ _, ?_⟩
        rw [Layout.put_dir hdirAt]
        exact h.mono (Nat.le_succ k)
      | false => exact ⟨0, _, place, writeNode_file t n hd bytes, (h.filled hn hd bytes).mono (Nat.le_succ k)⟩
    · cases hres
  | none =>
    have hparent := h.parentNode_map hc path hl
    rw [hpar] at hparent
    obtain ⟨⟨p, name⟩, hnode, heq⟩ := Option.map_eq_some_iff.mp hparent
    cases heq
    have hp := (parentNode_front h.navigable hc hnode).1
    have hnew : L.has (place p ++ [name.chars]) = false := by
      by_contra hhas
      rw [hr, if_pos (by simpa using hhas)] at hres
      cases hres
    have hf : findChild t (p.val : Int) name.chars = none := by
      have hchild := h.findChild_map hp _ name.no_slash
      rw [hnew, if_neg (by decide)] at hchild
      exact Option.map_eq_none_iff.mp hchild
    obtain ⟨n, t', place', ht, hdir, hu, hu', hplace, hcwd, h'⟩ := h.touch hk hc hnode hf
    -- the path now leads to the new file
    have hres' : resolve t' c path.chars = some n := by
      have hmap := h'.resolve_map hu' path.chars
      have hhas := h'.has_place hu
      rw [hplace] at hhas
      rw [hcwd, parentPlace_follow hpar hdot hdots _ fun loc hloc => Layout.has_update hloc _,
        if_pos hhas] at hmap
      obtain ⟨m, hm, hplace'⟩ := Option.map_eq_some_iff.mp hmap
      rw [hm, h'.inj m n (resolve_used h'.navigable hu' hm) hu (hplace'.trans hplace.symm)]
    rw [toC_none, if_pos (by decide), ht, Foundation.ok_bind]
    dsimp only
    rw [if_neg (by decide), fsResolve_eq h'.navigable hu', Foundation.ok_bind, hres', toC_some]
    refine ⟨0, _, place', writeNode_file t' n hdir bytes, ?_⟩
    have hfilled := h'.filled hu hdir bytes
    rw [hplace, Layout.put_file (Layout.isDirAt_file L _ []), Function.update_idem] at hfilled
    rwa [Layout.put_file (Layout.isDirAt_of_not_has hnew)]

end Laid

end FurOS
