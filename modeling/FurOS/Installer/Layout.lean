import FurOS.Fs.Places
import FurOS.Installer.Install

/-! What the installation lays out.

The seven directories of the root do not depend on what was typed. The user's directory
goes where the username, read as a path from `/home`, says; the six files of `/etc` go
where no directory stands by then, and `.bashrc` goes wherever that path leads. -/
namespace FurOS.Installer
open Foundation (components walk)

def homePlace : Place := [lit "home"]

def etcPlace : Place := [lit "etc"]

/-- The root and the seven directories. -/
def standardPlaces : List Place := [] :: rootDirs.map fun x => [(CStr.ofLit x.1).chars]

/-- What `etc/NAME` names. -/
def etcName (path : String) : List UInt8 := (CStr.ofLit path).chars.drop 4

/-- The files of `/etc`. -/
def configPlaces (w : Wiz) : List (Place × List UInt8) :=
  (configTexts w).map fun x => (etcPlace ++ [etcName x.1], x.2)

/-- After the directories and the files of `/etc`. -/
def configLayout (w : Wiz) : Layout :=
  ((Layout.directories standardPlaces).mkdir homePlace w.username.chars 1000).putAll (configPlaces w)

def installedLayout (w : Wiz) : Layout :=
  match follow (configLayout w).has homePlace w.username.chars with
  | none => configLayout w
  | some loc => (configLayout w).put (loc ++ [lit ".bashrc"]) (lit bashrc)

/-! ### Directories -/

theorem laid_fsInit : Laid fsInit (fun _ => []) (Layout.directories [[]]) 1 := by
  have hroot : ∀ i, (fsInit i).used = true → i = 0 := fun i => (fsInit_used i).mp
  refine
    { root_used := wellFormed_fsInit.root_used
      root_dir := wellFormed_fsInit.root_dir
      root_name := wellFormed_fsInit.root_name
      root_parent := wellFormed_fsInit.root_parent
      root_place := rfl
      below := fun i hi h0 => absurd (hroot i hi) h0
      name := fun i hi h0 => absurd (hroot i hi) h0
      inj := fun i j hi hj _ => (hroot i hi).trans (hroot j hj).symm
      entry := fun i hi => ?_
      only := fun loc hloc => ?_
      free := fun i hi => ?_
      normal := normal_fsInit }
  · rw [hroot i hi, fsInit_root]
    rfl
  · rw [Layout.has_directories] at hloc
    exact ⟨0, wellFormed_fsInit.root_used, (List.mem_singleton.mp (of_decide_eq_true hloc)).symm⟩
  · rw [fsInit_other i (by rintro rfl; exact absurd hi (by decide))]
    rfl

/-- A directory of the root, new or not. -/
theorem directories_mkdir (places : List Place) {name : List UInt8} (hv : isValidName name = true) :
    (Layout.directories places).mkdir [] name 0 = Layout.directories (places ++ [[name]]) := by
  have hslash := ((isValidName_iff name).mp hv).2.1
  have hpar : parentPlace (Layout.directories places) [] name = some ([], name) := by
    have hspec := lastSlash_spec name
    unfold parentPlace
    cases hk : lastSlash name with
    | none => rw [if_pos hv]
    | some k =>
      rw [hk] at hspec
      rw [hspec.2.1] at hslash
      exact absurd (List.mem_append_right _ List.mem_cons_self) hslash
  funext loc
  unfold Layout.mkdir
  rw [hpar]
  dsimp only [List.nil_append]
  have hhas := Layout.has_directories places [name]
  by_cases hmem : [name] ∈ places
  · rw [if_pos (by rw [hhas, decide_eq_true hmem])]
    unfold Layout.directories
    by_cases he : loc = [name]
    · simp [he, hmem]
    · simp [he]
  · rw [if_neg (by rw [hhas, decide_eq_false hmem]; decide)]
    by_cases he : loc = [name]
    · rw [he, Function.update_self]
      simp [Layout.directories]
    · rw [Function.update_of_ne he]
      simp [Layout.directories, he]

/-- Directories of the root are made one after another. -/
theorem makeDirs_laid (dirs : List (String × UInt16))
    (hdirs : ∀ x ∈ dirs, isValidName (CStr.ofLit x.1).chars = true) {t : Nodes} {place : NodeId → Place}
    {places : List Place} {k : Nat} (h : Laid t place (Layout.directories places) k)
    (hk : k + dirs.length ≤ 128) : ∃ t' place', makeDirs t dirs = .ok t' ∧
      Laid t' place' (Layout.directories (places ++ dirs.map fun x => [(CStr.ofLit x.1).chars]))
        (k + dirs.length) := by
  induction dirs generalizing t place places k with
  | nil => exact ⟨t, place, rfl, by simpa using h⟩
  | cons x rest ih =>
    rw [List.length_cons] at hk
    have hv := hdirs x List.mem_cons_self
    have hlen := ((isValidName_iff _).mp hv).2.2
    obtain ⟨r, t₁, place₁, ht₁, h₁⟩ := h.mkdir (by omega) h.root_used (.ofLit x.1) (by omega) 0 x.2
    rw [h.root_place, directories_mkdir places hv] at h₁
    obtain ⟨t', place', ht', h'⟩ := ih (fun y hy => hdirs y (List.mem_cons_of_mem _ hy)) h₁ (by omega)
    refine ⟨t', place', ?_, ?_⟩
    · show (makeDir t fsGetRoot (.ofLit x.1) 0 x.2 >>= fun t => makeDirs t rest) = _
      have hmake : makeDir t fsGetRoot (.ofLit x.1) 0 x.2 = .ok t₁ := by
        show (fsMkdirAs t ((0 : NodeId).val : Int) (.ofLit x.1) 0 x.2 >>= _) = _
        rw [ht₁]
        rfl
      rw [hmake, Foundation.ok_bind, ht']
    · rw [List.length_cons, List.map_cons, ← List.singleton_append, ← List.append_assoc]
      rwa [Nat.add_right_comm] at h'

/-! ### Files of `/etc` -/

/-- A path `etc/NAME`. -/
structure EtcPath (path : CStr) : Prop where
  split : lastSlash path.chars = some 3
  front : components slash (path.chars.take 3) = [lit "etc"]
  valid : isValidName (path.chars.drop 4) = true
  dot : path.chars.drop 4 ≠ lit "."
  dots : path.chars.drop 4 ≠ lit ".."
  short : path.chars.length ≤ 128

theorem configTexts_paths (w : Wiz) (x : String × List UInt8) (hx : x ∈ configTexts w) :
    EtcPath (.ofLit x.1) := by
  have hall : ∀ p ∈ ["etc/hostname", "etc/timezone", "etc/os-release", "etc/passwd", "etc/group",
      "etc/motd"], EtcPath (.ofLit p) := by
    intro p hp
    simp only [List.mem_cons, List.not_mem_nil, or_false] at hp
    rcases hp with rfl | rfl | rfl | rfl | rfl | rfl <;>
      exact ⟨by decide, by decide, by decide, by decide,
        by decide, by decide⟩
  refine hall x.1 ?_
  have := List.mem_map_of_mem (f := Prod.fst) hx
  exact this

theorem EtcPath.parentPlace {path : CStr} (h : EtcPath path) {L : Layout}
    (hetc : L.isDirAt etcPlace = true) :
    parentPlace L [] path.chars = some (etcPlace, path.chars.drop 4) := by
  have hhas : L.has ([] ++ [lit "etc"]) = true := Layout.has_of_isDirAt hetc
  unfold FurOS.parentPlace
  rw [h.split]
  dsimp only
  rw [h.front, ite_self, Foundation.walk_cons, enter_name _ _ (by decide) (by decide), if_pos hhas]
  show (if L.isDirAt etcPlace && isValidName (path.chars.drop 4) then _ else _) = _
  rw [hetc, h.valid]
  rfl

theorem writeTexts_laid {texts : List (String × List UInt8)}
    (hpaths : ∀ x ∈ texts, EtcPath (.ofLit x.1)) {t : Nodes} {place : NodeId → Place} {L : Layout}
    {k : Nat} (h : Laid t place L k) (hk : k + texts.length ≤ 128) (hetc : L.isDirAt etcPlace = true) :
    ∃ t' place', writeTexts t texts = .ok t' ∧
      Laid t' place' (L.putAll (texts.map fun x => (etcPlace ++ [etcName x.1], x.2))) (k + texts.length) := by
  induction texts generalizing t place L k with
  | nil => exact ⟨t, place, rfl, h⟩
  | cons x rest ih =>
    rw [List.length_cons] at hk
    have hp := hpaths x List.mem_cons_self
    have hpar := hp.parentPlace hetc
    rw [← h.root_place] at hpar
    obtain ⟨r, t₁, place₁, ht₁, h₁⟩ :=
      h.write (by omega) h.root_used (.ofLit x.1) hp.short hpar hp.dot hp.dots x.2
    obtain ⟨t', place', ht', h'⟩ := ih (fun y hy => hpaths y (List.mem_cons_of_mem _ hy)) h₁ (by omega)
      (by rw [Layout.isDirAt_put, hetc])
    refine ⟨t', place', ?_, by rwa [Nat.add_right_comm] at h'⟩
    have hwrite : writeText t fsGetRoot x.1 x.2 = .ok t₁ := by
      show (fsWriteFile t ((0 : NodeId).val : Int) (.ofLit x.1) (some x.2) x.2.length >>= _) = _
      rw [ht₁]
      rfl
    show (writeText t fsGetRoot x.1 x.2 >>= fun t => writeTexts t rest) = _
    rw [hwrite, Foundation.ok_bind, ht']

/-! ### The whole tree -/

/-- The standard directories stay what they are. -/
theorem mkdir_standard {loc : Place} (h : loc ∈ standardPlaces) (path : List UInt8) (owner : UInt16) :
    (Layout.directories standardPlaces).mkdir homePlace path owner loc = some (.dir 0) := by
  have hhas := Layout.has_of_isDirAt (Layout.isDirAt_directories h)
  rw [Layout.mkdir_old hhas, Layout.directories, if_pos h]

theorem isDirAt_standard {loc : Place} (h : loc ∈ standardPlaces) (path : List UInt8) (owner : UInt16) :
    ((Layout.directories standardPlaces).mkdir homePlace path owner).isDirAt loc = true := by
  rw [Layout.isDirAt, mkdir_standard h]

theorem configLayout_standard (w : Wiz) {loc : Place} (h : loc ∈ standardPlaces) :
    configLayout w loc = some (.dir 0) := by
  rw [configLayout, Layout.putAll_isDirAt _ _ (isDirAt_standard h _ _), mkdir_standard h]

theorem home_mem : homePlace ∈ standardPlaces := by decide

theorem etc_mem : etcPlace ∈ standardPlaces := by decide

/-- `home` is found wherever it is a directory. -/
theorem fsResolve_home {t : Nodes} {place : NodeId → Place} {L : Layout} {k : Nat} (h : Laid t place L k)
    (hhome : L.has homePlace = true) : ∃ n : NodeId, fsResolve t fsGetRoot (.ofLit "home") = .ok (n.val : Int) ∧
      (t n).used = true ∧ place n = homePlace := by
  refine h.fsResolve_some h.root_used _ ?_
  have hhome : L.has ([] ++ [lit "home"]) = true := hhome
  have hcomp : components slash (CStr.ofLit "home").chars = [lit "home"] := by decide
  rw [h.root_place]
  unfold follow
  rw [ite_self, hcomp, Foundation.walk_cons, enter_name _ _ (by decide) (by decide), if_pos hhome]
  rfl

theorem installDirs_laid (w : Wiz) : ∃ t place, installDirs w fsInit = .ok t ∧
    Laid t place ((Layout.directories standardPlaces).mkdir homePlace w.username.chars 1000) 9 := by
  have hfits := w.username.fits
  obtain ⟨t₁, place₁, ht₁, h₁⟩ := makeDirs_laid rootDirs (by decide) laid_fsInit (by decide)
  have hstandard := Layout.has_of_isDirAt (Layout.isDirAt_directories home_mem)
  obtain ⟨home, hhome, hu, hplace⟩ := fsResolve_home h₁ hstandard
  obtain ⟨r, t₂, place₂, ht₂, h₂⟩ := h₁.mkdir (by decide) hu w.username.str
    (by show w.username.chars.length ≤ 128; omega) 1000 0o755
  rw [hplace] at h₂
  refine ⟨t₂, place₂, ?_, h₂⟩
  have hmake : makeDir t₁ home.val w.username.str 1000 0o755 = .ok t₂ := by
    show (fsMkdirAs t₁ _ _ _ _ >>= _) = _
    rw [ht₂]
    rfl
  rw [installDirs, installDirsOf, ht₁, Foundation.ok_bind, hhome, Foundation.ok_bind, if_pos (by omega), hmake]

/-- **The tree that the installation makes is laid out as `installedLayout`**, whatever was typed. -/
theorem installTree_laid (w : Wiz) : ∃ t place, installTree w fsInit = .ok t ∧
    Laid t place (installedLayout w) 16 := by
  have hfits := w.username.fits
  obtain ⟨t₁, place₁, ht₁, h₁⟩ := installDirs_laid w
  obtain ⟨t₂, place₂, ht₂, h₂⟩ :=
    writeTexts_laid (configTexts_paths w) h₁ (by show 9 + 6 ≤ 128; decide) (isDirAt_standard etc_mem _ _)
  have h₂ : Laid t₂ place₂ (configLayout w) 15 := h₂
  have hstandard : (configLayout w).has homePlace = true := by
    rw [Layout.has, configLayout_standard w home_mem]
    rfl
  obtain ⟨home, hhome, hu, hplace⟩ := fsResolve_home h₂ hstandard
  rw [installTree, ht₁, Foundation.ok_bind, installConfig, ht₂, Foundation.ok_bind, installBashrc, bashrcOf, hhome,
    Foundation.ok_bind, if_pos (by omega)]
  unfold installedLayout
  cases hf : follow (configLayout w).has homePlace w.username.chars with
  | none =>
    rw [← hplace] at hf
    rw [h₂.fsResolve_none hu w.username.str hf]
    exact ⟨t₂, place₂, rfl, h₂.mono (by decide)⟩
  | some loc =>
    rw [← hplace] at hf
    obtain ⟨hn, hres, hun, hplacen⟩ := h₂.fsResolve_some hu w.username.str hf
    have hpar : parentPlace (configLayout w) (place₂ hn) (CStr.ofLit ".bashrc").chars =
        some (loc, lit ".bashrc") := by
      rw [hplacen]
      rfl
    obtain ⟨r, t₃, place₃, ht₃, h₃⟩ :=
      h₂.write (by decide) hun (.ofLit ".bashrc") (by decide) hpar (by decide) (by decide) (lit bashrc)
    refine ⟨t₃, place₃, ?_, h₃⟩
    have hwrite : writeText t₂ hn.val ".bashrc" (lit bashrc) = .ok t₃ := by
      show (fsWriteFile t₂ _ _ _ _ >>= _) = _
      rw [ht₃]
      rfl
    rw [hres, Foundation.ok_bind, if_pos (by omega), hwrite]

end FurOS.Installer
