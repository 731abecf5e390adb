import FurOS.Disk.Persistence
import FurOS.Disk.Steady
import FurOS.Installer.Layout
import FurOS.Installer.Ready

/-! What is loaded after an installation.

Every name that can be typed installs something that loads. It is the system that was
asked for when the line of `/etc/passwd` fits its array and the path `/home/USERNAME` leads
to the directory that was made for it (`HomeFound`): of the usernames without a `'/'`, all
but `".."`. -/
namespace FurOS.Installer
open Foundation (components walk)

/-! ### What the lines hold -/

theorem appendUpTo_full {line src : List UInt8} (h : line.length + src.length ≤ 120) :
    appendUpTo line src = line ++ src := by
  rw [appendUpTo, List.take_of_length_le (by omega)]

theorem appendUpTo_length {line : List UInt8} (h : line.length ≤ 120) (src : List UInt8) :
    (appendUpTo line src).length ≤ 120 := appendUpTo_le h (Nat.le_refl 120) src

/-- The lines of `/etc/passwd` that the installation means to write. -/
def passwdText (username : List UInt8) : List UInt8 :=
  lit "root:x:0:0:root:/root:/bin/sh\n" ++ username ++ lit ":x:1000:1000::/home/" ++ username ++
    lit ":/bin/sh\n"

def groupText (username : List UInt8) : List UInt8 :=
  lit "root:x:0:\n" ++ lit "sudo:x:27:" ++ username ++ lit "\n" ++ username ++ lit ":x:1000:\n"

/-- The last character does not fit where the username has 31. -/
theorem passwdLine_eq_iff (w : Wiz) :
    passwdLine w = passwdText w.username.chars ↔ w.username.chars.length ≤ 30 := by
  have hfits := w.username.fits
  have hroot : (lit "root:x:0:0:root:/root:/bin/sh\n").length = 30 := by decide
  have hids : (lit ":x:1000:1000::/home/").length = 20 := by decide
  have hshell : (lit ":/bin/sh\n").length = 9 := by decide
  have huser : appendUpTo (lit "root:x:0:0:root:/root:/bin/sh\n") w.username.chars = _ :=
    appendUpTo_full (by rw [hroot]; omega)
  have hhome : appendUpTo (lit "root:x:0:0:root:/root:/bin/sh\n" ++ w.username.chars)
      (lit ":x:1000:1000::/home/") = _ :=
    appendUpTo_full (by rw [List.length_append, hroot, hids]; omega)
  have huser' : appendUpTo (lit "root:x:0:0:root:/root:/bin/sh\n" ++ w.username.chars ++
      lit ":x:1000:1000::/home/") w.username.chars = _ :=
    appendUpTo_full (by rw [List.length_append, List.length_append, hroot, hids]; omega)
  unfold passwdLine passwdLineOf passwdText
  dsimp only
  rw [huser, hhome, huser']
  constructor
  · intro h
    have hlen := congrArg List.length h
    simp only [appendUpTo, List.length_append, List.length_take, hroot, hids, hshell] at hlen
    omega
  · intro h
    exact appendUpTo_full (by simp only [List.length_append, hroot, hids, hshell]; omega)

theorem groupLine_eq (w : Wiz) : groupLine w = groupText w.username.chars := by
  have hfits := w.username.fits
  have hhead : (lit "root:x:0:\nsudo:x:27:").length = 20 := by decide
  have htail : (lit ":x:1000:\n").length = 9 := by decide
  have hsplit : lit "root:x:0:\nsudo:x:27:" = lit "root:x:0:\n" ++ lit "sudo:x:27:" := by decide
  have hnewline : [10] = lit "\n" := by decide
  have hsudo : appendUpTo [] (lit "root:x:0:\nsudo:x:27:") = lit "root:x:0:\nsudo:x:27:" :=
    appendUpTo_full (by rw [hhead]; decide)
  have huser : appendUpTo (lit "root:x:0:\nsudo:x:27:") w.username.chars = _ :=
    appendUpTo_full (by rw [hhead]; omega)
  have huser' : appendUpTo (lit "root:x:0:\nsudo:x:27:" ++ w.username.chars ++ [10]) w.username.chars = _ :=
    appendUpTo_full (by simp only [List.length_append, List.length_singleton, hhead]; omega)
  unfold groupLine groupLineOf groupText
  dsimp only
  rw [hsudo, huser, huser',
    appendUpTo_full (by simp only [List.length_append, List.length_singleton, hhead, htail]; omega),
    hsplit, hnewline]

theorem passwdLine_length (w : Wiz) : (passwdLine w).length ≤ 120 :=
  appendUpTo_length (appendUpTo_length (appendUpTo_length (appendUpTo_length (by decide) _) _) _) _

theorem groupLine_length (w : Wiz) : (groupLine w).length ≤ 120 := by
  have hfits := w.username.fits
  have hhead : (lit "root:x:0:\nsudo:x:27:").length = 20 := by decide
  refine appendUpTo_length (appendUpTo_length ?_ _) _
  rw [List.length_append, appendUpTo, appendUpTo]
  simp only [List.length_append, List.length_take, List.length_nil, List.length_singleton, hhead]
  omega

/-! ### Where the user's directory goes -/

/-- The place that a username, read as a path from `/home`, gives a new directory. -/
def userPlace (username : List UInt8) : Option Place :=
  ((parentPlace (Layout.directories standardPlaces) homePlace username).map fun x => x.1 ++ [x.2]).filter
    fun loc => decide (loc ∉ standardPlaces)

/-- The files of `/etc` that are asked for. -/
def accountPlaces : List Place :=
  [etcPlace ++ [lit "hostname"], etcPlace ++ [lit "timezone"], etcPlace ++ [lit "passwd"],
    etcPlace ++ [lit "group"]]

/-- All entries that an installation makes. -/
def installedPlaces (user : Place) : List Place :=
  standardPlaces ++ accountPlaces ++ [etcPlace ++ [lit "os-release"], etcPlace ++ [lit "motd"]] ++
    [user, user ++ [lit ".bashrc"]]

/-- The username names a new directory, not in the way of a file that is asked for, and
`/home/USERNAME` leads to it. -/
def HomeFound (username : List UInt8) : Prop :=
  ∃ user, userPlace username = some user ∧ user ∉ accountPlaces ∧
    follow (fun loc => decide (loc ∈ installedPlaces user)) [] (lit "/home/" ++ username) = some user

theorem userPlace_eq_some {username : List UInt8} {user : Place} (h : userPlace username = some user) :
    ∃ front leaf, parentPlace (Layout.directories standardPlaces) homePlace username = some (front, leaf) ∧
      user = front ++ [leaf] ∧ user ∉ standardPlaces := by
  obtain ⟨hmap, hnot⟩ := Option.filter_eq_some_iff.mp h
  obtain ⟨x, hx, rfl⟩ := Option.map_eq_some_iff.mp hmap
  exact ⟨x.1, x.2, hx, rfl, of_decide_eq_true hnot⟩

/-- The one directory that the username adds. -/
theorem mkdir_user (username : List UInt8) :
    (Layout.directories standardPlaces).mkdir homePlace username 1000 =
      match userPlace username with
      | none => Layout.directories standardPlaces
      | some user => Function.update (Layout.directories standardPlaces) user (some (.dir 1000)) := by
  unfold Layout.mkdir userPlace
  cases hpar : parentPlace (Layout.directories standardPlaces) homePlace username with
  | none => rfl
  | some x =>
    have hhas := Layout.has_directories standardPlaces (x.1 ++ [x.2])
    dsimp only [Option.map_some]
    by_cases hmem : x.1 ++ [x.2] ∈ standardPlaces
    · rw [if_pos (by rw [hhas, decide_eq_true hmem]), Option.filter_some, if_neg (by simpa using hmem)]
    · rw [if_neg (by rw [hhas, decide_eq_false hmem]; decide), Option.filter_some,
        if_pos (by simpa using hmem)]

/-! ### The layout -/

section Layout
variable {w : Wiz}

theorem configPlaces_fst (w : Wiz) : (configPlaces w).map Prod.fst =
    [etcPlace ++ [lit "hostname"], etcPlace ++ [lit "timezone"], etcPlace ++ [lit "os-release"],
      etcPlace ++ [lit "passwd"], etcPlace ++ [lit "group"], etcPlace ++ [lit "motd"]] := by
  have hfst : (configPlaces w).map Prod.fst = ["etc/hostname", "etc/timezone", "etc/os-release",
      "etc/passwd", "etc/group", "etc/motd"].map fun path => etcPlace ++ [etcName path] := rfl
  rw [hfst]
  decide

/-- The directory of the user is the only one with its owner. -/
theorem installedLayout_user (w : Wiz) (loc : Place) :
    installedLayout w loc = some (.dir 1000) ↔ userPlace w.username.chars = some loc := by
  have hconfig : installedLayout w loc = some (.dir 1000) ↔ configLayout w loc = some (.dir 1000) := by
    unfold installedLayout
    cases follow (configLayout w).has homePlace w.username.chars with
    | none => exact Iff.rfl
    | some _ => exact Layout.put_dir_iff
  rw [hconfig, configLayout, Layout.putAll_dir_iff, mkdir_user]
  have hstandard : Layout.directories standardPlaces loc ≠ some (.dir 1000) := by
    unfold Layout.directories
    split <;> simp
  cases userPlace w.username.chars with
  | none => simpa using hstandard
  | some user =>
    dsimp only
    by_cases he : loc = user
    · simp [he]
    · rw [Function.update_of_ne he]
      simp [hstandard, Ne.symm he]

theorem isDirAt_installed (w : Wiz) (loc : Place) :
    (installedLayout w).isDirAt loc = (configLayout w).isDirAt loc := by
  unfold installedLayout
  cases follow (configLayout w).has homePlace w.username.chars with
  | none => rfl
  | some _ => exact Layout.isDirAt_put _ _ _ _

theorem has_configLayout {user : Place} (h : userPlace w.username.chars = some user) (loc : Place) :
    (configLayout w).has loc = true ↔
      loc ∈ standardPlaces ∨ loc = user ∨ loc ∈ (configPlaces w).map Prod.fst := by
  rw [configLayout, Layout.has_putAll, mkdir_user, h, Bool.or_eq_true, decide_eq_true_iff]
  dsimp only
  by_cases he : loc = user
  · rw [Layout.has, he, Function.update_self]
    simp
  · rw [Layout.has, Function.update_of_ne he, ← Layout.has, Layout.has_directories]
    simp [he]

/-- Where the user's directory is made, `.bashrc` goes into it. -/
theorem installedLayout_eq {user : Place} (h : userPlace w.username.chars = some user)
    (hdots : ∀ name ∈ user, name ≠ lit "." ∧ name ≠ lit "..") :
    installedLayout w = (configLayout w).put (user ++ [lit ".bashrc"]) (lit bashrc) := by
  obtain ⟨front, leaf, hpar, rfl, _⟩ := userPlace_eq_some h
  obtain ⟨hdot, hdots⟩ := hdots leaf (List.mem_append_right _ List.mem_cons_self)
  have hfollow := parentPlace_follow hpar hdot hdots (configLayout w).has fun loc hloc => by
    rw [Layout.has_directories] at hloc
    exact (has_configLayout h loc).mpr (.inl (of_decide_eq_true hloc))
  rw [if_pos ((has_configLayout h _).mpr (.inr (.inl rfl)))] at hfollow
  unfold installedLayout
  rw [hfollow]

theorem has_installedLayout {user : Place} (h : userPlace w.username.chars = some user)
    (hdots : ∀ name ∈ user, name ≠ lit "." ∧ name ≠ lit "..") :
    (installedLayout w).has = fun loc => decide (loc ∈ installedPlaces user) := by
  funext loc
  rw [installedLayout_eq h hdots, Layout.has_put]
  have := has_configLayout h loc
  rw [configPlaces_fst] at this
  rw [Bool.eq_iff_iff, Bool.or_eq_true, this, decide_eq_true_iff, decide_eq_true_iff]
  simp only [installedPlaces, accountPlaces, List.mem_append, List.mem_cons, List.not_mem_nil, or_false]
  simp only [or_assoc, or_comm, or_left_comm]

end Layout

/-! ### The system that was asked for -/

/-- Reading the file at `path` gives `text`. -/
def HasFile (t : Nodes) (path : CStr) (text : List UInt8) : Prop :=
  ∃ data size, fsReadFile t fsGetRoot path = .ok (some (data, size)) ∧
    (List.ofFn data).take size.toNat = text

/-- `"/home/"` and the username. -/
def homePath (w : Wiz) : CStr :=
  ⟨lit "/home/" ++ w.username.chars, fun h =>
    (List.mem_append.mp h).elim (fun h => absurd h (by decide)) w.username.str.noNul⟩

/-- What a loaded filesystem must hold. -/
structure Installed (t : Nodes) (w : Wiz) : Prop where
  hostname : HasFile t (.ofLit "/etc/hostname") (w.hostname.chars ++ lit "\n")
  timezone : HasFile t (.ofLit "/etc/timezone") (w.timezone.chars ++ lit "\n")
  passwd : HasFile t (.ofLit "/etc/passwd") (passwdText w.username.chars)
  group : HasFile t (.ofLit "/etc/group") (groupText w.username.chars)
  home : ∃ h : NodeId, fsResolve t fsGetRoot (homePath w) = .ok (h.val : Int) ∧ (t h).isDir = true ∧
    (t h).owner = 1000 ∧ (findChild t (h.val : Int) (lit ".bashrc")).isSome = true

section Laid
variable {t : Nodes} {place : NodeId → Place} {L : Layout} {k : Nat}

theorem hasFile_iff (h : Laid t place L k) (path : CStr) (text : List UInt8) :
    HasFile t path text ↔ ∃ loc, follow L.has [] path.chars = some loc ∧ L loc = some (.file text) := by
  have hroot := h.root_place
  have hu := h.root_used
  unfold HasFile fsReadFile
  cases hf : follow L.has [] path.chars with
  | none =>
    rw [← hroot] at hf
    have hres := h.fsResolve_none hu path hf
    rw [show fsGetRoot = ((0 : NodeId).val : Int) from rfl, hres]
    constructor
    · intro hs
      obtain ⟨data, size, hread, _⟩ := hs
      cases hread
    · intro hs
      obtain ⟨loc, hloc, _⟩ := hs
      cases hloc
  | some loc =>
    rw [← hroot] at hf
    obtain ⟨n, hres, hun, hplace⟩ := h.fsResolve_some hu path hf
    have hentry := h.entry n hun
    rw [hplace] at hentry
    rw [show fsGetRoot = ((0 : NodeId).val : Int) from rfl, hres, Foundation.ok_bind, if_neg (by omega),
      nodeIndex_ofNat, Foundation.ok_bind]
    cases hd : (t n).isDir with
    | true =>
      rw [entryOf, hd, if_pos rfl] at hentry
      constructor
      · intro hs
        obtain ⟨data, size, hread, _⟩ := hs
        cases hread
      · intro hs
        obtain ⟨loc', hloc, htext⟩ := hs
        cases hloc
        rw [hentry] at htext
        cases htext
    | false =>
      rw [entryOf, hd, if_neg (by decide)] at hentry
      constructor
      · intro hs
        obtain ⟨data, size, hread, htext⟩ := hs
        cases hread
        exact ⟨loc, rfl, by rw [hentry, ← htext]; rfl⟩
      · intro hs
        obtain ⟨loc', hloc, htext⟩ := hs
        cases hloc
        rw [hentry] at htext
        cases htext
        exact ⟨_, _, rfl, rfl⟩

/-- A name in a directory of the root. -/
theorem follow_two {has : Place → Bool} {path a b : List UInt8} (hcomp : components slash path = [a, b])
    (ha : a ≠ lit "." ∧ a ≠ lit "..") (hb : b ≠ lit "." ∧ b ≠ lit "..") (hhas : has [a] = true) :
    follow has [] path = if has ([a] ++ [b]) then some ([a] ++ [b]) else none := by
  have hhas : has ([] ++ [a]) = true := hhas
  unfold follow
  rw [ite_self, hcomp, Foundation.walk_cons, enter_name _ _ ha.1 ha.2, if_pos hhas, Option.bind_some,
    Foundation.walk_cons, enter_name _ _ hb.1 hb.2]
  show ((if has ([a] ++ [b]) then some ([a] ++ [b]) else none).bind fun d => some d) = _
  cases has ([a] ++ [b]) <;> rfl

/-- A file of `/etc` is what was written, unless the user's directory was in its way. -/
theorem configLayout_file {w : Wiz} {loc : Place} {line : List UInt8} (hmem : (loc, line) ∈ configPlaces w)
    (hnot : loc ∉ standardPlaces) (hlen : line.length < 4096) (text : List UInt8) :
    configLayout w loc = some (.file text) ↔ userPlace w.username.chars ≠ some loc ∧ line = text := by
  have hnodup : ((configPlaces w).map Prod.fst).Nodup := by
    rw [configPlaces_fst]
    decide
  by_cases huser : userPlace w.username.chars = some loc
  · have hdir : configLayout w loc = some (.dir 1000) := by
      rw [configLayout, Layout.putAll_dir_iff, mkdir_user, huser]
      exact Function.update_self ..
    simp [hdir, huser]
  · have hdir : ((Layout.directories standardPlaces).mkdir homePlace w.username.chars 1000).isDirAt loc =
        false := by
      refine Layout.isDirAt_of_not_has ?_
      have hstandard : (Layout.directories standardPlaces).has loc = false := by
        rw [Layout.has_directories, decide_eq_false hnot]
      rw [mkdir_user]
      cases hp : userPlace w.username.chars with
      | none => exact hstandard
      | some user =>
        have hne : loc ≠ user := fun he => huser (by rw [hp, he])
        dsimp only
        rwa [Layout.has, Function.update_of_ne hne]
    have hclamp : clampSize line.length = line.length := if_neg (by omega)
    rw [configLayout, Layout.putAll_mem _ _ hnodup hmem hdir, hclamp, List.take_length]
    simp [huser]

/-- One of the four files that are asked for. -/
theorem hasFile_account {w : Wiz} (h : Laid t place (installedLayout w) 16) (path : CStr)
    (name text : List UInt8) {line : List UInt8} (hcomp : components slash path.chars = [lit "etc", name])
    (hname : name ≠ lit "." ∧ name ≠ lit "..") (hbash : name ≠ lit ".bashrc")
    (hmem : (etcPlace ++ [name], line) ∈ configPlaces w) (hnot : etcPlace ++ [name] ∉ standardPlaces)
    (hlen : line.length < 4096) :
    HasFile t path text ↔ userPlace w.username.chars ≠ some (etcPlace ++ [name]) ∧ line = text := by
  have hold : installedLayout w (etcPlace ++ [name]) = configLayout w (etcPlace ++ [name]) := by
    unfold installedLayout
    cases follow (configLayout w).has homePlace w.username.chars with
    | none => rfl
    | some loc =>
      refine Layout.put_other _ (fun he => hbash ?_) _
      simpa using (List.append_inj' he rfl).2
  have hetc : (installedLayout w).has [lit "etc"] = true := by
    refine Layout.has_of_isDirAt ?_
    rw [isDirAt_installed]
    exact Layout.isDirAt_of_dir (configLayout_standard w etc_mem)
  rw [hasFile_iff h, follow_two hcomp (by decide) hname hetc, ← configLayout_file hmem hnot hlen, ← hold]
  constructor
  · intro hs
    obtain ⟨loc, hloc, htext⟩ := hs
    split at hloc
    · cases hloc
      exact htext
    · cases hloc
  · intro htext
    refine ⟨_, if_pos ?_, htext⟩
    show (installedLayout w (etcPlace ++ [name])).isSome = true
    rw [htext]
    rfl

/-- The user's directory and its `.bashrc`. -/
theorem home_iff {w : Wiz} (h : Laid t place (installedLayout w) 16) :
    (∃ n : NodeId, fsResolve t fsGetRoot (homePath w) = .ok (n.val : Int) ∧ (t n).isDir = true ∧
      (t n).owner = 1000 ∧ (findChild t (n.val : Int) (lit ".bashrc")).isSome = true) ↔
    ∃ user, userPlace w.username.chars = some user ∧
      follow (fun loc => decide (loc ∈ installedPlaces user)) [] (lit "/home/" ++ w.username.chars) =
        some user := by
  constructor
  · intro hs
    obtain ⟨n, hres, hdir, howner, _⟩ := hs
    cases hf : follow (installedLayout w).has (place 0) (homePath w).chars with
    | none =>
      rw [show fsGetRoot = ((0 : NodeId).val : Int) from rfl, h.fsResolve_none h.root_used
        (homePath w) hf] at hres
      have hneg : (-1 : Int) = n.val := Except.ok.inj hres
      omega
    | some user =>
      obtain ⟨m, hm, hu, hplace⟩ := h.fsResolve_some h.root_used (homePath w) hf
      rw [show fsGetRoot = ((0 : NodeId).val : Int) from rfl, hm] at hres
      have hmn : m = n := Fin.ext (by exact_mod_cast Except.ok.inj hres)
      subst hmn
      have hentry := h.entry m hu
      rw [entryOf_eq_dir.mpr ⟨hdir, howner⟩, hplace] at hentry
      have huser := (installedLayout_user w user).mp hentry
      rw [h.root_place] at hf
      have hhas := has_installedLayout huser (follow_no_dots hf)
      rw [hhas] at hf
      exact ⟨user, huser, hf⟩
  · intro hs
    obtain ⟨user, huser, hf⟩ := hs
    have hhas := has_installedLayout huser (follow_no_dots hf)
    rw [← hhas, ← h.root_place] at hf
    obtain ⟨n, hres, hu, hplace⟩ := h.fsResolve_some h.root_used (homePath w) hf
    have hentry := h.entry n hu
    rw [hplace, (installedLayout_user w user).mpr huser] at hentry
    obtain ⟨hdir, howner⟩ := entryOf_eq_dir.mp (Option.some.inj hentry).symm
    refine ⟨n, hres, hdir, howner, ?_⟩
    have hchild := h.findChild_map hu (lit ".bashrc") (by decide)
    rw [hplace, if_pos] at hchild
    · obtain ⟨e, he, _⟩ := Option.map_eq_some_iff.mp hchild
      rw [he]
      rfl
    · rw [hhas]
      refine decide_eq_true (List.mem_append_right _ ?_)
      simp

/-- **What is installed is what was asked for exactly when the line of `/etc/passwd` fits and the
user's directory is found.** -/
theorem installed_iff {w : Wiz} (h : Laid t place (installedLayout w) 16) :
    Installed t w ↔ w.username.chars.length ≤ 30 ∧ HomeFound w.username.chars := by
  have hfits := w.hostname.fits
  have hfits' := w.timezone.fits
  have hpasswd := passwdLine_length w
  have hgroup := groupLine_length w
  have hnewline : lit "\n" = [10] := by decide
  have hmem : ∀ x ∈ configTexts w, (etcPlace ++ [etcName x.1], x.2) ∈ configPlaces w :=
    fun x hx => List.mem_map_of_mem (f := fun x => (etcPlace ++ [etcName x.1], x.2)) hx
  have hfile₁ := hasFile_account h (.ofLit "/etc/hostname") (lit "hostname")
    (w.hostname.chars ++ lit "\n") (by decide) (by decide) (by decide)
    (hmem ("etc/hostname", hostnameLine w) (by simp [configTexts_eq])) (by decide)
    (by simp [hostnameLine]; omega)
  have hfile₂ := hasFile_account h (.ofLit "/etc/timezone") (lit "timezone")
    (w.timezone.chars ++ lit "\n") (by decide) (by decide) (by decide)
    (hmem ("etc/timezone", timezoneLine w) (by simp [configTexts_eq])) (by decide)
    (by simp [timezoneLine]; omega)
  have hfile₃ := hasFile_account h (.ofLit "/etc/passwd") (lit "passwd")
    (passwdText w.username.chars) (by decide) (by decide) (by decide)
    (hmem ("etc/passwd", passwdLine w) (by simp [configTexts_eq])) (by decide)
    (show (passwdLine w).length < 4096 by omega)
  have hfile₄ := hasFile_account h (.ofLit "/etc/group") (lit "group")
    (groupText w.username.chars) (by decide) (by decide) (by decide)
    (hmem ("etc/group", groupLine w) (by simp [configTexts_eq])) (by decide)
    (show (groupLine w).length < 4096 by omega)
  have hhome := home_iff h
  have htext₁ : hostnameLine w = w.hostname.chars ++ lit "\n" := by rw [hnewline, hostnameLine]
  have htext₂ : timezoneLine w = w.timezone.chars ++ lit "\n" := by rw [hnewline, timezoneLine]
  constructor
  · intro hi
    obtain ⟨hfree₁, _⟩ := hfile₁.mp hi.hostname
    obtain ⟨hfree₂, _⟩ := hfile₂.mp hi.timezone
    obtain ⟨hfree₃, hline⟩ := hfile₃.mp hi.passwd
    obtain ⟨hfree₄, _⟩ := hfile₄.mp hi.group
    obtain ⟨user, huser, hfollow⟩ := hhome.mp hi.home
    refine ⟨(passwdLine_eq_iff w).mp hline, user, huser, ?_, hfollow⟩
    rw [huser] at hfree₁ hfree₂ hfree₃ hfree₄
    simp only [accountPlaces, List.mem_cons, List.not_mem_nil, or_false, not_or]
    exact ⟨fun he => hfree₁ (by rw [he]), fun he => hfree₂ (by rw [he]), fun he => hfree₃ (by rw [he]),
      fun he => hfree₄ (by rw [he])⟩
  · intro hs
    obtain ⟨hlen, user, huser, hnot, hfollow⟩ := hs
    have hfree : ∀ loc ∈ accountPlaces, userPlace w.username.chars ≠ some loc := by
      intro loc hloc he
      rw [huser] at he
      cases he
      exact hnot hloc
    exact
      { hostname := hfile₁.mpr ⟨hfree _ (by simp [accountPlaces]), htext₁⟩
        timezone := hfile₂.mpr ⟨hfree _ (by simp [accountPlaces]), htext₂⟩
        passwd := hfile₃.mpr ⟨hfree _ (by simp [accountPlaces]), (passwdLine_eq_iff w).mpr hlen⟩
        group := hfile₄.mpr ⟨hfree _ (by simp [accountPlaces]), groupLine_eq w⟩
        home := hhome.mpr ⟨user, huser, hfollow⟩ }

end Laid

/-! ### What is loaded -/

/-- A load leaves the layout as it was: root owned the root directory already. -/
theorem laid_resetRoot {t : Nodes} {place : NodeId → Place} {L : Layout} {k : Nat} (h : Laid t place L k)
    (hroot : L [] = some (.dir 0)) : Laid (resetRoot t) place L k := by
  have hname : cstr (rootNode (t 0)).name = cstr (t 0).name := by
    rw [h.root_name]
    exact cstr_kstrcpy _ _ (by decide) (by decide)
  have hnormal := resetRoot_normal h.normal 0
  rw [resetRoot_self] at hnormal
  have hreset := h.update h.root_used (m := rootNode (t 0)) rfl h.root_dir.symm h.root_parent.symm hname
    hnormal
  have hentry : L [] = some (entryOf (rootNode (t 0))) := hroot
  rwa [h.root_place, ← hentry, Function.update_eq_self] at hreset

theorem installedLayout_root (w : Wiz) : installedLayout w [] = some (.dir 0) := by
  have hconfig := configLayout_standard w (show [] ∈ standardPlaces from List.mem_cons_self)
  unfold installedLayout
  cases follow (configLayout w).has homePlace w.username.chars with
  | none => exact hconfig
  | some loc => exact Layout.put_dir_iff.mpr hconfig

/-- An installation that returns has saved its tree. -/
theorem stageInstall_ok {l : Linked} {devices : Devices} {w : Wiz} {d d' : Disk} {t : Nodes}
    (h : stageInstall l devices w d = .ok (t, d')) :
    installTree w fsInit = .ok t ∧ Saved t d'.drive.sectors := by
  unfold stageInstall at h
  dsimp only at h
  split at h
  · cases h
  · cases hformat : diskFormatFs (diskInstallSystem l
      ((diskGetInfo devices d.selectedDisk).map (·.sectors28)) d).2 with
    | mk status rest =>
      obtain ⟨t₀, d₁⟩ := rest
      have ht₀ : t₀ = fsInit := by
        unfold diskFormatFs at hformat
        dsimp only at hformat
        split at hformat <;> · cases hformat; rfl
      rw [hformat] at h
      dsimp only at h
      split at h
      · cases h
      · rw [ht₀] at h
        cases htree : installTree w fsInit with
        | error f =>
          rw [htree] at h
          cases h
        | ok t₁ =>
          rw [htree] at h
          dsimp only at h
          split at h
          · cases h
          · rename_i hsave
            cases h
            obtain ⟨hsel, hok⟩ := diskSaveFs_eq_zero (not_not.mp hsave)
            exact ⟨rfl, (diskSaveFs_ok hsel hok t).2.2⟩

/-- Whatever was typed, what is written loads, and is laid out as the installation laid it out. -/
theorem stageInstall_loads {l : Linked} {devices : Devices} {w : Wiz} {d d' : Disk} {t : Nodes}
    (h : stageInstall l devices w d = .ok (t, d')) (t₀ : Nodes) {d₂ : Disk}
    (hsectors : d₂.drive.sectors = d'.drive.sectors) (hsel : 0 ≤ d₂.selectedDisk)
    (hh : d₂.drive.Healthy) : (diskLoadFs t₀ d₂).1 = 0 ∧
      ∃ place, Laid (diskLoadFs t₀ d₂).2.1 place (installedLayout w) 16 := by
  obtain ⟨htree, hsaved⟩ := stageInstall_ok h
  obtain ⟨t₁, place, ht₁, hlaid⟩ := installTree_laid w
  rw [htree] at ht₁
  cases ht₁
  rw [← hsectors] at hsaved
  obtain ⟨hstatus, htable⟩ :=
    diskLoadFs_saved ⟨hlaid.normal, hlaid.root_used, hlaid.root_dir⟩ hsel hh hsaved t₀
  rw [htable]
  exact ⟨hstatus, place, laid_resetRoot hlaid (installedLayout_root w)⟩

/-- The tree of what is loaded is the layout, but for the modes. -/
theorem stageInstall_tree {l : Linked} {devices : Devices} {w : Wiz} {d d' : Disk} {t : Nodes}
    (h : stageInstall l devices w d = .ok (t, d')) (t₀ : Nodes) {d₂ : Disk}
    (hsectors : d₂.drive.sectors = d'.drive.sectors) (hsel : 0 ≤ d₂.selectedDisk) (hh : d₂.drive.Healthy) :
    (treeOf (diskLoadFs t₀ d₂).2.1).layout = installedLayout w := by
  obtain ⟨_, place, hlaid⟩ := stageInstall_loads h t₀ hsectors hsel hh
  exact hlaid.layout

/-- **When a finished installation is the one that was asked for.** It always loads. What is loaded is
right exactly when the username has at most 30 characters and `/home/USERNAME` leads to the directory
made for it. -/
theorem installation_correct (l : Linked) (devices : Devices) (w : Wiz) (d d' : Disk) (t : Nodes)
    (h : stageInstall l devices w d = .ok (t, d')) :
    (∀ (t₀ : Nodes) (d₂ : Disk), d₂.drive.sectors = d'.drive.sectors → 0 ≤ d₂.selectedDisk →
      d₂.drive.Healthy → (diskLoadFs t₀ d₂).1 = 0 ∧ Installed (diskLoadFs t₀ d₂).2.1 w) ↔
    w.username.chars.length ≤ 30 ∧ HomeFound w.username.chars := by
  constructor
  · intro hall
    obtain ⟨_, hi⟩ :=
      hall fsInit (rebooted d') (rebooted_sectors d') (rebooted_selected d') (rebooted_healthy d')
    obtain ⟨_, place, hlaid⟩ := stageInstall_loads h fsInit (rebooted_sectors d') (rebooted_selected d')
      (rebooted_healthy d')
    exact (installed_iff hlaid).mp hi
  · intro hcond t₀ d₂ hsectors hsel hh
    obtain ⟨hstatus, place, hlaid⟩ := stageInstall_loads h t₀ hsectors hsel hh
    exact ⟨hstatus, (installed_iff hlaid).mpr hcond⟩

/-! ### Usernames without a `'/'` -/

theorem userPlace_plain {username : List UInt8} (hslash : slash ∉ username) (hne : username ≠ [])
    (hmax : username.length ≤ 31) : userPlace username = some (homePlace ++ [username]) := by
  have hspec := lastSlash_spec username
  have hpar : parentPlace (Layout.directories standardPlaces) homePlace username =
      some (homePlace, username) := by
    unfold parentPlace
    cases hk : lastSlash username with
    | none => exact if_pos ((isValidName_iff username).mpr ⟨hne, hslash, hmax⟩)
    | some k =>
      rw [hk] at hspec
      rw [hspec.2.1] at hslash
      exact absurd (List.mem_append_right _ List.mem_cons_self) hslash
  have hshort : ∀ loc ∈ standardPlaces, loc.length ≤ 1 := by decide
  have hnot : homePlace ++ [username] ∉ standardPlaces := fun h => by
    have := hshort _ h
    simp [homePlace] at this
  unfold userPlace
  rw [hpar, Option.map_some, Option.filter_some, if_pos (decide_eq_true hnot)]

theorem components_home {username : List UInt8} (hslash : slash ∉ username) (hne : username ≠ []) :
    components slash (lit "/home/" ++ username) = [lit "home", username] := by
  have hpath : lit "/home/" ++ username = lit "/home" ++ slash :: username := by
    rw [show lit "/home/" = lit "/home" ++ [slash] by decide, List.append_assoc]
    rfl
  have hfront : components slash (lit "/home") = [lit "home"] := by decide
  rw [hpath, Foundation.components_append, hfront, Foundation.components_block slash hslash, if_neg hne]
  rfl

/-- Of the usernames that are a single component, all but `".."` are found. -/
theorem homeFound_plain {username : List UInt8} (hslash : slash ∉ username) (hmin : 2 ≤ username.length)
    (hmax : username.length ≤ 31) : HomeFound username ↔ username ≠ lit ".." := by
  have hne : username ≠ [] := List.ne_nil_of_length_pos (by omega)
  have huser := userPlace_plain hslash hne hmax
  have hcomp := components_home hslash hne
  constructor
  · rintro ⟨user, hplace, _, hfollow⟩ rfl
    exact (follow_no_dots hfollow (lit "..") (by
      rw [huser] at hplace
      cases hplace
      exact List.mem_append_right _ List.mem_cons_self)).2 rfl
  · intro hdots
    have hdot : username ≠ lit "." := fun he => absurd hmin (by rw [he]; decide)
    refine ⟨_, huser, ?_, ?_⟩
    · have hhome : ∀ loc ∈ accountPlaces, loc.head? = some (lit "etc") := by decide
      have hhead : (homePlace ++ [username]).head? = some (lit "home") := rfl
      intro h
      rw [hhome _ h] at hhead
      exact absurd hhead (by decide)
    · rw [follow_two hcomp (by decide) ⟨hdot, hdots⟩, if_pos]
      · rfl
      · refine decide_eq_true (List.mem_append_right _ ?_)
        exact List.mem_cons_self
      · refine decide_eq_true (List.mem_append_left _ (List.mem_append_left _ (List.mem_append_left _ ?_)))
        exact home_mem

/-! ### Runs -/

/-- An installation whose checks pass succeeds on a disk that never fails. -/
theorem stageInstall_succeeds {l : Linked} {devices : Devices} (w : Wiz) {d : Disk}
    (hchecks : installRefused l ((diskGetInfo devices d.selectedDisk).map (·.sectors28)) d = none)
    (hsel : 0 ≤ d.selectedDisk) (hd : d.drive.NeverFails) :
    ∃ t d', stageInstall l devices w d = .ok (t, d') := by
  obtain ⟨t, place, htree, _⟩ := installTree_laid w
  have hinstall := diskInstallSystem_healthy hchecks hd.healthy
  have hsteady := diskInstallSystem_steady l ((diskGetInfo devices d.selectedDisk).map (·.sectors28)) d
  unfold stageInstall
  cases hi : diskInstallSystem l ((diskGetInfo devices d.selectedDisk).map (·.sectors28)) d with
  | mk status d₁ =>
    rw [hi] at hinstall hsteady
    have hsel₁ : 0 ≤ d₁.selectedDisk := by
      rw [hsteady.selectedDisk]
      exact hsel
    have hd₁ := hsteady.neverFails hd
    have hsave := (diskSaveFs_ok hsel₁ (fun k _ => hd₁.healthy k) fsInit).1
    have hsteady₂ := diskFormatFs_steady d₁
    cases hformat : diskFormatFs d₁ with
    | mk status₂ rest =>
      obtain ⟨t₀, d₂⟩ := rest
      rw [hformat] at hsteady₂
      have hboth : status₂ = 0 ∧ t₀ = fsInit := by
        unfold diskFormatFs at hformat
        dsimp only at hformat
        rw [if_neg (by simp [hsave])] at hformat
        cases hformat
        exact ⟨rfl, rfl⟩
      have hsel₂ : 0 ≤ d₂.selectedDisk := by
        rw [hsteady₂.selectedDisk]
        exact hsel₁
      have hd₂ := hsteady₂.neverFails hd₁
      have hsave₂ := (diskSaveFs_ok hsel₂ (fun k _ => hd₂.healthy k) t).1
      dsimp only
      rw [if_neg (by simpa using hinstall), hformat]
      dsimp only
      rw [if_neg (by simp [hboth.1]), hboth.2, htree]
      dsimp only
      rw [if_neg (by simp [hsave₂])]
      exact ⟨_, _, rfl⟩

/-- What the wizard starts from, with another username. -/
def namedWiz (username : InputBuffer 32) : Wiz :=
  { diskIndex := 0
    hostname := defaultHostname
    timezone := utc
    rootPw := noPassword
    username := username
    userPw := noPassword }

/-- A username of 31 characters. -/
def longUsername : InputBuffer 32 := .ofText "abcdefghijklmnopqrstuvwxyzabcde"

theorem stageInstall_blankDisk (devices : Devices) (w : Wiz)
    (hdevice : (diskGetInfo devices 0).map (·.sectors28) = some 6144) :
    ∃ t d', stageInstall smallSystem devices w blankDisk = .ok (t, d') := by
  refine stageInstall_succeeds w ?_ (le_refl _) fun _ => rfl
  show installRefused smallSystem ((diskGetInfo devices 0).map (·.sectors28)) blankDisk = none
  rw [hdevice]
  rfl

theorem installation_correct_debian :
    ∃ t d', stageInstall smallSystem oneDisk (namedWiz defaultUsername) blankDisk = .ok (t, d') ∧
      (diskLoadFs fsInit (rebooted d')).1 = 0 ∧
      Installed (diskLoadFs fsInit (rebooted d')).2.1 (namedWiz defaultUsername) := by
  obtain ⟨t, d', h⟩ := stageInstall_blankDisk oneDisk (namedWiz defaultUsername) rfl
  have hfound : HomeFound (namedWiz defaultUsername).username.chars :=
    (homeFound_plain (by decide) (by decide) (by decide)).mpr (by decide)
  have hall := (installation_correct smallSystem oneDisk (namedWiz defaultUsername) blankDisk d' t
    h).mpr ⟨by decide, hfound⟩
  exact ⟨t, d', h, hall fsInit (rebooted d') (rebooted_sectors d') (rebooted_selected d')
    (rebooted_healthy d')⟩

/-- With 31 characters the line of `/etc/passwd` is cut. -/
theorem installation_cut :
    ∃ t d', stageInstall smallSystem oneDisk (namedWiz longUsername) blankDisk = .ok (t, d') ∧
      ¬ Installed (diskLoadFs fsInit (rebooted d')).2.1 (namedWiz longUsername) := by
  obtain ⟨t, d', h⟩ := stageInstall_blankDisk oneDisk (namedWiz longUsername) rfl
  obtain ⟨_, place, hlaid⟩ := stageInstall_loads h fsInit (rebooted_sectors d') (rebooted_selected d')
    (rebooted_healthy d')
  refine ⟨t, d', h, fun hi => ?_⟩
  exact absurd ((installed_iff hlaid).mp hi).1 (by decide)

end FurOS.Installer
