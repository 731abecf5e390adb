import FurOS.Shell.Outcomes

/-! What installing and seeding leave (`cmd_install`, `shell_seed_filesystem`).

Both start from the empty filesystem, so that where `home` and `home/debian` end up
is found by running them. -/
namespace FurOS

/-- A sequence of creations and writes that cannot fail to return. -/
def Grows (t : Nodes) (x : Except Fault Nodes) : Prop :=
  Foundation.Returns x fun t' => WellFormed t' ∧ Extends t t'

theorem Grows.refl {t : Nodes} (wf : WellFormed t) : Grows t (.ok t) := ⟨t, rfl, wf, .refl t⟩

theorem Grows.bind {t : Nodes} {x : Except Fault Nodes} {f : Nodes → Except Fault Nodes} (hx : Grows t x)
    (hf : ∀ t', WellFormed t' → Extends t t' → Grows t' (f t')) : Grows t (x >>= f) := by
  obtain ⟨t', rfl, wf', hext⟩ := hx
  obtain ⟨t'', h, wf'', hext'⟩ := hf t' wf' hext
  exact ⟨t'', h, wf'', hext.trans hext'⟩

/-- What follows a step whose result is known. -/
theorem Grows.then {t t' : Nodes} {x : Except Fault Nodes} {f : Nodes → Except Fault Nodes}
    (hx : Grows t x) (h : x = .ok t') (hf : WellFormed t' → Grows t' (f t')) : Grows t (x >>= f) := by
  obtain ⟨t₁, h₁, wf₁, hext⟩ := hx
  rw [h] at h₁
  cases h₁
  obtain ⟨t'', h', wf', hext'⟩ := hf wf₁
  exact ⟨t'', by rw [h, Foundation.ok_bind, h'], wf', hext.trans hext'⟩

theorem makeDir_ok {t : Nodes} (wf : WellFormed t) {cwd : Int} (hc : UsedDir t cwd) (path : String)
    (owner : UInt16) : Grows t (makeDir t cwd path owner) := by
  obtain ⟨c, rfl, hu, hd⟩ := hc
  obtain ⟨r, t', h, hcr⟩ := fsMkdirAs_ok wf hu hd (.ofLit path) owner 0o755
  exact ⟨t', by rw [makeDir, h]; rfl, hcr.wellFormed wf, fsMkdirAs_extends h⟩

theorem writeText_ok {t : Nodes} (wf : WellFormed t) {cwd : Int} (hc : UsedDir t cwd) (path text : String) :
    Grows t (writeText t cwd path text) := by
  obtain ⟨c, rfl, hu, hd⟩ := hc
  obtain ⟨r, t', h, hw⟩ := fsWriteFile_ok wf hu hd (.ofLit path) (lit text)
  exact ⟨t', by rw [writeText, h]; rfl, hw.wellFormed wf, fsWriteFile_extends h⟩

theorem makeDirs_ok {t : Nodes} (wf : WellFormed t) (paths : List String) : Grows t (makeDirs t paths) := by
  induction paths generalizing t with
  | nil => exact .refl wf
  | cons path rest ih => exact (makeDir_ok wf wf.usedDir_root path _).bind fun t' wf' _ => ih wf'

theorem writeTexts_ok {t : Nodes} (wf : WellFormed t) (texts : List (String × String)) :
    Grows t (writeTexts t texts) := by
  induction texts generalizing t with
  | nil => exact .refl wf
  | cons x rest ih => exact (writeText_ok wf wf.usedDir_root x.1 x.2).bind fun t' wf' _ => ih wf'

/-! ### `home` -/

/-- The directory that a path is found to lead to. -/
def leadsTo (t : Nodes) (cwd : Int) (path : String) (n : NodeId) : Bool :=
  (match fsResolve t cwd (.ofLit path) with
    | .ok m => decide (m = n.val)
    | .error _ => false) && (t n).used && (t n).isDir

theorem leadsTo_spec {t : Nodes} {cwd : Int} {path : String} {n : NodeId}
    (h : leadsTo t cwd path n = true) :
    fsResolve t cwd (.ofLit path) = .ok (n.val : Int) ∧ UsedDir t n.val := by
  simp only [leadsTo, Bool.and_eq_true] at h
  obtain ⟨⟨hr, hu⟩, hd⟩ := h
  refine ⟨?_, n, rfl, hu, hd⟩
  cases hres : fsResolve t cwd (.ofLit path) with
  | error f =>
    rw [hres] at hr
    cases hr
  | ok m =>
    rw [hres] at hr
    exact congrArg Except.ok (by simpa using hr)

/-- `home` is slot 3 of a new filesystem, and `home/debian` slot 7. -/
theorem makeDirs_home : ∃ t, makeDirs fsInit standardDirs = .ok t ∧ leadsTo t fsGetRoot "home" 3 = true :=
  Foundation.exists_of_check (by decide +kernel)

theorem makeDir_debian : ∃ t', (makeDirs fsInit standardDirs >>= fun t =>
    makeDir t ((3 : NodeId).val : Int) "debian" shellUidDebian) = .ok t' ∧
    leadsTo t' ((3 : NodeId).val : Int) "debian" 7 = true :=
  Foundation.exists_of_check (by decide +kernel)

theorem installFilesystem_ok : Grows fsInit (installFilesystem fsInit) := by
  obtain ⟨t, ht, hhome⟩ := makeDirs_home
  obtain ⟨hres, hdir⟩ := leadsTo_spec hhome
  refine (makeDirs_ok wellFormed_fsInit standardDirs).then ht fun wf => ?_
  refine Grows.bind ?_ fun t' wf' _ => writeTexts_ok wf' _
  rw [installHome, hres, Foundation.ok_bind, if_pos (by omega)]
  exact makeDir_ok wf hdir _ _

theorem seedHome_ok {t : Nodes} (wf : WellFormed t) (ht : makeDirs fsInit standardDirs = .ok t) :
    Grows t (seedHome t) := by
  obtain ⟨t₁, ht₁, hhome⟩ := makeDirs_home
  rw [ht] at ht₁
  cases ht₁
  obtain ⟨hres, hdir⟩ := leadsTo_spec hhome
  obtain ⟨t', ht', hdebian⟩ := makeDir_debian
  rw [ht, Foundation.ok_bind] at ht'
  obtain ⟨hres', hdir'⟩ := leadsTo_spec hdebian
  rw [seedHome, hres, Foundation.ok_bind, if_pos (by omega)]
  refine (makeDir_ok wf hdir _ _).then ht' fun wf' => ?_
  rw [hres', Foundation.ok_bind, if_pos (by omega)]
  exact writeText_ok wf' hdir' _ _

theorem shellSeedFilesystem_ok : Grows fsInit (shellSeedFilesystem fsInit) := by
  obtain ⟨t, ht, _⟩ := makeDirs_home
  refine (makeDirs_ok wellFormed_fsInit standardDirs).then ht fun wf => ?_
  exact (seedHome_ok wf ht).bind fun t' wf' _ => writeTexts_ok wf' _

/-- The directories of an installed filesystem are the first eight slots. -/
theorem installFilesystem_usedDir_iff {t : Nodes} (h : installFilesystem fsInit = .ok t) {cwd : Int}
    (h0 : 0 ≤ cwd) : UsedDir t cwd ↔ cwd < 8 := by
  have hcheck : ∃ t, installFilesystem fsInit = .ok t ∧
      (List.finRange 128).all (fun i => ((t i).used && (t i).isDir) == decide (i.val < 8)) = true :=
    Foundation.exists_of_check (by decide +kernel)
  obtain ⟨t', ht', hall⟩ := hcheck
  rw [h] at ht'
  cases ht'
  have hslot : ∀ i : NodeId, (t i).used = true ∧ (t i).isDir = true ↔ i.val < 8 := by
    intro i
    have hboth := eq_of_beq (List.all_eq_true.mp hall i (List.mem_finRange i))
    rw [← Bool.and_eq_true, hboth, decide_eq_true_eq]
  constructor
  · intro hs
    obtain ⟨c, rfl, hdir⟩ := hs
    have := (hslot c).mp hdir
    omega
  · intro hlt
    exact ⟨⟨cwd.toNat, by omega⟩, by simp [h0], (hslot _).mpr (by show cwd.toNat < 8; omega)⟩

end FurOS
