import FurOS.Desktop.Documents

/-! The settings, closed and opened again.

`set_save` writes each field as a file as long as its string, and `set_load` takes the file up to 31
characters, a NUL or a line end. No field holds a line end, so it comes back as it was; but a file
of no bytes counts as none, and the default stands in for it. -/
namespace FurOS.Desktop
open Installer (Key keyUp keyDown)

/-! ### One field -/

theorem TextField.ext {f g : TextField} (h : f.chars = g.chars) : f = g := by
  cases f
  cases g
  cases h
  rfl

/-- No line ends. -/
def OneLine (f : TextField) : Prop := 10 ∉ f.chars ∧ 13 ∉ f.chars

/-- What a field is when it is read again. -/
def TextField.orDefault (f default : TextField) : TextField := if f.chars = [] then default else f

/-- A string that was written is read. -/
theorem ofData_eq {data : Fin 4096 → UInt8} {f : TextField} (hf : OneLine f) (h : cstr data = f.chars) :
    TextField.ofData data = f := by
  have hfits := f.fits
  have htake : ((List.ofFn data).take 31).takeWhile (fun c => decide (c ≠ 0)) = f.chars := by
    unfold cstr Foundation.Buffer.text at h
    rw [← List.take_takeWhile, h, List.take_of_length_le (by omega)]
  apply TextField.ext
  unfold TextField.ofData
  dsimp only
  rw [htake, List.takeWhile_eq_self_iff]
  intro c hc
  exact decide_eq_true ⟨ne_of_mem_of_not_mem hc hf.1, ne_of_mem_of_not_mem hc hf.2⟩

/-- `set_load` of a file that `set_save` has written. -/
theorem setLoadFile_stored {t : Nodes} {c : NodeId} {name : String} (hname : PlainName (CStr.ofLit name).chars)
    {f : TextField} (hf : OneLine f) (h : StoresString t (c.val : Int) (CStr.ofLit name).chars f.chars)
    (before : TextField) : setLoadFile t (c.val : Int) name before = .ok (f.orDefault before) := by
  obtain ⟨n, hn, hbytes, hsize⟩ := h
  have hread := fsReadFile_found (fsResolve_name t (c.val : Int) hname)
  rw [hn.found, Option.bind_some, hn.file, if_neg Bool.false_ne_true] at hread
  rw [setLoadFile, hread, Foundation.ok_bind]
  dsimp only
  unfold TextField.orDefault
  by_cases hempty : f.chars = []
  · have h0 : ¬ (t n).size > 0 := by
      rw [gt_iff_lt, UInt64.lt_iff_toNat_lt, hsize, hempty]
      decide
    rw [if_neg h0, if_pos hempty]
    rfl
  · have h0 : (t n).size > 0 := by
      rw [gt_iff_lt, UInt64.lt_iff_toNat_lt, hsize]
      exact List.length_pos_iff.mpr hempty
    rw [if_pos h0, if_neg hempty, ofData_eq hf hbytes]
    rfl

/-! ### Both fields -/

/-- The directory that `set_save` writes to: `etc`, which is made where there is none. -/
def settingsDir (t : Nodes) : Except Fault (Int × Nodes) := do
  let etc ← fsResolve t fsGetRoot (.ofLit "etc")
  if etc < 0 then do
    let (_, t) ← fsMkdir t fsGetRoot (.ofLit "etc")
    let etc ← fsResolve t fsGetRoot (.ofLit "etc")
    return (etc, t)
  else return (etc, t)

/-- There is such a directory, and both calls of `fs_write_file` return 0. -/
def BothWritten (c : Settings) (t : Nodes) : Prop :=
  ∃ etc t₁ t₂ t₃, settingsDir t = .ok (etc, t₁) ∧ etc ≥ 0 ∧
    fsWriteFile t₁ etc (.ofLit "hostname") (some c.hostname.chars) c.hostname.chars.length = .ok (0, t₂) ∧
    fsWriteFile t₂ etc (.ofLit "timezone") (some c.timezone.chars) c.timezone.chars.length = .ok (0, t₃)

theorem setSave_settingsDir (c : Settings) (s : System) : setSave c s = do
    let (etc, t) ← settingsDir s.nodes
    let t ← setWrite c t etc
    return diskSync {s with nodes := t} := by
  unfold setSave settingsDir
  cases fsResolve s.nodes fsGetRoot (.ofLit "etc") with
  | error f => simp only [Foundation.error_bind]
  | ok etc =>
    rw [Foundation.ok_bind, Foundation.ok_bind]
    split
    · cases fsMkdir s.nodes fsGetRoot (.ofLit "etc") with
      | error f => simp only [Foundation.error_bind]
      | ok x =>
        rw [Foundation.ok_bind, Foundation.ok_bind]
        dsimp only
        cases fsResolve x.2 fsGetRoot (.ofLit "etc") with
        | error f => simp only [Foundation.error_bind]
        | ok etc' => simp only [Foundation.ok_bind, pure_bind]
    · simp only [pure_bind]

/-- It is where `set_load` looks for it. -/
theorem settingsDir_found {t t₁ : Nodes} {etc : Int} (h : settingsDir t = .ok (etc, t₁)) (h0 : etc ≥ 0) :
    ∃ e : NodeId, etc = e.val ∧ findChild t₁ fsGetRoot (CStr.ofLit "etc").chars = some e := by
  have hfound {t : Nodes} {etc : Int} (h : fsResolve t fsGetRoot (.ofLit "etc") = .ok etc) (h0 : etc ≥ 0) :
      ∃ e : NodeId, etc = e.val ∧ findChild t fsGetRoot (CStr.ofLit "etc").chars = some e := by
    obtain ⟨e, rfl⟩ := fsResolve_slot plainName_etcPath h h0
    refine ⟨e, rfl, ?_⟩
    rw [fsResolve_name t fsGetRoot plainName_etcPath] at h
    cases hc : findChild t fsGetRoot (CStr.ofLit "etc").chars with
    | none =>
      rw [hc] at h
      have := Except.ok.inj h
      rw [toC_none] at this
      omega
    | some n =>
      rw [hc] at h
      have hval := Except.ok.inj h
      rw [toC_some] at hval
      exact congrArg some (Fin.ext (by exact_mod_cast hval))
  obtain ⟨etc', hres, h⟩ := Foundation.bind_eq_ok.mp h
  split at h
  · obtain ⟨⟨r, t'⟩, hmkdir, h⟩ := Foundation.bind_eq_ok.mp h
    obtain ⟨etc'', hres', h⟩ := Foundation.bind_eq_ok.mp h
    cases h
    exact hfound hres' h0
  · cases h
    exact hfound hres h0

/-- What is read after both writes. -/
theorem setOpen_written {c : Settings} (hc : OneLine c.hostname ∧ OneLine c.timezone) {s : System} {etc : Int}
    {t₁ t₂ t₃ : Nodes} (hdir : settingsDir s.nodes = .ok (etc, t₁)) (h0 : etc ≥ 0)
    (hhost : fsWriteFile t₁ etc (.ofLit "hostname") (some c.hostname.chars) c.hostname.chars.length = .ok (0, t₂))
    (hzone : fsWriteFile t₂ etc (.ofLit "timezone") (some c.timezone.chars) c.timezone.chars.length = .ok (0, t₃))
    (input : TextField) : ∃ s' c', setSave c s = .ok s' ∧ setOpen s'.nodes input = .ok c' ∧
      c'.hostname = c.hostname.orDefault settingsFuros ∧ c'.timezone = c.timezone.orDefault settingsUtc := by
  obtain ⟨e, rfl, hetc⟩ := settingsDir_found hdir h0
  have hfits (f : TextField) : f.chars.length < 4096 := Nat.lt_trans f.fits (by decide)
  have hnames : (CStr.ofLit "timezone").chars ≠ (CStr.ofLit "hostname").chars := by decide
  have hhost' := fsWriteFile_storesString plainName_hostname c.hostname.noNul (hfits _) hhost
  have hhost'' := hhost'.kept plainName_timezone hzone hnames
  have hzone' := fsWriteFile_storesString plainName_timezone c.timezone.noNul (hfits _) hzone
  have hetc₂ := (fsWriteFile_kept plainName_hostname hhost (by decide) hetc).1
  have hetc₃ := (fsWriteFile_kept plainName_timezone hzone (by decide) hetc₂).1
  have hsave : setSave c s = .ok (diskSync {s with nodes := t₃}) := by
    rw [setSave_settingsDir, hdir, Foundation.ok_bind]
    dsimp only
    rw [setWrite, if_pos h0, hhost, Foundation.ok_bind]
    dsimp only
    rw [hzone]
    rfl
  have hopen : fsResolve t₃ fsGetRoot (.ofLit "etc") = .ok (e.val : Int) := by
    rw [fsResolve_name t₃ fsGetRoot plainName_etcPath, hetc₃, toC_some]
  refine ⟨_, ⟨0, 0, false, input, c.hostname.orDefault settingsFuros, c.timezone.orDefault settingsUtc,
    false⟩, hsave, ?_, rfl, rfl⟩
  rw [nodes_diskSync, setOpen]
  dsimp only
  rw [hopen, Foundation.ok_bind, if_pos h0, setLoadFile_stored plainName_hostname hc.1 hhost'' settingsFuros,
    Foundation.ok_bind, if_pos h0, setLoadFile_stored plainName_timezone hc.2 hzone' settingsUtc]
  rfl

/-! ### What can be entered -/

theorem oneLine_furos : OneLine settingsFuros := by constructor <;> decide

theorem oneLine_utc : OneLine settingsUtc := by constructor <;> decide

theorem oneLine_ofData (data : Fin 4096 → UInt8) : OneLine (.ofData data) := by
  constructor
  all_goals
    intro h
    unfold TextField.ofData at h
    dsimp only at h
    generalize ((List.ofFn data).take 31).takeWhile _ = text at h
    have hc := List.mem_takeWhile_imp h
    simp at hc

theorem OneLine.back {f : TextField} (h : OneLine f) : OneLine f.back :=
  ⟨fun hc => h.1 (List.dropLast_subset _ hc), fun hc => h.2 (List.dropLast_subset _ hc)⟩

theorem OneLine.push {f : TextField} (h : OneLine f) {c : UInt8} {hc : c ≠ 0 ∧ f.chars.length < 31}
    (hline : c ≠ 10 ∧ c ≠ 13) : OneLine (f.push c hc) := by
  constructor
  all_goals
    intro hmem
    rcases List.mem_append.mp hmem with hold | hnew
  · exact h.1 hold
  · exact hline.1 (List.mem_singleton.mp hnew).symm
  · exact h.2 hold
  · exact hline.2 (List.mem_singleton.mp hnew).symm

/-- No field holds a line end. -/
structure OneLined (c : Settings) : Prop where
  input : OneLine c.input
  hostname : OneLine c.hostname
  timezone : OneLine c.timezone

theorem setLoadFile_oneLine {t : Nodes} {etc : Int} {name : String} {before f : TextField}
    (hbefore : OneLine before) (h : setLoadFile t etc name before = .ok f) : OneLine f := by
  unfold setLoadFile at h
  obtain ⟨o, _, h⟩ := Foundation.bind_eq_ok.mp h
  cases o with
  | none =>
    cases h
    exact hbefore
  | some x =>
    obtain ⟨data, size⟩ := x
    dsimp only at h
    split at h
    · rw [← Except.ok.inj h]
      exact oneLine_ofData data
    · cases h
      exact hbefore

/-- Whatever the files hold, the settings open without line ends. -/
theorem setOpen_oneLined {t : Nodes} {input : TextField} (hinput : OneLine input) {c : Settings}
    (h : setOpen t input = .ok c) : OneLined c := by
  unfold setOpen at h
  obtain ⟨etc, _, h⟩ := Foundation.bind_eq_ok.mp h
  by_cases h0 : etc ≥ 0
  · simp only [if_pos h0] at h
    obtain ⟨hostname, hhost, h⟩ := Foundation.bind_eq_ok.mp h
    obtain ⟨timezone, hzone, h⟩ := Foundation.bind_eq_ok.mp h
    cases h
    exact ⟨hinput, setLoadFile_oneLine oneLine_furos hhost, setLoadFile_oneLine oneLine_utc hzone⟩
  · simp only [if_neg h0] at h
    cases h
    exact ⟨hinput, oneLine_furos, oneLine_utc⟩

theorem setMove_oneLined {c : Settings} (hc : OneLined c) (key : Key) : OneLined (setMove c key) := by
  unfold setMove
  split
  · exact ⟨hc.input, hc.hostname, hc.timezone⟩
  split
  · exact ⟨hc.input, hc.hostname, hc.timezone⟩
  split
  · exact ⟨hc.input, hc.hostname, hc.timezone⟩
  split
  · exact ⟨hc.input, hc.hostname, hc.timezone⟩
  split
  · refine ⟨?_, hc.hostname, hc.timezone⟩
    dsimp only
    split
    · exact hc.hostname
    split
    · exact hc.timezone
    · exact hc.input
  · exact hc

theorem setType_oneLined {c : Settings} (hc : OneLined c) (key : Key) : OneLined (setType c key) := by
  unfold setType
  split
  · refine ⟨hc.input, ?_, ?_⟩
    · dsimp only
      split
      · exact hc.input
      · exact hc.hostname
    · dsimp only
      split
      · exact hc.input
      · exact hc.timezone
  split
  · exact ⟨hc.input.back, hc.hostname, hc.timezone⟩
  split
  · rename_i hkey
    obtain ⟨⟨hlow, hhigh⟩, hroom⟩ := hkey
    rw [ge_iff_le, UInt16.le_iff_toNat_le] at hlow
    rw [UInt16.lt_iff_toNat_lt] at hhigh
    have hchar (c : UInt8) (hc : c.toNat < 32) : key.toUInt8 ≠ c := by
      intro heq
      have hval := congrArg UInt8.toNat heq
      simp at hval hlow hhigh
      omega
    have hpush : OneLine (c.input.push key.toUInt8 ⟨hchar 0 (by decide), hroom⟩) :=
      hc.input.push ⟨hchar 10 (by decide), hchar 13 (by decide)⟩
    exact ⟨hpush, hc.hostname, hc.timezone⟩
  · exact hc

/-- **Nor does any key put one there.** -/
theorem setKey_oneLined {c c' : Settings} (hc : OneLined c) {key : Key} {s s' : System}
    (h : setKey c key s = .ok (some c', s')) : OneLined c' := by
  unfold setKey at h
  split at h
  · split at h
    · cases h
      exact ⟨hc.input, hc.hostname, hc.timezone⟩
    · cases h
  split at h
  · obtain ⟨s₁, _, h⟩ := Foundation.bind_eq_ok.mp h
    cases h
    exact ⟨hc.input, hc.hostname, hc.timezone⟩
  · cases h
    split
    · exact setType_oneLined hc key
    · exact setMove_oneLined hc key

/-- The settings after these keys; `none` when they are closed. -/
def runSettings (c : Settings) (s : System) : List Key → Except Fault (Option Settings × System)
  | [] => return (some c, s)
  | key :: keys => do
    match ← setKey c key s with
    | (some c, s) => runSettings c s keys
    | (none, s) => return (none, s)

theorem runSettings_oneLined {c c' : Settings} (hc : OneLined c) {keys : List Key} {s s' : System}
    (h : runSettings c s keys = .ok (some c', s')) : OneLined c' := by
  induction keys generalizing c s with
  | nil =>
    cases h
    exact hc
  | cons key keys ih =>
    obtain ⟨⟨o, s₁⟩, hkey, h⟩ := Foundation.bind_eq_ok.mp h
    cases o with
    | none => cases h
    | some c₁ => exact ih (setKey_oneLined hc hkey) h

/-! ### Reopening -/

/-- **The settings survive reopening, unless a field is empty**: then its default comes back. -/
theorem settings_reopened {c : Settings} (hc : OneLine c.hostname ∧ OneLine c.timezone) {s : System}
    (h : BothWritten c s.nodes) (input : TextField) :
    ∃ s' c', setSave c s = .ok s' ∧ setOpen s'.nodes input = .ok c' ∧
      c'.hostname = c.hostname.orDefault settingsFuros ∧ c'.timezone = c.timezone.orDefault settingsUtc := by
  obtain ⟨etc, t₁, t₂, t₃, hdir, h0, hhost, hzone⟩ := h
  exact setOpen_written hc hdir h0 hhost hzone input

/-- No hostname, and a timezone. -/
def noHostname : Settings := ⟨⟨0, Nat.succ_pos 2⟩, 0, false, .empty, .empty, settingsUtc, true⟩

theorem noHostname_oneLine : OneLine noHostname.hostname ∧ OneLine noHostname.timezone :=
  ⟨⟨List.not_mem_nil, List.not_mem_nil⟩, oneLine_utc⟩

/-- They are written to the first table. -/
theorem noHostname_written : BothWritten noHostname (boot blankDisk.drive).sys.nodes := by
  have hcheck : ∃ x : Int × Int × Int, (do
      let (etc, t) ← settingsDir (boot blankDisk.drive).sys.nodes
      let (r, t) ← fsWriteFile t etc (.ofLit "hostname")
        (some noHostname.hostname.chars) noHostname.hostname.chars.length
      let (r', _) ← fsWriteFile t etc (.ofLit "timezone")
        (some noHostname.timezone.chars) noHostname.timezone.chars.length
      return (etc, r, r')) = .ok x ∧ (decide (x.1 ≥ 0) && x.2.1 == 0 && x.2.2 == 0) = true :=
    Foundation.exists_of_check (by decide +kernel)
  obtain ⟨x, hrun, hx⟩ := hcheck
  obtain ⟨⟨etc, t₁⟩, hdir, hrun⟩ := Foundation.bind_eq_ok.mp hrun
  obtain ⟨⟨r, t₂⟩, hhost, hrun⟩ := Foundation.bind_eq_ok.mp hrun
  obtain ⟨⟨r', t₃⟩, hzone, hrun⟩ := Foundation.bind_eq_ok.mp hrun
  cases hrun
  simp only [Bool.and_eq_true, decide_eq_true_eq, beq_iff_eq] at hx
  obtain ⟨⟨h0, rfl⟩, rfl⟩ := hx
  exact ⟨etc, t₁, t₂, t₃, hdir, h0, hhost, hzone⟩

theorem settings_reopened_noHostname : ∃ s' c', setSave noHostname (boot blankDisk.drive).sys = .ok s' ∧
    setOpen s'.nodes .empty = .ok c' ∧ c'.hostname = noHostname.hostname.orDefault settingsFuros ∧
      c'.timezone = noHostname.timezone.orDefault settingsUtc :=
  settings_reopened noHostname_oneLine noHostname_written .empty

/-- The empty hostname comes back as `furos`. -/
theorem hostname_not_restored : ¬ ∀ (c : Settings) (s : System) (input : TextField),
    OneLine c.hostname ∧ OneLine c.timezone → BothWritten c s.nodes →
    ∃ s' c', setSave c s = .ok s' ∧ setOpen s'.nodes input = .ok c' ∧
      c'.hostname = c.hostname ∧ c'.timezone = c.timezone := by
  intro h
  obtain ⟨s', c', hsave, hopen, hsame, _⟩ := h _ _ .empty noHostname_oneLine noHostname_written
  obtain ⟨etc, t₁, t₂, t₃, hdir, h0, hhost, hzone⟩ := noHostname_written
  obtain ⟨s'', c'', hsave', hopen', hdefault, _⟩ := setOpen_written noHostname_oneLine hdir h0 hhost hzone .empty
  obtain rfl := Except.ok.inj (hsave.symm.trans hsave')
  obtain rfl := Except.ok.inj (hopen.symm.trans hopen')
  exact absurd (congrArg TextField.chars (hsame.symm.trans hdefault)) (by decide)

end FurOS.Desktop
