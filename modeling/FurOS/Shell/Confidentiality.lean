import FurOS.Disk.Persistence
import FurOS.Shell.Faults

/-! What the screen can tell of a file that its user may not read.

Two tables that differ in the bytes of one file are run side by side. Every command
but one computes what it prints from the shape of the table, or from files it has
checked: `cat` asks for the right to read, `nano` does not. -/
namespace FurOS
open Foundation (Agree)
open Foundation.Buffer (slice)

/-! ### Commands that see the shape only -/

section Shape
variable (t : Nodes) (cwd : Int)

theorem shellBuildPath_shape (node : Int) : shellBuildPath (shape t) node = shellBuildPath t node := by
  unfold shellBuildPath
  rw [fsMakePath_shape]

theorem cmdPwd_shape : cmdPwd (shape t) cwd = cmdPwd t cwd := by
  unfold cmdPwd
  rw [shellBuildPath_shape]

theorem lsEntry_shape (entry : NodeId) : lsEntry (shape t) entry = lsEntry t entry := by
  unfold lsEntry
  rw [fsGetName_shape, fsIsDir_shape]

theorem lsEntries_shape (entries : List NodeId) : lsEntries (shape t) entries = lsEntries t entries := by
  induction entries with
  | nil => rfl
  | cons entry rest ih => rw [lsEntries, lsEntries, lsEntry_shape, ih]

theorem cmdLs_shape (args : List CStr) (uid : UInt16) : cmdLs (shape t) cwd args uid = cmdLs t cwd args uid := by
  have htarget : lsTarget (shape t) cwd args = lsTarget t cwd args := by
    cases args with
    | nil => rfl
    | cons path _ => exact fsResolve_shape t cwd path
  have hentries : lsEntries (shape t) = lsEntries t := funext (lsEntries_shape t)
  unfold cmdLs
  rw [htarget]
  refine congrArg (lsTarget t cwd args >>= ·) (funext fun target => ?_)
  rw [fsIsDir_shape, fsCheckAccess_shape, fsList_shape, hentries]

theorem cmdCd_shape (args : List CStr) (uid : UInt16) : cmdCd (shape t) cwd args uid = cmdCd t cwd args uid := by
  cases args with
  | nil => rfl
  | cons path _ =>
    unfold cmdCd
    dsimp only
    rw [fsResolve_shape]
    refine congrArg (fsResolve t cwd path >>= ·) (funext fun target => ?_)
    rw [fsIsDir_shape, fsCheckAccess_shape]

theorem resolveParentPath_shape (path : CStr) :
    resolveParentPath (shape t) cwd path = resolveParentPath t cwd path := by
  unfold resolveParentPath
  simp only [fsResolve_shape, fsIsDir_shape]

theorem ensureParentWritable_shape (path : CStr) (uid : UInt16) :
    ensureParentWritable (shape t) cwd path uid = ensureParentWritable t cwd path uid := by
  unfold ensureParentWritable
  rw [resolveParentPath_shape]
  refine congrArg (resolveParentPath t cwd path >>= ·) (funext fun parent => ?_)
  cases parent with
  | none => rfl
  | some parent =>
    dsimp only
    rw [fsCheckAccess_shape]

end Shape

/-! ### Operations side by side -/

section Operations
variable {t t₂ : Nodes} {f : NodeId}

/-- The tables differ in the bytes of the used file `f` only. -/
structure Hides (f : NodeId) (t t₂ : Nodes) : Prop extends SameBut f t t₂ where
  live : (t f).used = true

/-- What a call returns and leaves: the same status, and tables that hide `f` again. -/
abbrev SameCall (f : NodeId) (x y : Int × Nodes) : Prop := x.1 = y.1 ∧ Hides f x.2 y.2

variable (h : Hides f t t₂)
include h

theorem Hides.fsIsDir (node : Int) : FurOS.fsIsDir t₂ node = FurOS.fsIsDir t node :=
  h.congr (fun t => FurOS.fsIsDir t node) fun t => fsIsDir_shape t node

theorem Hides.fsGetOwner (node : Int) : FurOS.fsGetOwner t₂ node = FurOS.fsGetOwner t node :=
  h.congr (fun t => FurOS.fsGetOwner t node) fun t => fsGetOwner_shape t node

theorem Hides.fsCheckAccess (node : Int) (user : UInt16) (mask : UInt8) :
    FurOS.fsCheckAccess t₂ node user mask = FurOS.fsCheckAccess t node user mask :=
  h.congr (fun t => FurOS.fsCheckAccess t node user mask) fun t => fsCheckAccess_shape t node user mask

theorem Hides.ensureParentWritable (cwd : Int) (path : CStr) (uid : UInt16) :
    FurOS.ensureParentWritable t₂ cwd path uid = FurOS.ensureParentWritable t cwd path uid :=
  h.congr (fun t => FurOS.ensureParentWritable t cwd path uid) fun t => ensureParentWritable_shape t cwd path uid

theorem Hides.allocNode : (allocNode t = none ∧ allocNode t₂ = none) ∨
    ∃ n t' t₂', allocNode t = some (n, t') ∧ allocNode t₂ = some (n, t₂') ∧ t₂' n = t' n ∧
      SameBut f t' t₂' ∧ n ≠ f := by
  have hfree : (fun i : NodeId => decide (i ≠ 0) && !(t₂ i).used) =
      fun i => decide (i ≠ 0) && !(t i).used := funext fun i => by rw [h.used i]
  unfold FurOS.allocNode
  rw [hfree]
  cases hn : Fin.find? fun i : NodeId => decide (i ≠ 0) && !(t i).used with
  | none => exact .inl ⟨rfl, rfl⟩
  | some n =>
    have hnf : n ≠ f := by
      intro heq
      subst heq
      have := (Fin.find?_eq_some_iff.mp hn).1
      simp [h.live] at this
    have hsame := h.other n hnf
    refine .inr ⟨n, _, _, rfl, rfl, ?_, ?_, hnf⟩
    · rw [Function.update_self, Function.update_self, hsame]
    · exact h.toSameBut.update n (by rw [hsame]) fun _ => by rw [hsame]

theorem create_hides (cwd : Int) (path : CStr) (found : Bool → Int)
    (make : Int → Name → FsNode → FsNode) :
    Agree (SameCall f) (create t cwd path found make) (create t₂ cwd path found make) := by
  have hresolve : resolveParentAndLeaf t₂ cwd path = resolveParentAndLeaf t cwd path :=
    h.congr (fun t => resolveParentAndLeaf t cwd path) fun t => resolveParentAndLeaf_shape t cwd path
  unfold create
  rw [hresolve]
  refine .bind_same fun o => ?_
  cases o with
  | none => exact .ok ⟨rfl, h⟩
  | some x =>
    have hchild : findChild t₂ x.1 x.2.chars = findChild t x.1 x.2.chars :=
      h.congr (fun t => findChild t x.1 x.2.chars) fun t => findChild_shape t _ _
    dsimp only
    rw [hchild]
    cases findChild t x.1 x.2.chars with
    | some e => exact .ok ⟨by rw [h.isDir e], h⟩
    | none =>
      rcases h.allocNode with ⟨ha, ha₂⟩ | ⟨n, t', t₂', ha, ha₂, hn, hsame, hnf⟩
      · rw [ha, ha₂]
        exact .ok ⟨rfl, h⟩
      · rw [ha, ha₂]
        exact .ok ⟨rfl, hsame.update n (by rw [hn]) fun _ => by rw [hn],
          (congrArg FsNode.used (allocNode_update_old ha _ h.live)).trans h.live⟩

theorem fsMkdirAs_hides (cwd : Int) (path : CStr) (owner mode : UInt16) :
    Agree (SameCall f) (fsMkdirAs t cwd path owner mode) (fsMkdirAs t₂ cwd path owner mode) := by
  rw [fsMkdirAs_eq, fsMkdirAs_eq]
  exact create_hides h cwd path _ _

theorem fsTouchAs_hides (cwd : Int) (path : CStr) (owner mode : UInt16) :
    Agree (SameCall f) (fsTouchAs t cwd path owner mode) (fsTouchAs t₂ cwd path owner mode) := by
  rw [fsTouchAs_eq, fsTouchAs_eq]
  exact create_hides h cwd path _ _

theorem writeNode_hides (node : Int) (src : Option (List UInt8)) (size : Nat) :
    Agree (SameCall f) (writeNode t node src size) (writeNode t₂ node src size) := by
  refine .ite (fun _ => .ok ⟨rfl, h⟩) fun _ => .bind_same fun n => ?_
  rw [h.isDir n]
  refine .ite (fun _ => .ok ⟨rfl, h⟩) fun _ => ?_
  have hcopy : Agree (fun a b => n ≠ f → b = a) (copyData (t n).data src (clampSize size))
      (copyData (t₂ n).data src (clampSize size)) := by
    unfold copyData
    cases src with
    | none => exact .ok fun hnf => by rw [h.other n hnf]
    | some src => exact .ite (fun _ => .error _) fun _ => .ok fun hnf => by rw [h.other n hnf]
  refine hcopy.bind fun a b hab => .ok ⟨rfl, h.toSameBut.update n ?_ fun hnf => ?_, ?_⟩
  · exact congrFun h.shape n
  · rw [hab hnf, h.other n hnf]
  · exact (update_field (t := t) (m := {t n with
      data := Function.update a ⟨clampSize size, clampSize_lt size⟩ 0
      size := UInt64.ofNat (clampSize size)}) FsNode.used rfl f).trans h.live

theorem fsWriteFile_hides (cwd : Int) (path : CStr) (src : Option (List UInt8)) (size : Nat) :
    Agree (SameCall f) (fsWriteFile t cwd path src size) (fsWriteFile t₂ cwd path src size) := by
  unfold fsWriteFile
  rw [h.fsResolve]
  refine .bind_same fun node => .ite (fun _ => ?_) fun _ => writeNode_hides h node src size
  refine (fsTouchAs_hides h cwd path 0 fsDefaultFileMode).bind fun x y hxy => ?_
  obtain ⟨hstatus, hxy⟩ := hxy
  dsimp only
  rw [hstatus]
  refine .ite (fun _ => .ok ⟨rfl, hxy⟩) fun _ => ?_
  rw [hxy.fsResolve]
  exact .bind_same fun node => writeNode_hides hxy node src size

theorem fsRemove_hides (cwd : Int) (path : CStr) :
    Agree (fun x y => x.1 = y.1) (fsRemove t cwd path) (fsRemove t₂ cwd path) := by
  unfold fsRemove
  rw [h.fsResolve]
  refine .bind_same fun node => .ite (fun _ => .ok rfl) fun _ => .bind_same fun n => ?_
  have hparent : ∀ i, (t₂ i).parent = (t i).parent := h.field FsNode.parent fun _ => rfl
  simp only [h.isDir, h.used, hparent]
  exact .ite (fun _ => .ok rfl) fun _ => .ok rfl

/-- A file other than `f` is read the same. -/
theorem fsReadFile_hides {cwd : Int} {path : CStr} (hf : fsResolve t cwd path ≠ .ok (f.val : Int)) :
    fsReadFile t₂ cwd path = fsReadFile t cwd path := by
  unfold fsReadFile
  rw [h.fsResolve]
  cases hr : fsResolve t cwd path with
  | error e => rfl
  | ok node =>
    rw [Foundation.ok_bind, Foundation.ok_bind]
    split
    · rfl
    · cases hn : nodeIndex node with
      | error e => rfl
      | ok n =>
        have hnf : n ≠ f := by
          intro heq
          subst heq
          rw [nodeIndex_eq_ok.mp hn] at hr
          exact hf hr
        rw [Foundation.ok_bind, Foundation.ok_bind, h.other n hnf]

/-! ### Commands side by side -/

/-- What is printed is the same. -/
abbrev SameText (x y : Text × Nodes) : Prop := x.1 = y.1

theorem cmdMkdir_hides (cwd : Int) (args : List CStr) (uid : UInt16) :
    Agree SameText (cmdMkdir t cwd args uid) (cmdMkdir t₂ cwd args uid) := by
  cases args with
  | nil => exact .ok rfl
  | cons path _ =>
    unfold cmdMkdir
    dsimp only
    rw [h.fsResolve]
    refine .bind_same fun existing => .ite (fun _ => .ok ?_) fun _ => ?_
    · rw [SameText, h.fsIsDir]
    rw [h.ensureParentWritable]
    refine .bind_same fun o => ?_
    cases o with
    | some text => exact .ok rfl
    | none =>
      exact (fsMkdirAs_hides h cwd path uid fsDefaultDirMode).bind fun x y hxy => .ok (by rw [SameText, hxy.1])

theorem cmdTouch_hides (cwd : Int) (args : List CStr) (uid : UInt16) :
    Agree SameText (cmdTouch t cwd args uid) (cmdTouch t₂ cwd args uid) := by
  cases args with
  | nil => exact .ok rfl
  | cons path _ =>
    unfold cmdTouch
    dsimp only
    rw [h.fsResolve]
    refine .bind_same fun node => .ite (fun _ => .ok ?_) fun _ => ?_
    · rw [SameText, h.fsIsDir, h.fsCheckAccess]
    rw [h.ensureParentWritable]
    refine .bind_same fun o => ?_
    cases o with
    | some text => exact .ok rfl
    | none =>
      exact (fsTouchAs_hides h cwd path uid fsDefaultFileMode).bind fun x y hxy => .ok (by rw [SameText, hxy.1])

theorem cmdWrite_hides (cwd : Int) (args : List CStr) :
    Agree SameText (cmdWrite t cwd args) (cmdWrite t₂ cwd args) := by
  unfold cmdWrite
  split
  · rename_i path word words
    exact (fsWriteFile_hides h cwd path _ _).bind fun x y hxy => .ok (by rw [SameText, hxy.1])
  · exact .ok rfl

theorem cmdRm_hides (cwd : Int) (args : List CStr) :
    Agree SameText (cmdRm t cwd args) (cmdRm t₂ cwd args) := by
  cases args with
  | nil => exact .ok rfl
  | cons path _ =>
    exact (fsRemove_hides h cwd path).bind fun x y hxy => .ok (by rw [SameText, hxy])

theorem cmdChmod_hides (cwd : Int) (args : List CStr) (uid : UInt16) :
    Agree SameText (cmdChmod t cwd args uid) (cmdChmod t₂ cwd args uid) := by
  unfold cmdChmod
  split
  · split
    · exact .ok rfl
    rw [h.fsResolve]
    refine .bind_same fun node => .ite (fun _ => .ok rfl) fun _ => ?_
    rw [h.fsGetOwner]
    exact .ite (fun _ => .ok rfl) fun _ => .ok rfl
  · exact .ok rfl

theorem cmdChown_hides (cwd : Int) (args : List CStr) (uid : UInt16) :
    Agree SameText (cmdChown t cwd args uid) (cmdChown t₂ cwd args uid) := by
  unfold cmdChown
  split
  · split
    · exact .ok rfl
    split
    · exact .ok rfl
    rw [h.fsResolve]
    exact .bind_same fun node => .ite (fun _ => .ok rfl) fun _ => .ok rfl
  · exact .ok rfl

/-- `cat` reads what its user may read. -/
theorem cmdCat_hides {uid : UInt16} (hf : fsCheckAccess t f.val uid fsAccessRead = false) (cwd : Int)
    (args : List CStr) : cmdCat t₂ cwd args uid = cmdCat t cwd args uid := by
  cases args with
  | nil => rfl
  | cons path _ =>
    unfold cmdCat
    dsimp only
    rw [h.fsResolve]
    cases hr : fsResolve t cwd path with
    | error e => rfl
    | ok node =>
      rw [Foundation.ok_bind, Foundation.ok_bind, h.fsIsDir, h.fsCheckAccess]
      by_cases hnode : node = f.val
      · rw [hnode, hf]
        rfl
      · rw [fsReadFile_hides h (by rw [hr]; exact fun heq => hnode (Except.ok.inj heq))]

/-- The editor prints what is typed, whatever the file holds meanwhile. -/
theorem nanoLoop_hides (cwd : Int) (path : CStr) (buffer : NanoBuffer) (dirty : Bool) (keys : List UInt8) :
    Agree (fun x y => x.2 = y.2) (nanoLoop t cwd path buffer dirty keys)
      (nanoLoop t₂ cwd path buffer dirty keys) := by
  induction keys generalizing t t₂ buffer dirty with
  | nil => exact .ok rfl
  | cons k keys ih =>
    have hsave := fsWriteFile_hides h cwd path (some buffer.chars) buffer.chars.length
    rw [nanoLoop, nanoLoop]
    refine .ite (fun _ => ?_) fun _ => .ite (fun _ => ?_) fun _ => ?_
    · refine hsave.bind fun x y hxy => (ih hxy.2 buffer false).bind fun x y hxy => .ok ?_
      show (println "\n[saved]" ++ x.2.1, x.2.2) = (println "\n[saved]" ++ y.2.1, y.2.2)
      rw [hxy]
    · exact .ite (fun _ => hsave.bind fun _ _ _ => .ok rfl) fun _ => .ok rfl
    cases nanoKey buffer k with
    | none => exact ih h buffer dirty
    | some z =>
      refine (ih h z.1 true).bind fun x y hxy => .ok ?_
      show (z.2 :: x.2.1, x.2.2) = (z.2 :: y.2.1, y.2.2)
      rw [hxy]

/-- The editor on a file other than `f`. -/
theorem cmdNano_hides (cwd : Int) (path : CStr) (args : List CStr) (keys : List UInt8)
    (hf : ∀ t', fsTouch t cwd path = .ok (0, t') → fsResolve t' cwd path ≠ .ok (f.val : Int)) :
    Agree (fun x y => x.2 = y.2) (cmdNano t cwd (path :: args) keys) (cmdNano t₂ cwd (path :: args) keys) := by
  refine (fsTouchAs_hides h cwd path 0 fsDefaultFileMode).bind_of_ok fun x y hx hxy => ?_
  obtain ⟨status, t'⟩ := x
  obtain ⟨status₂, t₂'⟩ := y
  obtain ⟨rfl, h'⟩ := hxy
  refine .ite (fun _ => .ok rfl) fun hstatus => ?_
  obtain rfl : status = 0 := not_not.mp hstatus
  unfold nanoOpen
  rw [fsReadFile_hides h' (hf t' hx)]
  refine .bind_same fun o => ?_
  cases o with
  | none => exact .ok rfl
  | some _ =>
    refine .bind_same fun buffer => (nanoLoop_hides h' cwd path buffer false keys).bind fun x y hxy => .ok ?_
    show (nanoHeader ++ nanoShow buffer ++ x.2.1, x.2.2) = (nanoHeader ++ nanoShow buffer ++ y.2.1, y.2.2)
    rw [hxy]

end Operations

/-! ### The disk side by side -/

/-- Drives that will answer alike. -/
structure SameDrive (d d' : Drive) : Prop where
  ops : d'.ops = d.ops
  outcome : d'.outcome = d.outcome

structure SameDevice (d d' : Disk) : Prop where
  lastError : d'.lastError = d.lastError
  drive : SameDrive d.drive d'.drive

/-- What a write answers does not depend on what is written. -/
theorem ataWriteSector_same {d d' : Drive} (h : SameDrive d d') (lba : Nat) (buffer buffer' : Sector) :
    (ataWriteSector d' lba buffer').1 = (ataWriteSector d lba buffer).1 ∧
      SameDrive (ataWriteSector d lba buffer).2 (ataWriteSector d' lba buffer').2 := by
  have hup : d'.upcoming = d.upcoming := by rw [Drive.upcoming, Drive.upcoming, h.ops, h.outcome]
  unfold ataWriteSector
  rw [hup]
  cases d.upcoming with
  | ok => exact ⟨rfl, congrArg (· + 1) h.ops, h.outcome⟩
  | failed message left => exact ⟨rfl, congrArg (· + 1) h.ops, h.outcome⟩

theorem writePayload_same {d d' : Disk} (hd : SameDevice d d') (i count : Nat) (h : i + count ≤ 4095) :
    (writePayload d' i count h).1 = (writePayload d i count h).1 ∧
      SameDevice (writePayload d i count h).2 (writePayload d' i count h).2 := by
  induction count generalizing d d' i with
  | zero => exact ⟨rfl, hd⟩
  | succ count ih =>
    have hw := ataWriteSector_same hd.drive (2048 + 1 + i)
      (slice d.payload (i * 512) 512 (by omega)) (slice d'.payload (i * 512) 512 (by omega))
    rw [writePayload, writePayload]
    rcases hx : ataWriteSector d.drive (2048 + 1 + i) (slice d.payload (i * 512) 512 (by omega)) with ⟨m, e⟩
    rcases hy : ataWriteSector d'.drive (2048 + 1 + i) (slice d'.payload (i * 512) 512 (by omega)) with ⟨m', e'⟩
    rw [hx, hy] at hw
    obtain ⟨hm, hdrive⟩ := hw
    dsimp only at hm hdrive
    subst hm
    cases m' with
    | some message => exact ⟨rfl, rfl, hdrive⟩
    | none =>
      have hnext : SameDevice {d with drive := e} {d' with drive := e'} := ⟨hd.lastError, hdrive⟩
      exact ih hnext (i + 1) (by omega)

theorem savePayload_same {d d' : Disk} (hd : SameDevice d d') (size : Nat) (h : size ≤ 2096640) :
    (savePayload d' size h).1 = (savePayload d size h).1 ∧
      (savePayload d' size h).2.lastError = (savePayload d size h).2.lastError := by
  have hw := ataWriteSector_same hd.drive 2048
    (DiskHeader.field.store (fun _ => 0) 0 (payloadHeader d.payload size h))
    (DiskHeader.field.store (fun _ => 0) 0 (payloadHeader d'.payload size h))
  unfold savePayload
  dsimp only
  rcases hx : ataWriteSector d.drive 2048
    (DiskHeader.field.store (fun _ => 0) 0 (payloadHeader d.payload size h)) with ⟨m, e⟩
  rcases hy : ataWriteSector d'.drive 2048
    (DiskHeader.field.store (fun _ => 0) 0 (payloadHeader d'.payload size h)) with ⟨m', e'⟩
  rw [hx, hy] at hw
  obtain ⟨hm, hdrive⟩ := hw
  dsimp only at hm hdrive
  subst hm
  cases m' with
  | some message => exact ⟨rfl, rfl⟩
  | none =>
    have hnext : SameDevice
        {d with sector := DiskHeader.field.store (fun _ => 0) 0 (payloadHeader d.payload size h), drive := e}
        {d' with sector := DiskHeader.field.store (fun _ => 0) 0 (payloadHeader d'.payload size h), drive := e'} :=
      ⟨hd.lastError, hdrive⟩
    have hall := writePayload_same hnext 0 (sectorCount size) (by unfold sectorCount; omega)
    dsimp only
    rw [hall.1]
    split
    · exact ⟨rfl, hall.2.lastError⟩
    · exact ⟨rfl, rfl⟩

/-- What a save answers does not depend on the table. -/
theorem diskSaveFs_same (t t₂ : Nodes) (d : Disk) :
    (diskSaveFs t₂ d).1 = (diskSaveFs t d).1 ∧
      diskLastError (diskSaveFs t₂ d).2 = diskLastError (diskSaveFs t d).2 := by
  by_cases hsel : 0 ≤ d.selectedDisk
  · have hd : SameDevice {d with payload := (fsSerialize t d.payload).2}
        {d with payload := (fsSerialize t₂ d.payload).2} := ⟨rfl, rfl, rfl⟩
    rw [diskSaveFs_eq hsel, diskSaveFs_eq hsel]
    exact savePayload_same hd 530192 (by decide)
  · have hno : ¬ diskAvailable d = true := by simpa [diskAvailable] using hsel
    unfold diskSaveFs
    rw [if_pos (by simpa using hno), if_pos (by simpa using hno)]
    exact ⟨rfl, rfl⟩

/-- What a load answers does not depend on the table. -/
theorem diskLoadFs_same (t t₂ : Nodes) (d : Disk) :
    (diskLoadFs t₂ d).1 = (diskLoadFs t d).1 ∧ (diskLoadFs t₂ d).2.2 = (diskLoadFs t d).2.2 := by
  have hdecode : ∀ (d : Disk) {len : Nat} (image : Fin len → UInt8) (checksum : UInt32),
      (decodePayload t₂ d image checksum).1 = (decodePayload t d image checksum).1 ∧
        (decodePayload t₂ d image checksum).2.2 = (decodePayload t d image checksum).2.2 := by
    intro d len image checksum
    unfold decodePayload
    split
    · exact ⟨rfl, rfl⟩
    unfold fsDeserialize
    cases readRecords image with
    | none => exact ⟨rfl, rfl⟩
    | some records =>
      dsimp only
      exact ⟨rfl, rfl⟩
  unfold diskLoadFs
  split
  · exact ⟨rfl, rfl⟩
  split
  · exact ⟨rfl, rfl⟩
  dsimp only
  split
  · exact ⟨rfl, rfl⟩
  unfold loadPayload
  split
  · exact ⟨rfl, rfl⟩
  dsimp only
  split
  · exact ⟨rfl, rfl⟩
  · exact hdecode ..

/-! ### Command lines side by side -/

/-- All that has been asked of the screen when a line ends or waits for a key. -/
def shown : Except Stop System → Option Text
  | .ok s => some s.screen
  | .error (.waiting s) => some s.screen
  | .error (.fault _) => none

section Lines
variable (s : System) (t₂ : Nodes)

theorem shown_shows {x y : Except Fault Text} (h : y = x) :
    shown (System.shows {s with nodes := t₂} y) = shown (s.shows x) := by
  subst h
  cases y with
  | error e => rfl
  | ok text => rfl

theorem shown_moves {x y : Except Fault (Text × Int)} (h : y = x) :
    shown (System.moves {s with nodes := t₂} y) = shown (s.moves x) := by
  subst h
  cases y with
  | error e => rfl
  | ok a => rfl

theorem shown_edits {x y : Except Fault (Text × Nodes)} (h : Agree SameText x y) :
    shown (System.edits {s with nodes := t₂} y) = shown (s.edits x) := by
  cases h with
  | error e => rfl
  | ok hab =>
    show some (s.screen ++ _) = some (s.screen ++ _)
    rw [hab]

theorem shown_types {x y : Except Fault (Nodes × Text × Option (List UInt8))}
    (h : Agree (fun x y => x.2 = y.2) x y) :
    shown (System.types {s with nodes := t₂} y) = shown (s.types x) := by
  cases h with
  | error e => rfl
  | @ok a b hab =>
    obtain ⟨t, text, rest⟩ := a
    obtain ⟨t', text', rest'⟩ := b
    obtain ⟨rfl, rfl⟩ := Prod.mk.inj hab
    cases rest with
    | none => rfl
    | some keys => rfl

theorem shown_cmdSync : (cmdSync {s with nodes := t₂}).screen = (cmdSync s).screen := by
  obtain ⟨hstatus, herror⟩ := diskSaveFs_same s.nodes t₂ s.disk
  unfold cmdSync
  dsimp only
  rw [hstatus, herror]
  split
  · rfl
  · rfl

theorem shown_cmdDisk (args : List CStr) :
    (cmdDisk args {s with nodes := t₂}).screen = (cmdDisk args s).screen := by
  unfold cmdDisk
  split
  · rfl
  split
  · rfl
  split
  · obtain ⟨hstatus, hdisk⟩ := diskLoadFs_same s.nodes t₂ s.disk
    unfold diskLoad
    dsimp only
    rw [hstatus, hdisk]
    split
    · rfl
    · rfl
  split
  · exact shown_cmdSync s t₂
  split
  · rfl
  · rfl

theorem shown_cmdInstall : shown (cmdInstall {s with nodes := t₂}) = shown (cmdInstall s) := by
  unfold cmdInstall
  dsimp only [System.print]
  split
  · rfl
  · rfl

end Lines

/-- The line opens `f` in the editor: `fs_touch` accepts its path, which leads to `f` then. -/
def Opens (t : Nodes) (cwd : Int) (f : NodeId) : List CStr → Prop
  | name :: path :: _ => name.is "nano" = true ∧
      ∃ t', fsTouch t cwd path = .ok (0, t') ∧ fsResolve t' cwd path = .ok (f.val : Int)
  | _ => False

/-- A line that does not open `f` prints the same, whatever `f` holds. -/
theorem shown_shellDispatch {s : System} {t₂ : Nodes} {f : NodeId} (h : Hides f s.nodes t₂)
    (hread : fsCheckAccess s.nodes f.val s.shellUid fsAccessRead = false) {argv : List CStr}
    (hsudo : ∀ name ∈ argv.head?, name.is "sudo" = false) (hopens : ¬ Opens s.nodes s.shellCwd f argv) :
    shown (shellDispatch argv {s with nodes := t₂}) = shown (shellDispatch argv s) := by
  cases argv with
  | nil => rfl
  | cons name args =>
    simp only [shellDispatch]
    cases hk : commandOf name with
    | help | clear | whoami | id | logout | apt | networkmanager | nmcli | ifconfig | unknown => rfl
    | pwd => exact shown_shows s t₂ (h.congr (fun t => cmdPwd t s.shellCwd) fun t => cmdPwd_shape t _)
    | ls =>
      exact shown_shows s t₂ (h.congr (fun t => cmdLs t s.shellCwd args s.shellUid) fun t => cmdLs_shape t _ _ _)
    | cd =>
      exact shown_moves s t₂ (h.congr (fun t => cmdCd t s.shellCwd args s.shellUid) fun t => cmdCd_shape t _ _ _)
    | cat => exact shown_shows s t₂ (cmdCat_hides h hread _ args)
    | mkdir => exact shown_edits s t₂ (cmdMkdir_hides h _ args _)
    | touch => exact shown_edits s t₂ (cmdTouch_hides h _ args _)
    | write => exact shown_edits s t₂ (cmdWrite_hides h _ args)
    | rm => exact shown_edits s t₂ (cmdRm_hides h _ args)
    | chmod => exact shown_edits s t₂ (cmdChmod_hides h _ args _)
    | chown => exact shown_edits s t₂ (cmdChown_hides h _ args _)
    | nano =>
      refine shown_types s t₂ ?_
      cases args with
      | nil => exact .ok rfl
      | cons path rest =>
        have hname : name.is "nano" = true := commandOf_nano_iff.mp hk
        exact cmdNano_hides h _ path rest _ fun t' ht hr => hopens ⟨hname, t', ht, hr⟩
    | sync => exact congrArg some (shown_cmdSync s t₂)
    | disk => exact congrArg some (shown_cmdDisk s t₂ args)
    | install => exact shown_cmdInstall s t₂
    | «sudo» =>
      have := hsudo name rfl
      rw [commandOf_sudo_iff.mp hk] at this
      cases this

/-! ### What the editor reveals -/

/-- The editor begins with the file it has opened. -/
theorem shown_nano {s : System} {name path : CStr} (rest : List CStr) (hname : name.is "nano" = true)
    {t' : Nodes} (htouch : fsTouch s.nodes s.shellCwd path = .ok (0, t')) {f : NodeId}
    (hr : fsResolve t' s.shellCwd path = .ok (f.val : Int)) (hfile : (t' f).isDir = false)
    (hf : Contained (t' f)) :
    ∃ text, shown (shellDispatch (name :: path :: rest) s) =
      some (s.screen ++ (nanoHeader ++ (vgaWriteString ((contents (t' f)).takeWhile (· ≠ 0)) ++ text))) := by
  obtain ⟨text, left, hnano, _⟩ := cmdNano_opened htouch hr hfile rest s.keys
  refine ⟨text, ?_⟩
  simp only [shellDispatch]
  rw [commandOf_nano_iff.mpr hname]
  dsimp only
  rw [hnano, nanoShow, ofData_chars hf, List.append_assoc]
  cases left with
  | none => rfl
  | some keys => rfl

/-- What the editor shows of `f` filled with one byte. -/
theorem shown_filled {s : System} {f : NodeId} (wf : WellFormed s.nodes) (hf : (s.nodes f).used = true)
    (hfile : (s.nodes f).isDir = false) {argv : List CStr} (hopens : Opens s.nodes s.shellCwd f argv)
    {b : UInt8} (hb : b ≠ 0) :
    ∃ text, shown (shellDispatch argv
        {s with nodes := Function.update s.nodes f (fillNode (s.nodes f) [b])}) =
      some (s.screen ++ (nanoHeader ++ (.putchar b :: text))) := by
  obtain _ | ⟨name, _ | ⟨path, rest⟩⟩ := argv
  · cases hopens
  · cases hopens
  obtain ⟨hname, t', htouch, hr⟩ := hopens
  have hfill := refilled_fillNode s.nodes f [b]
  have h : Hides f s.nodes (Function.update s.nodes f (fillNode (s.nodes f) [b])) := ⟨hfill.toSameBut, hf⟩
  have hagree := fsTouchAs_hides h s.shellCwd path 0 fsDefaultFileMode
  rw [show fsTouchAs s.nodes s.shellCwd path 0 fsDefaultFileMode = .ok (0, t') from htouch] at hagree
  rcases hy : fsTouchAs (Function.update s.nodes f (fillNode (s.nodes f) [b])) s.shellCwd path 0
    fsDefaultFileMode with e | ⟨status, t''⟩
  · rw [hy] at hagree
    cases hagree
  rw [hy] at hagree
  obtain ⟨hstatus, h'⟩ : (0 : Int) = status ∧ Hides f t' t'' := by
    cases hagree with
    | ok hab => exact hab
  subst hstatus
  have hkept : t'' f = fillNode (s.nodes f) [b] :=
    (fsTouchAs_old hy ((hfill.used f).trans hf)).trans (Function.update_self ..)
  have hcontents : contents (fillNode (s.nodes f) [b]) = [b] := by
    rw [contents_fillNode]
    rfl
  obtain ⟨text, ht⟩ := shown_nano (s := {s with nodes := Function.update s.nodes f (fillNode (s.nodes f) [b])})
    rest hname hy ((h'.fsResolve _ _).trans hr) (hkept ▸ hfile)
    (hkept ▸ fillNode_contained _ _ (wf.contained f hf).mode)
  refine ⟨text, ht.trans ?_⟩
  have hshow : [b].takeWhile (fun c => decide (c ≠ 0)) = [b] := by simp [hb]
  dsimp only
  rw [hkept, hcontents, hshow]
  rfl

/-- **The bytes of a file that its user may not read stay off the screen exactly while the line does
not open it in the editor.** -/
theorem shellDispatch_confidential (s : System) (wf : WellFormed s.nodes) (argv : List CStr)
    (hsudo : ∀ name ∈ argv.head?, name.is "sudo" = false) (f : NodeId) (hf : (s.nodes f).used = true)
    (hfile : (s.nodes f).isDir = false)
    (hread : fsCheckAccess s.nodes f.val s.shellUid fsAccessRead = false) :
    (∀ t₂, WellFormed t₂ → SameBut f s.nodes t₂ →
      shown (shellDispatch argv {s with nodes := t₂}) = shown (shellDispatch argv s)) ↔
      ¬ Opens s.nodes s.shellCwd f argv := by
  constructor
  · intro h hopens
    have hsame : ∀ b : UInt8, shown (shellDispatch argv
        {s with nodes := Function.update s.nodes f (fillNode (s.nodes f) [b])}) = shown (shellDispatch argv s) := by
      intro b
      have hfill := refilled_fillNode s.nodes f [b]
      exact h _ (hfill.wellFormed wf hf) hfill.toSameBut
    obtain ⟨text₁, h₁⟩ := shown_filled wf hf hfile hopens (b := 1) (by decide)
    obtain ⟨text₂, h₂⟩ := shown_filled wf hf hfile hopens (b := 2) (by decide)
    rw [hsame] at h₁ h₂
    rw [h₁] at h₂
    have htext := List.append_cancel_left (List.append_cancel_left (Option.some.inj h₂))
    have := (List.cons.inj htext).1
    simp at this
  · intro hopens t₂ _ h
    exact shown_shellDispatch ⟨h, hf⟩ hread hsudo hopens

/-- A session of the first user at the root of a table. -/
def session (t : Nodes) (keys : List UInt8) : System :=
  { nodes := t
    disk := blankDisk
    shellCwd := fsGetRoot
    shellUid := shellUidDebian
    shellExit := false
    network := .initial
    keys := keys
    screen := [] }

/-- A file of root that nobody else may read. -/
theorem fsTouchAs_secret : ∃ t, fsTouchAs fsInit fsGetRoot (.ofLit "s") 0 0o600 = .ok (0, t) ∧
    WellFormed t ∧ (t 1).used = true ∧ (t 1).isDir = false ∧
    fsCheckAccess t ((1 : NodeId).val : Int) shellUidDebian fsAccessRead = false ∧
    Opens t fsGetRoot 1 [.ofLit "nano", .ofLit "s"] := by
  have hcheck : ∃ x, fsTouchAs fsInit fsGetRoot (.ofLit "s") 0 0o600 = .ok x ∧
      (decide (x.1 = 0) && (x.2 1).used && !(x.2 1).isDir &&
        !fsCheckAccess x.2 ((1 : NodeId).val : Int) shellUidDebian fsAccessRead) = true :=
    Foundation.exists_of_check (by decide +kernel)
  have hagain : ∃ x, (fsTouchAs fsInit fsGetRoot (.ofLit "s") 0 0o600 >>= fun x =>
      fsTouch x.2 fsGetRoot (.ofLit "s") >>= fun y => fsResolve y.2 fsGetRoot (.ofLit "s") >>= fun n =>
        .ok (y.1, n)) = .ok x ∧ decide (x = (0, 1)) = true :=
    Foundation.exists_of_check (by decide +kernel)
  obtain ⟨⟨r, t⟩, hop, hall⟩ := hcheck
  simp only [Bool.and_eq_true, decide_eq_true_eq, Bool.not_eq_true'] at hall
  obtain ⟨⟨⟨rfl, hused⟩, hfile⟩, hread⟩ := hall
  obtain ⟨x, hx, hx'⟩ := hagain
  obtain rfl : x = (0, 1) := of_decide_eq_true hx'
  rw [hop, Foundation.ok_bind] at hx
  obtain ⟨⟨r₁, t₁⟩, htouch, hx⟩ := Foundation.bind_eq_ok.mp hx
  obtain ⟨n, hn, hx⟩ := Foundation.bind_eq_ok.mp hx
  obtain ⟨rfl, rfl⟩ := Prod.mk.inj (Except.ok.inj hx)
  obtain ⟨r', t', hop', hcr⟩ := fsTouchAs_ok wellFormed_fsInit wellFormed_fsInit.root_used
    wellFormed_fsInit.root_dir (.ofLit "s") 0 0o600
  have heq := hop.symm.trans hop'
  cases heq
  exact ⟨t, hop, hcr.wellFormed wellFormed_fsInit, hused, hfile, hread, by decide, t₁, htouch, hn⟩

/-- `cat s`. -/
theorem shellDispatch_confidential_cat : ∃ t, fsTouchAs fsInit fsGetRoot (.ofLit "s") 0 0o600 = .ok (0, t) ∧
    ∀ t₂, WellFormed t₂ → SameBut 1 t t₂ →
      shown (shellDispatch [.ofLit "cat", .ofLit "s"] (session t₂ [])) =
        shown (shellDispatch [.ofLit "cat", .ofLit "s"] (session t [])) := by
  obtain ⟨t, hop, wf, hused, hfile, hread, _⟩ := fsTouchAs_secret
  refine ⟨t, hop, (shellDispatch_confidential (session t []) wf _ ?_ 1 hused hfile hread).mpr ?_⟩
  · intro name h
    obtain ⟨⟩ := h
    decide
  · intro h
    obtain ⟨hname, _⟩ := h
    exact absurd hname (by decide)

/-- `nano s`. -/
theorem shellDispatch_nano_reveals : ∃ t, fsTouchAs fsInit fsGetRoot (.ofLit "s") 0 0o600 = .ok (0, t) ∧
    WellFormed t ∧ fsCheckAccess t ((1 : NodeId).val : Int) shellUidDebian fsAccessRead = false ∧
    ∃ t₁ t₂, WellFormed t₁ ∧ WellFormed t₂ ∧ SameBut 1 t t₁ ∧ SameBut 1 t t₂ ∧
      (shown (shellDispatch [.ofLit "nano", .ofLit "s"] (session t₁ [keyExit]))).map written ≠
        (shown (shellDispatch [.ofLit "nano", .ofLit "s"] (session t₂ [keyExit]))).map written := by
  obtain ⟨t, hop, wf, hused, hfile, hread, hopens⟩ := fsTouchAs_secret
  have hfill₁ := refilled_fillNode t 1 [97]
  have hfill₂ := refilled_fillNode t 1 [98]
  refine ⟨t, hop, wf, hread, _, _, hfill₁.wellFormed wf hused, hfill₂.wellFormed wf hused,
    hfill₁.toSameBut, hfill₂.toSameBut, ?_⟩
  obtain ⟨text₁, h₁⟩ := shown_filled (s := session t [keyExit]) wf hused hfile hopens (b := 97) (by decide)
  obtain ⟨text₂, h₂⟩ := shown_filled (s := session t [keyExit]) wf hused hfile hopens (b := 98) (by decide)
  intro h
  have hsame := (congrArg (Option.map written) h₁).symm.trans (h.trans (congrArg (Option.map written) h₂))
  simp only [Option.map_some, written_append] at hsame
  have htext := List.append_cancel_left (List.append_cancel_left (Option.some.inj hsame))
  have := (List.cons.inj htext).1
  simp at this

end FurOS
