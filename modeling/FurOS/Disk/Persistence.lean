import FurOS.Disk.Transfer
import FurOS.Fs.Decoding

/-! What survives saving, failing and loading.

A completed save is loaded back whole, but for the root, whose owner and mode every
load resets. Saving is not atomic: it overwrites the header and then the image in
place, and the byte sum is all that tells a mixture of two images from either. A
load that fails leaves the table alone unless the image is good up to its root. -/
namespace FurOS
open Foundation (Field)
open Foundation.Buffer (slice byteSum)

/-! ### The image area -/

theorem payloadHeader_fsSerialize (t : Nodes) (payload : Fin 2096640 → UInt8) :
    payloadHeader (fsSerialize t payload).2 530192 (by decide) = savedHeader t := by
  unfold payloadHeader savedHeader
  rw [slice_fsSerialize]

/-- The bytes of the image area after `n` writes of a save: the new image up to there, then what
there was. -/
theorem SavedPart.bytes {t : Nodes} {payload : Fin 2096640 → UInt8} {header : DiskHeader} {n : Nat}
    {before after : Nat → Sector} (h : SavedPart header (fsSerialize t payload).2 n before after)
    (hn : 0 < n) (x : Fin 530192) : storedByte after x.val =
      if x.val < 512 * (n - 1) then fsImage t x else storedByte before x.val := by
  have hx := x.isLt
  unfold storedByte
  split
  · rw [h.image (x.val / 512) (by omega) (by omega), ← slice_fsSerialize t payload (by decide)]
    unfold slice
    refine congrArg _ (Fin.ext ?_)
    show x.val / 512 * 512 + x.val % 512 = 0 + x.val
    omega
  · rw [h.other (2049 + x.val / 512) (by omega)]

/-- The header, and an image of the right length with the right byte sum. -/
theorem storedImage_of_bytes {t : Nodes} {d : Disk} {image : Fin 530192 → UInt8}
    (hsel : 0 ≤ d.selectedDisk) (hh : d.drive.Healthy)
    (hheader : storedHeader d.drive.sectors = savedHeader t)
    (hbytes : ∀ x : Fin 530192, storedByte d.drive.sectors x.val = image x)
    (hsum : byteSum image = byteSum (fsImage t)) : StoredImage d image where
  selected := hsel
  header_read := hh 0
  installed := by rw [hheader, savedHeader_installed]
  length := by rw [hheader, savedHeader_payloadSize]
  nonempty := by decide
  fits := by decide
  image_read := fun k _ => by rw [Nat.add_assoc]; exact hh (1 + k)
  bytes := fun x => (hbytes x).symm
  checksum := by rw [hheader, hsum, savedHeader_checksum]

/-- Where a header is stored, no image with another byte sum is. -/
theorem not_storedImage_of_bytes {t : Nodes} {d : Disk} {image : Fin 530192 → UInt8}
    (hheader : storedHeader d.drive.sectors = savedHeader t)
    (hbytes : ∀ x : Fin 530192, storedByte d.drive.sectors x.val = image x)
    (hsum : byteSum image ≠ byteSum (fsImage t)) :
    ¬ ∃ (len : Nat) (image : Fin len → UInt8), StoredImage d image := by
  intro hs
  obtain ⟨len, image', h⟩ := hs
  have hlen := h.length
  rw [hheader, savedHeader_payloadSize] at hlen
  subst hlen
  have himage : image' = image := funext fun x => (h.bytes x).trans (hbytes x)
  apply hsum
  rw [← himage, h.checksum, hheader, savedHeader_checksum]

/-! ### A completed save -/

theorem sectorCount_image : sectorCount 530192 = 1036 := by decide

/-- A save on a selected disk whose writes succeed. -/
theorem diskSaveFs_ok {d : Disk} (hsel : 0 ≤ d.selectedDisk)
    (hok : ∀ k < 1037, d.drive.outcome (d.drive.ops + k) = .ok) (t : Nodes) :
    (diskSaveFs t d).1 = 0 ∧ (diskSaveFs t d).2.selectedDisk = d.selectedDisk ∧
      Saved t (diskSaveFs t d).2.drive.sectors := by
  obtain ⟨hstatus, hsel', hpart⟩ := savePayload_ok {d with payload := (fsSerialize t d.payload).2} 530192
    (by decide) (by rw [sectorCount_image]; exact hok)
  rw [diskSaveFs_eq hsel]
  refine ⟨hstatus, hsel', ?_, fun x => ?_⟩
  · rw [hpart.header (by omega), payloadHeader_fsSerialize]
  · have hx := x.isLt
    rw [hpart.bytes (by omega) x, if_pos (by rw [sectorCount_image]; omega)]

/-- A save returns 0 only on a selected disk and when every write succeeded. -/
theorem diskSaveFs_eq_zero {d : Disk} {t : Nodes} (h : (diskSaveFs t d).1 = 0) :
    0 ≤ d.selectedDisk ∧ ∀ k < 1037, d.drive.outcome (d.drive.ops + k) = .ok := by
  have hsel : 0 ≤ d.selectedDisk := by
    by_contra hneg
    unfold diskSaveFs at h
    rw [if_pos (by simp [diskAvailable]; omega)] at h
    cases h
  refine ⟨hsel, ?_⟩
  by_contra hbad
  push Not at hbad
  classical
  obtain ⟨hlt, hne⟩ := Nat.find_spec hbad
  have hok : ∀ k < Nat.find hbad, d.drive.outcome (d.drive.ops + k) = .ok := by
    intro k hk
    by_contra hne
    exact Nat.find_min hbad hk ⟨by omega, hne⟩
  cases hout : d.drive.outcome (d.drive.ops + Nat.find hbad) with
  | ok => exact hne hout
  | failed message left =>
    have := (savePayload_failed {d with payload := (fsSerialize t d.payload).2} 530192 (by decide)
      (Nat.find hbad) (by rw [sectorCount_image]; omega) hok hout).1
    rw [diskSaveFs_eq hsel, this] at h
    cases h

/-- What a table must be for its image to be accepted and to lose nothing but the root's owner
and mode. -/
structure Savable (t : Nodes) : Prop where
  normal : ∀ i, Normal (t i)
  used : (t 0).used = true
  dir : (t 0).isDir = true

theorem FsReachable.savable {t : Nodes} (h : FsReachable t) : Savable t :=
  ⟨h.invariant.2, h.invariant.1.root_used, h.invariant.1.root_dir⟩

theorem fsDeserialize_fsImage {t : Nodes} (h : Savable t) (t' : Nodes) :
    fsDeserialize t' (fsImage t) = (0, resetRoot t) :=
  fsDeserialize_fsSerialize h.normal h.used h.dir _ _ (le_refl _) _ t'

/-- A saved table is loaded by any later load whose reads succeed. -/
theorem diskLoadFs_saved {s : Nodes} (hs : Savable s) {d : Disk} (hsel : 0 ≤ d.selectedDisk)
    (hh : d.drive.Healthy) (hsaved : Saved s d.drive.sectors) (t : Nodes) :
    (diskLoadFs t d).1 = 0 ∧ (diskLoadFs t d).2.1 = resetRoot s := by
  obtain ⟨hstatus, htable⟩ :=
    diskLoadFs_stored (storedImage_of_bytes hsel hh hsaved.header hsaved.image rfl) t
  rw [fsDeserialize_fsImage hs] at hstatus htable
  exact ⟨hstatus, htable⟩

/-- On a well-formed table only the owner and the mode of the root can change. -/
theorem resetRoot_wellFormed {s : Nodes} (wf : WellFormed s) :
    resetRoot s = Function.update s 0 {s 0 with owner := 0, mode := fsDefaultDirMode} := by
  have hname : kstrcpy (s 0).name (lit "/") = (s 0).name := by
    have hcells := (Foundation.Buffer.text_eq_iff 0 (s 0).name (lit "/") (by decide) (by decide)).mp
      wf.root_name
    funext j
    rw [kstrcpy_root]
    split
    · rename_i h0
      subst h0
      exact (hcells.1 0 (by decide)).symm
    · split
      · rename_i h1
        subst h1
        exact hcells.2.symm
      · rfl
  unfold resetRoot rootNode
  simp only [hname, wf.root_used, wf.root_dir, wf.root_parent]

/-- **A filesystem saved is loaded back whole, but for the root's owner and mode**, which become
`0` and `0755` whatever they were. -/
theorem diskSaveFs_diskLoadFs (s : Nodes) (hs : FsReachable s) (d d₁ : Disk)
    (hsave : diskSaveFs s d = (0, d₁)) (t : Nodes) (d₂ : Disk)
    (hsectors : d₂.drive.sectors = d₁.drive.sectors) (hsel : 0 ≤ d₂.selectedDisk)
    (hh : d₂.drive.Healthy) :
    (diskLoadFs t d₂).1 = 0 ∧
      (∀ i, i ≠ 0 → (diskLoadFs t d₂).2.1 i = s i) ∧
      (diskLoadFs t d₂).2.1 0 = {s 0 with owner := 0, mode := fsDefaultDirMode} := by
  obtain ⟨hsel₀, hok⟩ := diskSaveFs_eq_zero (congrArg Prod.fst hsave)
  have hsaved := (diskSaveFs_ok hsel₀ hok s).2.2
  rw [hsave, ← hsectors] at hsaved
  obtain ⟨hstatus, htable⟩ := diskLoadFs_saved hs.savable hsel hh hsaved t
  rw [resetRoot_wellFormed hs.invariant.1] at htable
  refine ⟨hstatus, fun i hi => ?_, ?_⟩
  · rw [htable, Function.update_of_ne hi]
  · rw [htable, Function.update_self]

/-- A selected disk of zeros that never fails. -/
def blankDisk : Disk :=
  { diskCount := 1
    selectedDisk := 0
    lastError := .ofLit "ok"
    sector := fun _ => 0
    payload := fun _ => 0
    drive := { sectors := fun _ _ => 0, ops := 0, outcome := fun _ => .ok } }

/-- The same drive in good order at a later start. -/
def rebooted (d : Disk) : Disk :=
  {blankDisk with drive := { sectors := d.drive.sectors, ops := 0, outcome := fun _ => .ok }}

theorem rebooted_healthy (d : Disk) : (rebooted d).drive.Healthy := fun _ => rfl

theorem rebooted_selected (d : Disk) : 0 ≤ (rebooted d).selectedDisk := le_refl _

theorem rebooted_sectors (d : Disk) : (rebooted d).drive.sectors = d.drive.sectors := rfl

theorem diskSaveFs_blankDisk (s : Nodes) :
    diskSaveFs s blankDisk = (0, (diskSaveFs s blankDisk).2) ∧
      Saved s (rebooted (diskSaveFs s blankDisk).2).drive.sectors := by
  obtain ⟨hstatus, _, hsaved⟩ := diskSaveFs_ok (d := blankDisk) (le_refl _) (fun _ _ => rfl) s
  rw [rebooted_sectors]
  exact ⟨by rw [← hstatus], hsaved⟩

/-- A file in a directory comes back under it. -/
theorem diskSaveFs_diskLoadFs_nested :
    (diskLoadFs fsInit (rebooted (diskSaveFs nested blankDisk).2)).1 = 0 ∧
      (∀ i, i ≠ 0 → (diskLoadFs fsInit (rebooted (diskSaveFs nested blankDisk).2)).2.1 i = nested i) ∧
      (diskLoadFs fsInit (rebooted (diskSaveFs nested blankDisk).2)).2.1 0 =
        {nested 0 with owner := 0, mode := fsDefaultDirMode} ∧
      cstr ((diskLoadFs fsInit (rebooted (diskSaveFs nested blankDisk).2)).2.1 2).data = [1, 2] := by
  obtain ⟨hload, hother, hroot⟩ := diskSaveFs_diskLoadFs nested nested_reachable blankDisk _
    (diskSaveFs_blankDisk nested).1 fsInit (rebooted (diskSaveFs nested blankDisk).2) (rebooted_sectors _)
    (rebooted_selected _) (rebooted_healthy _)
  refine ⟨hload, hother, hroot, ?_⟩
  rw [hother 2 (by decide)]
  exact nested_file.2.2

/-- The empty filesystem with a root that only root may enter. -/
def privateRoot : Nodes := (fsSetMode fsInit 0 0o700).2

theorem privateRoot_root : privateRoot 0 = {fsInit 0 with mode := 0o700} := by
  have hu : usedNode fsInit 0 = some 0 := usedNode_ofNat fsInit 0 ((fsInit_used 0).mpr rfl)
  have hmode : (0o700 : UInt16) &&& 0o777 = 0o700 := by decide
  unfold privateRoot fsSetMode
  rw [hu]
  dsimp only
  rw [Function.update_self, hmode]

theorem privateRoot_other (i : NodeId) (h : i ≠ 0) : privateRoot i = fsInit i := by
  have hu : usedNode fsInit 0 = some 0 := usedNode_ofNat fsInit 0 ((fsInit_used 0).mpr rfl)
  unfold privateRoot fsSetMode
  rw [hu]
  exact Function.update_of_ne h _ _

theorem privateRoot_reachable : FsReachable privateRoot :=
  .step (o := FsOp.setMode 0 0o700) .start trivial rfl

/-- The mode of the root does not survive. -/
theorem diskLoadFs_privateRoot :
    FsReachable privateRoot ∧
      diskSaveFs privateRoot blankDisk = (0, (diskSaveFs privateRoot blankDisk).2) ∧
      (diskLoadFs privateRoot (rebooted (diskSaveFs privateRoot blankDisk).2)).1 = 0 ∧
      ((diskLoadFs privateRoot (rebooted (diskSaveFs privateRoot blankDisk).2)).2.1 0).mode ≠
        (privateRoot 0).mode := by
  obtain ⟨hsave, hsaved⟩ := diskSaveFs_blankDisk privateRoot
  obtain ⟨hload, htable⟩ := diskLoadFs_saved privateRoot_reachable.savable (rebooted_selected _)
    (rebooted_healthy _) hsaved privateRoot
  have hmode : fsDefaultDirMode ≠ 0o700 := by decide
  refine ⟨privateRoot_reachable, hsave, hload, ?_⟩
  rw [htable, resetRoot_self, privateRoot_root]
  exact hmode

/-! ### An interrupted save -/

/-- The image of `s₁` in the sectors that the first `k - 1` writes of a save reach, and that of
`s₀` in the others. -/
def mixture (k : Nat) (s₀ s₁ : Nodes) : Fin 530192 → UInt8 := fun x =>
  if x.val < 512 * (k - 2) then fsImage s₁ x else fsImage s₀ x

/-- The table of the records of an image. -/
def imageTable (image : Fin 530192 → UInt8) : Nodes := fun i =>
  (FsDiskNode.field.load image (16 + i.val * 4142) (by omega)).load

theorem imageTable_fsImage {s : Nodes} (h : Savable s) : imageTable (fsImage s) = s := by
  funext i
  unfold imageTable fsImage
  rw [fsSerialize_record s _ _ (le_refl _)]
  exact load_ofNode (h.normal i)

/-- The first sector of a mixture is that of an image. -/
theorem mixture_first (k : Nat) (s₀ s₁ : Nodes) :
    ∃ s, (s = s₀ ∨ s = s₁) ∧ ∀ x : Fin 530192, x.val < 512 → mixture k s₀ s₁ x = fsImage s x := by
  unfold mixture
  by_cases hk : 2 < k
  · exact ⟨s₁, .inr rfl, fun x hx => if_pos (by omega)⟩
  · exact ⟨s₀, .inl rfl, fun x hx => if_neg (by omega)⟩

/-- Every mixture is accepted: its header and the kind of its root are in its first sector. -/
theorem fsDeserialize_mixture (k : Nat) {s₀ s₁ : Nodes} (h₀ : Savable s₀) (h₁ : Savable s₁) (t : Nodes) :
    fsDeserialize t (mixture k s₀ s₁) = (0, resetRoot (imageTable (mixture k s₀ s₁))) := by
  obtain ⟨s, hs, hfirst⟩ := mixture_first k s₀ s₁
  have hsav : Savable s := by
    rcases hs with rfl | rfl
    · exact h₀
    · exact h₁
  have hheader : FsDiskHeader.field.load (mixture k s₀ s₁) 0 (by decide) = fsHeader := by
    rw [← fsSerialize_header s (fun _ : Fin 530192 => 0) 530192 (le_refl _) (by decide)]
    unfold Field.load
    congr 1
    funext j
    exact hfirst ⟨0 + j.val, by omega⟩ (by dsimp only; omega)
  have hrecord := fsSerialize_record s (fun _ : Fin 530192 => 0) 530192 (le_refl _) (by decide) 0
  have hused : fsImage s ⟨16, by decide⟩ = 1 := by
    have := congrArg FsDiskNode.used hrecord
    rwa [FsDiskNode.load_used, FsDiskNode.ofNode, hsav.used] at this
  have hdir : fsImage s ⟨17, by decide⟩ = 1 := by
    have := congrArg FsDiskNode.isDir hrecord
    rwa [FsDiskNode.load_isDir, FsDiskNode.ofNode, hsav.dir] at this
  have hroot : RootRecord fun i => FsDiskNode.field.load (mixture k s₀ s₁) (16 + i.val * 4142) (by omega) := by
    constructor
    · rw [FsDiskNode.load_used]
      have := hfirst ⟨16, by decide⟩ (by decide)
      rw [hused] at this
      exact fun h0 => absurd (h0.symm.trans this) (by decide)
    · rw [FsDiskNode.load_isDir]
      have := hfirst ⟨17, by decide⟩ (by decide)
      rw [hdir] at this
      exact fun h0 => absurd (h0.symm.trans this) (by decide)
  exact fsDeserialize_accepted (readRecords_v2 _ (le_refl _) hheader) hroot t

/-- The image area after the `k`-th write of a save of `s₁` over `s₀` failed. -/
theorem diskSaveFs_partial {s₀ : Nodes} (s₁ : Nodes) {d : Disk} (hsel : 0 ≤ d.selectedDisk)
    (hsaved : Saved s₀ d.drive.sectors) {k : Nat} (hk : 1 ≤ k) (hk' : k ≤ 1037)
    (hok : ∀ m < k - 1, d.drive.outcome (d.drive.ops + m) = .ok) {message : CStr}
    (hfail : d.drive.outcome (d.drive.ops + (k - 1)) = .failed message none) :
    (diskSaveFs s₁ d).1 = -1 ∧ (k = 1 → Saved s₀ (diskSaveFs s₁ d).2.drive.sectors) ∧
      (1 < k → storedHeader (diskSaveFs s₁ d).2.drive.sectors = savedHeader s₁ ∧
        ∀ x : Fin 530192, storedByte (diskSaveFs s₁ d).2.drive.sectors x.val = mixture k s₀ s₁ x) := by
  obtain ⟨hstatus, hpart⟩ := savePayload_failed {d with payload := (fsSerialize s₁ d.payload).2} 530192
    (by decide) (k - 1) (by rw [sectorCount_image]; omega) hok hfail
  have hpart := hpart rfl
  rw [diskSaveFs_eq hsel]
  refine ⟨hstatus, ?_, fun h1 => ⟨?_, fun x => ?_⟩⟩
  · intro heq
    subst heq
    refine ⟨?_, fun x => ?_⟩
    · have := hpart.other 2048 (.inr (by omega))
      unfold storedHeader
      rw [this]
      exact hsaved.header
    · have := hpart.other (2049 + x.val / 512) (.inr (by omega))
      unfold storedByte
      rw [this]
      exact hsaved.image x
  · rw [hpart.header (by omega), payloadHeader_fsSerialize]
  · rw [hpart.bytes (by omega) x, mixture, Nat.sub_sub]
    split
    · rfl
    · exact hsaved.image x

/-- **Saving over a saved table is not atomic.** After the `k`-th write fails, a load in good order
gives the old table back only for `k = 1`. From then on the header is the new one, and the load
gives what the mixture of the two images holds where its byte sum is that of the new image, and
fails, leaving the table alone, where it is not. -/
theorem diskSaveFs_interrupted (s₀ s₁ : Nodes) (h₀ : Savable s₀) (h₁ : Savable s₁) (d : Disk)
    (hsel : 0 ≤ d.selectedDisk) (hsaved : Saved s₀ d.drive.sectors) (k : Nat) (hk : 1 ≤ k)
    (hk' : k ≤ 1037) (hok : ∀ m < k - 1, d.drive.outcome (d.drive.ops + m) = .ok) (message : CStr)
    (hfail : d.drive.outcome (d.drive.ops + (k - 1)) = .failed message none) :
    (diskSaveFs s₁ d).1 = -1 ∧
      ∀ (t : Nodes) (d₂ : Disk), d₂.drive.sectors = (diskSaveFs s₁ d).2.drive.sectors →
        0 ≤ d₂.selectedDisk → d₂.drive.Healthy →
        (k = 1 → (diskLoadFs t d₂).1 = 0 ∧ (diskLoadFs t d₂).2.1 = resetRoot s₀) ∧
        (1 < k → byteSum (mixture k s₀ s₁) = byteSum (fsImage s₁) →
          (diskLoadFs t d₂).1 = 0 ∧
            (diskLoadFs t d₂).2.1 = resetRoot (imageTable (mixture k s₀ s₁))) ∧
        (1 < k → mixture k s₀ s₁ = fsImage s₁ → (diskLoadFs t d₂).2.1 = resetRoot s₁) ∧
        (1 < k → byteSum (mixture k s₀ s₁) ≠ byteSum (fsImage s₁) →
          (diskLoadFs t d₂).1 = -1 ∧ (diskLoadFs t d₂).2.1 = t) := by
  obtain ⟨hstatus, hfirst, hlater⟩ := diskSaveFs_partial s₁ hsel hsaved hk hk' hok hfail
  refine ⟨hstatus, fun t d₂ hsectors hsel₂ hh => ?_⟩
  rw [← hsectors] at hfirst hlater
  have hgood : 1 < k → byteSum (mixture k s₀ s₁) = byteSum (fsImage s₁) →
      (diskLoadFs t d₂).1 = 0 ∧ (diskLoadFs t d₂).2.1 = resetRoot (imageTable (mixture k s₀ s₁)) := by
    intro h1 hsum
    obtain ⟨hload, htable⟩ :=
      diskLoadFs_stored (storedImage_of_bytes hsel₂ hh (hlater h1).1 (hlater h1).2 hsum) t
    rw [fsDeserialize_mixture k h₀ h₁] at hload htable
    exact ⟨hload, htable⟩
  refine ⟨fun h1 => ?_, hgood, fun h1 hsame => ?_, fun h1 hsum => ?_⟩
  · exact diskLoadFs_saved h₀ hsel₂ hh (hfirst h1) t
  · rw [(hgood h1 (by rw [hsame])).2, hsame, imageTable_fsImage h₁]
  · exact diskLoadFs_unstored (not_storedImage_of_bytes (hlater h1).1 (hlater h1).2 hsum) t

/-- `fsInit` saved on a drive whose operation `n` will fail. -/
def failingDisk (n : Nat) : Disk :=
  {blankDisk with
    drive :=
      { sectors := (diskSaveFs fsInit blankDisk).2.drive.sectors
        ops := 0
        outcome := fun m => if m = n then .failed (.ofLit "IDE DRQ timeout") none else .ok }}

theorem failingDisk_saved (n : Nat) : Saved fsInit (failingDisk n).drive.sectors :=
  (diskSaveFs_blankDisk fsInit).2

theorem fsInit_savable : Savable fsInit := FsReachable.savable .start

/-- The record of the root stands first. -/
theorem fsImage_root (s : Nodes) {x : Fin 530192} (hx : 16 ≤ x.val ∧ x.val < 4158) :
    fsImage s x = FsDiskNode.field.put (.ofNode (s 0)) ⟨x.val - 16, by omega⟩ :=
  fsImage_record_byte s 0 ⟨x.val - 16, by omega⟩ x (by show x.val = 16 + 0 * 4142 + (x.val - 16); omega)

theorem fsImage_rootMode (s : Nodes) {x : Fin 530192} (j : Fin 2) (hx : x.val = 24 + j.val) :
    fsImage s x = Field.u16.put (s 0).mode j := by
  have hj := j.isLt
  rw [fsImage_root s (by omega)]
  refine (Foundation.Buffer.splice_outside _ _ _ _ (.inl (by dsimp only; omega))).trans
    ((Foundation.Buffer.splice_outside _ _ _ _ (.inl (by dsimp only; omega))).trans
      ((Foundation.Buffer.splice_outside _ _ _ _ (.inl (by dsimp only; omega))).trans
        (Foundation.Buffer.splice_inside _ _ _ _ j (by dsimp only; omega))))

/-- The images of `fsInit` and `privateRoot` differ in one byte of the root's mode. -/
theorem fsImage_privateRoot {x : Fin 530192} (hx : x.val ≠ 24) : fsImage fsInit x = fsImage privateRoot x := by
  by_cases h25 : x.val = 25
  · rw [fsImage_rootMode _ 1 h25, fsImage_rootMode _ 1 h25, privateRoot_root, fsInit_root]
    decide
  · by_cases hroot : 16 ≤ x.val ∧ x.val < 4158
    · rw [fsImage_root _ hroot, fsImage_root _ hroot, privateRoot_root]
      refine Foundation.Buffer.splice_congr _ _ (Foundation.Buffer.splice_congr _ _
        (Foundation.Buffer.splice_congr _ _ ?_))
      exact (Foundation.Buffer.splice_outside _ _ _ _ (by dsimp only; omega)).trans
        (Foundation.Buffer.splice_outside _ _ _ _ (by dsimp only; omega)).symm
    · refine fsImage_congr (i := 0) (fun k hk => (privateRoot_other k hk).symm) x ?_
      show x.val < 16 + 0 * 4142 ∨ 16 + 0 * 4142 + 4142 ≤ x.val
      omega

theorem byteSum_privateRoot : byteSum (fsImage fsInit) ≠ byteSum (fsImage privateRoot) := by
  refine Foundation.Buffer.byteSum_ne_of_cell _ _ ⟨24, by decide⟩ ?_ fun x hx => ?_
  · rw [fsImage_rootMode _ 0 rfl, fsImage_rootMode _ 0 rfl, privateRoot_root, fsInit_root]
    decide
  · exact fsImage_privateRoot fun h => hx (Fin.ext h)

/-- With the first image sector written, which holds that byte, the new table comes back. -/
theorem diskSaveFs_interrupted_third :
    (diskSaveFs privateRoot (failingDisk 2)).1 = -1 ∧
      ∀ (t : Nodes) (d₂ : Disk),
        d₂.drive.sectors = (diskSaveFs privateRoot (failingDisk 2)).2.drive.sectors →
        0 ≤ d₂.selectedDisk → d₂.drive.Healthy →
        (diskLoadFs t d₂).1 = 0 ∧ (diskLoadFs t d₂).2.1 = resetRoot privateRoot := by
  have hok : ∀ m < 3 - 1, (failingDisk 2).drive.outcome ((failingDisk 2).drive.ops + m) = .ok := fun m hm =>
    if_neg (by show 0 + m ≠ 2; omega)
  obtain ⟨hstatus, hloads⟩ := diskSaveFs_interrupted fsInit privateRoot fsInit_savable
    privateRoot_reachable.savable (failingDisk 2) (le_refl _) (failingDisk_saved 2) 3 (by decide) (by decide) hok
    (.ofLit "IDE DRQ timeout") rfl
  have hnew : mixture 3 fsInit privateRoot = fsImage privateRoot := by
    funext x
    unfold mixture
    split
    · rfl
    · rename_i hx
      exact fsImage_privateRoot (by omega)
  refine ⟨hstatus, fun t d₂ hsectors hsel hh => ?_⟩
  obtain ⟨_, hgood, hsame, _⟩ := hloads t d₂ hsectors hsel hh
  exact ⟨(hgood (by decide) (by rw [hnew])).1, hsame (by decide) hnew⟩

/-- With the header written and the first image sector not, the disk loads neither table. -/
theorem diskSaveFs_interrupted_second :
    (diskSaveFs privateRoot (failingDisk 1)).1 = -1 ∧
      (diskLoadFs fsInit (rebooted (diskSaveFs privateRoot (failingDisk 1)).2)).1 = -1 := by
  have hok : ∀ m < 2 - 1, (failingDisk 1).drive.outcome ((failingDisk 1).drive.ops + m) = .ok := by
    intro m hm
    obtain rfl : m = 0 := by omega
    rfl
  obtain ⟨hstatus, _, hlater⟩ := diskSaveFs_partial privateRoot (d := failingDisk 1) (le_refl _)
    (failingDisk_saved 1) (k := 2) (by decide) (by decide) hok rfl
  rw [← rebooted_sectors] at hlater
  obtain ⟨hheader, hbytes⟩ := hlater (by decide)
  have hold : mixture 2 fsInit privateRoot = fsImage fsInit := funext fun x => if_neg (by omega)
  refine ⟨hstatus, (diskLoadFs_unstored (not_storedImage_of_bytes hheader hbytes ?_) _).1⟩
  rw [hold]
  exact byteSum_privateRoot

/-! ### A failed load -/

/-- The disk holds an image that passes every check but the last: its record 0 is unused or is no
directory. -/
def RootlessImage (d : Disk) : Prop :=
  ∃ (len : Nat) (image : Fin len → UInt8) (records : NodeId → FsDiskNode),
    StoredImage d image ∧ readRecords image = some records ∧ ¬ RootRecord records

/-- **A failed load leaves the table alone, except on an image without a root**, after which it is
that of `fs_init`. -/
theorem diskLoadFs_failed_iff (t : Nodes) (d : Disk) :
    ((diskLoadFs t d).1 = -1 → (diskLoadFs t d).2.1 = t) ↔ (RootlessImage d → t = fsInit) := by
  by_cases hstored : ∃ (len : Nat) (image : Fin len → UInt8), StoredImage d image
  · obtain ⟨len, image, h⟩ := hstored
    have hunique : ∀ {len' : Nat} {image' : Fin len' → UInt8}, StoredImage d image' →
        readRecords image' = readRecords image := by
      intro len' image' h'
      obtain rfl : len' = len := h'.length.symm.trans h.length
      rw [show image' = image from funext fun x => (h'.bytes x).trans (h.bytes x).symm]
    obtain ⟨hstatus, htable⟩ := diskLoadFs_stored h t
    rw [hstatus, htable]
    cases hr : readRecords image with
    | none =>
      rw [fsDeserialize_unread hr]
      refine ⟨fun _ => ?_, fun _ _ => rfl⟩
      intro hs
      obtain ⟨len', image', records, h', hr', _⟩ := hs
      rw [hunique h', hr] at hr'
      cases hr'
    | some records =>
      by_cases hroot : RootRecord records
      · rw [fsDeserialize_accepted hr hroot]
        refine ⟨fun _ => ?_, fun _ hfail => ?_⟩
        · intro hs
          obtain ⟨len', image', records', h', hr', hroot'⟩ := hs
          rw [hunique h', hr] at hr'
          cases hr'
          exact absurd hroot hroot'
        · exact absurd hfail (by simp)
      · rw [fsDeserialize_rootless hr hroot]
        constructor
        · exact fun h' _ => (h' rfl).symm
        · exact fun h' _ => (h' ⟨len, image, records, h, hr, hroot⟩).symm
  · obtain ⟨_, htable⟩ := diskLoadFs_unstored hstored t
    refine ⟨fun _ => ?_, fun _ _ => htable⟩
    intro hs
    obtain ⟨len, image, _, h, _⟩ := hs
    exact absurd ⟨len, image, h⟩ hstored

/-- A table without a root. -/
def rootlessTable : Nodes := fun _ => FsNode.zero

/-- Loading the image of a table without a root fails and empties the filesystem. -/
theorem diskLoadFs_rootless :
    (diskLoadFs privateRoot (rebooted (diskSaveFs rootlessTable blankDisk).2)).1 = -1 ∧
      (diskLoadFs privateRoot (rebooted (diskSaveFs rootlessTable blankDisk).2)).2.1 ≠ privateRoot := by
  have hsaved := (diskSaveFs_blankDisk rootlessTable).2
  obtain ⟨hstatus, htable⟩ := diskLoadFs_stored
    (storedImage_of_bytes (rebooted_selected _) (rebooted_healthy _) hsaved.header hsaved.image rfl)
    privateRoot
  have hroot : ¬ RootRecord fun i => FsDiskNode.ofNode (rootlessTable i) := fun h => h.1 rfl
  have hmode : fsDefaultDirMode ≠ 0o700 := by decide
  rw [fsDeserialize_rootless (readRecords_fsImage rootlessTable) hroot] at hstatus htable
  refine ⟨hstatus, fun h => ?_⟩
  rw [htable] at h
  have := congrArg FsNode.mode (congrFun h 0)
  rw [privateRoot_root, fsInit_root] at this
  exact hmode this

end FurOS
