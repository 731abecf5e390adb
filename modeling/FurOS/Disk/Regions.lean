import FurOS.Disk.Install
import FurOS.Disk.Persistence

/-! Where each operation of the disk layer may read and write.

`Within R W` relates a drive to what an operation leaves of it: sectors outside `W`
are kept, and whatever the drive was asked for in between reads in `R` or writes in
`W`. It composes, so each loop needs only its own step. -/
namespace FurOS
open Foundation.Buffer (splice splice_outside)

/-- A read in `R`, a write in `W`, or a flush. -/
def Access.Allowed (R W : Nat → Prop) : Access → Prop
  | .read lba => R lba
  | .write lba => W lba
  | .flush => True

structure Within (R W : Nat → Prop) (d d' : Drive) : Prop where
  kept : ∀ lba, ¬ W lba → d'.sectors lba = d.sectors lba
  asked : ∃ log, d'.log = log ++ d.log ∧ ∀ a ∈ log, a.Allowed R W

namespace Within
variable {R W R' W' : Nat → Prop} {d d' d'' : Drive}

theorem refl (d : Drive) : Within R W d d := ⟨fun _ _ => rfl, [], rfl, fun _ h => by cases h⟩

theorem trans (h : Within R W d d') (h' : Within R W d' d'') : Within R W d d'' := by
  obtain ⟨kept, log, hlog, hall⟩ := h
  obtain ⟨kept', log', hlog', hall'⟩ := h'
  refine ⟨fun lba hlba => (kept' lba hlba).trans (kept lba hlba), log' ++ log, ?_, fun a ha => ?_⟩
  · rw [hlog', hlog, List.append_assoc]
  · cases List.mem_append.mp ha with
    | inl ha => exact hall' a ha
    | inr ha => exact hall a ha

theorem mono (h : Within R W d d') (hR : ∀ lba, R lba → R' lba) (hW : ∀ lba, W lba → W' lba) :
    Within R' W' d d' := by
  obtain ⟨kept, log, hlog, hall⟩ := h
  refine ⟨fun lba hlba => kept lba fun h => hlba (hW lba h), log, hlog, fun a ha => ?_⟩
  have := hall a ha
  cases a with
  | read lba => exact hR lba this
  | write lba => exact hW lba this
  | flush => trivial

theorem read (d : Drive) {lba : Nat} (h : R lba) (buffer : Sector) :
    Within R W d (ataReadSector d lba buffer).2.2 := by
  have hasked : ∀ a ∈ [Access.read lba], a.Allowed R W := by
    intro a ha
    rw [List.mem_singleton.mp ha]
    exact h
  unfold ataReadSector
  split <;> exact ⟨fun _ _ => rfl, [.read lba], rfl, hasked⟩

theorem write (d : Drive) {lba : Nat} (h : W lba) (buffer : Sector) :
    Within R W d (ataWriteSector d lba buffer).2 := by
  have hasked : ∀ a ∈ [Access.write lba], a.Allowed R W := by
    intro a ha
    rw [List.mem_singleton.mp ha]
    exact h
  have hkept : ∀ (held : Sector) (lba' : Nat), ¬ W lba' →
      Function.update d.sectors lba held lba' = d.sectors lba' :=
    fun held lba' hlba' => Function.update_of_ne (fun he : lba' = lba => hlba' (he ▸ h)) _ _
  unfold ataWriteSector
  split <;> exact ⟨hkept _, [.write lba], rfl, hasked⟩

theorem flush (d : Drive) : Within R W d (ataFlush d) := by
  refine ⟨fun _ _ => rfl, [.flush], rfl, fun a ha => ?_⟩
  rw [List.mem_singleton.mp ha]
  trivial

end Within

def noSector (_ : Nat) : Prop := False

/-- The boot sector, the record about the kernel and the kernel. -/
def bootArea (lba : Nat) : Prop := lba < 2048

/-- The header and the image of the saved filesystem. -/
def imageArea (lba : Nat) : Prop := 2048 ≤ lba ∧ lba < 2048 + 4096

/-! ### Installing -/

theorem writeSectors_within {W : Nat → Prop} {writes : List (Nat × Sector)} (h : ∀ w ∈ writes, W w.1)
    (d : Disk) : Within noSector W d.drive (writeSectors writes d).2.drive := by
  induction writes generalizing d with
  | nil => exact .refl _
  | cons w rest ih =>
    obtain ⟨lba, content⟩ := w
    have hwrite : Within noSector W d.drive (ataWriteSector d.drive lba content).2 :=
      .write _ (h _ (List.mem_cons_self ..)) _
    rw [writeSectors]
    split
    · rename_i message drive heq
      rwa [heq] at hwrite
    · rename_i drive heq
      rw [heq] at hwrite
      exact hwrite.trans
        (ih (fun w hw => h w (List.mem_cons_of_mem _ hw)) {d with sector := content, drive := drive})

/-- A kernel that passes the checks ends before the filesystem begins. -/
theorem layout_bootArea {l : Linked} {sectors28 : Option UInt32} {d : Disk}
    (h : installRefused l sectors28 d = none) : ∀ w ∈ l.layout, bootArea w.1 := by
  have hcount : l.kernelSectors.toNat ≤ 1920 := by
    by_contra hlt
    have hbig : l.kernelSectors > 1920 := by
      rw [gt_iff_lt, UInt32.lt_iff_toNat_lt]
      exact Nat.lt_of_not_le hlt
    unfold installRefused at h
    rw [if_pos (Or.inr hbig)] at h
    split_ifs at h
  intro w hw
  rw [l.layout_eq] at hw
  obtain ⟨lba, hlba, rfl⟩ := List.mem_map.mp hw
  rw [List.mem_range] at hlba
  show lba < 2048
  omega

theorem diskInstallSystem_within (l : Linked) (sectors28 : Option UInt32) (d : Disk) :
    Within noSector bootArea d.drive (diskInstallSystem l sectors28 d).2.drive := by
  unfold diskInstallSystem
  split
  · exact .refl _
  · rename_i hchecks
    have hwrites := writeSectors_within (layout_bootArea hchecks) d
    dsimp only
    split
    · exact hwrites
    · exact hwrites.trans (.flush _)

/-! ### Saving and formatting -/

theorem writePayload_within (d : Disk) (i count : Nat) (h : i + count ≤ 4095) :
    Within noSector imageArea d.drive (writePayload d i count h).2.drive := by
  induction count generalizing d i with
  | zero => exact .refl _
  | succ count ih =>
    have hwrite : Within noSector imageArea d.drive
        (ataWriteSector d.drive (2048 + 1 + i)
          (Foundation.Buffer.slice d.payload (i * 512) 512 (by omega))).2 :=
      .write _ ⟨by omega, by omega⟩ _
    rw [writePayload]
    split
    · rename_i message drive heq
      rwa [heq] at hwrite
    · rename_i drive heq
      rw [heq] at hwrite
      exact hwrite.trans (ih {d with drive := drive} (i + 1) (by omega))

theorem savePayload_within (d : Disk) (size : Nat) (h : size ≤ 2096640) :
    Within noSector imageArea d.drive (savePayload d size h).2.drive := by
  have hheader : ∀ content, Within noSector imageArea d.drive (ataWriteSector d.drive 2048 content).2 :=
    fun content => .write _ ⟨by omega, by omega⟩ _
  unfold savePayload
  dsimp only
  split
  · rename_i message drive heq
    have := hheader (DiskHeader.field.store (fun _ => 0) 0 (payloadHeader d.payload size h))
    rwa [heq] at this
  · rename_i drive heq
    have hfirst := hheader (DiskHeader.field.store (fun _ => 0) 0 (payloadHeader d.payload size h))
    rw [heq] at hfirst
    have hrest := hfirst.trans (writePayload_within
      {d with
        sector := DiskHeader.field.store (fun _ => 0) 0 (payloadHeader d.payload size h)
        drive := drive} 0 (sectorCount size) (by unfold sectorCount; omega))
    split
    · exact hrest
    · exact hrest.trans (.flush _)

theorem diskSaveFs_within (t : Nodes) (d : Disk) :
    Within noSector imageArea d.drive (diskSaveFs t d).2.drive := by
  unfold diskSaveFs
  split
  · exact .refl _
  · dsimp only
    split
    · exact .refl _
    · exact savePayload_within {d with payload := (fsSerialize t d.payload).2} _ _

theorem diskFormatFs_within (d : Disk) :
    Within noSector imageArea d.drive (diskFormatFs d).2.2.drive := by
  have hsave := diskSaveFs_within fsInit d
  unfold diskFormatFs
  dsimp only
  split <;> exact hsave

/-! ### Loading -/

/-- What a load may change of the disk layer's variables: the two buffers, `lastError` and the drive.
In `g_payload` it stores no more than the first `sectors`. -/
structure Stores (sectors : Nat) (d d' : Disk) : Prop where
  diskCount : d'.diskCount = d.diskCount
  selectedDisk : d'.selectedDisk = d.selectedDisk
  payload : ∀ x : Fin 2096640, sectors * 512 ≤ x.val → d'.payload x = d.payload x

namespace Stores
variable {sectors : Nat} {d d' d'' : Disk}

theorem refl (d : Disk) : Stores sectors d d := ⟨rfl, rfl, fun _ _ => rfl⟩

theorem trans (h : Stores sectors d d') (h' : Stores sectors d' d'') : Stores sectors d d'' :=
  ⟨h'.diskCount.trans h.diskCount, h'.selectedDisk.trans h.selectedDisk,
    fun x hx => (h'.payload x hx).trans (h.payload x hx)⟩

/-- The rest of the disk layer's state does not matter. -/
theorem rest (h : Stores sectors d d') (message : CStr) (sector : Sector) (drive : Drive) :
    Stores sectors d {d' with lastError := message, sector := sector, drive := drive} :=
  ⟨h.diskCount, h.selectedDisk, h.payload⟩

end Stores

theorem readPayload_within (d : Disk) (i count : Nat) (h : i + count ≤ 4095) {sectors : Nat}
    (hsectors : i + count ≤ sectors) :
    Within imageArea noSector d.drive (readPayload d i count h).2.drive ∧
      Stores sectors d (readPayload d i count h).2 := by
  induction count generalizing d i with
  | zero => exact ⟨.refl _, .refl _⟩
  | succ count ih =>
    have hnext : i + 1 + count ≤ 4095 := by omega
    have hrest : i + 1 + count ≤ sectors := by omega
    have hblock : (i + 1) * 512 ≤ sectors * 512 := Nat.mul_le_mul_right 512 (by omega)
    have hread : Within imageArea noSector d.drive
        (ataReadSector d.drive (2048 + 1 + i)
          (Foundation.Buffer.slice d.payload (i * 512) 512 (by omega))).2.2 :=
      .read _ ⟨by omega, by omega⟩ _
    have hstore : ∀ (buffer : Sector) (message : CStr) (drive : Drive), Stores sectors d
        {d with payload := splice d.payload (i * 512) buffer, lastError := message, drive := drive} :=
      fun buffer message drive => ⟨rfl, rfl, fun x hx => splice_outside _ _ _ _
        (.inr (by rw [← Nat.add_one_mul]; exact hblock.trans hx))⟩
    rw [readPayload]
    split
    · rename_i message buffer drive heq
      rw [heq] at hread
      exact ⟨hread, hstore buffer message drive⟩
    · rename_i buffer drive heq
      rw [heq] at hread
      obtain ⟨hwithin, hstores⟩ := ih
        {d with payload := splice d.payload (i * 512) buffer, drive := drive} (i + 1) hnext hrest
      exact ⟨hread.trans hwithin, (hstore buffer d.lastError drive).trans hstores⟩

theorem decodePayload_within {d d' : Disk} {sectors : Nat}
    (h : Within imageArea noSector d.drive d'.drive ∧ Stores sectors d d') (t : Nodes) {len : Nat}
    (image : Fin len → UInt8) (checksum : UInt32) :
    Within imageArea noSector d.drive (decodePayload t d' image checksum).2.2.drive ∧
      Stores sectors d (decodePayload t d' image checksum).2.2 := by
  unfold decodePayload
  split
  · exact ⟨h.1, h.2.rest _ _ _⟩
  · dsimp only
    split <;> exact ⟨h.1, h.2.rest _ _ _⟩

/-- How many sectors a header makes a load read into `g_payload`: none where its size is refused. -/
def loadedSectors (header : DiskHeader) : Nat :=
  if header.payloadSize.toNat = 0 ∨ header.payloadSize.toNat > 2096640 then 0
  else sectorCount header.payloadSize.toNat

/-- Whatever the header says, they fit in `g_payload`. -/
theorem loadedSectors_fit (header : DiskHeader) : loadedSectors header * 512 ≤ 2096640 := by
  have hmax : loadedSectors header ≤ 4095 := by
    unfold loadedSectors sectorCount
    split <;> omega
  exact Nat.mul_le_mul_right 512 hmax

theorem loadPayload_within (t : Nodes) (d : Disk) (header : DiskHeader) :
    Within imageArea noSector d.drive (loadPayload t d header).2.2.drive ∧
      Stores (loadedSectors header) d (loadPayload t d header).2.2 := by
  unfold loadPayload loadedSectors
  split
  · exact ⟨.refl _, .rest (.refl d) _ _ _⟩
  · have hread := readPayload_within d 0 (sectorCount header.payloadSize.toNat)
      (by unfold sectorCount; omega) (Nat.zero_add _).le
    split
    rename_i status d' heq
    rw [heq] at hread
    split
    · exact hread
    · exact decodePayload_within hread t _ _

theorem diskLoadFs_within (t : Nodes) (d : Disk) :
    Within imageArea noSector d.drive (diskLoadFs t d).2.2.drive ∧
      Stores (loadedSectors (storedHeader d.drive.sectors)) d (diskLoadFs t d).2.2 := by
  have hheader : Within imageArea noSector d.drive (ataReadSector d.drive 2048 d.sector).2.2 :=
    .read _ ⟨by omega, by omega⟩ _
  unfold diskLoadFs
  split
  · exact ⟨.refl _, .rest (.refl d) _ _ _⟩
  cases hup : d.drive.upcoming with
  | failed message left =>
    obtain ⟨message, hmessage⟩ := ataReadSector_failed (d := d.drive) (by simp [hup]) 2048 d.sector
    split
    · rename_i heq
      rw [heq] at hheader
      exact ⟨hheader, .rest (.refl d) _ _ _⟩
    · rename_i heq
      rw [heq] at hmessage
      cases hmessage
  | ok =>
    rw [ataReadSector_ok hup] at hheader ⊢
    dsimp only
    split
    · exact ⟨hheader, .rest (.refl d) _ _ _⟩
    · obtain ⟨hwithin, hstores⟩ := loadPayload_within t
        {d with
          sector := d.drive.sectors 2048
          drive := {d.drive with ops := d.drive.ops + 1, log := .read 2048 :: d.drive.log}}
        (storedHeader d.drive.sectors)
      exact ⟨hheader.trans hwithin, (Stores.rest (.refl d) d.lastError _ _).trans hstores⟩

/-! ### The regions -/

/-- Sectors before the end of a disk of `n` of them. -/
def onDisk (n : UInt32) (lba : Nat) : Prop := lba < n.toNat

theorem bootArea_onDisk {n : UInt32} (h : ¬ n < 2048 + 4096) (lba : Nat) (hlba : bootArea lba) :
    onDisk n lba := by
  have hn : ¬ n.toNat < 6144 := h
  unfold bootArea at hlba
  unfold onDisk
  omega

theorem imageArea_onDisk {n : UInt32} (h : ¬ n < 2048 + 4096) (lba : Nat) (hlba : imageArea lba) :
    onDisk n lba := by
  have hn : ¬ n.toNat < 6144 := h
  unfold imageArea at hlba
  unfold onDisk
  omega

/-- **The boot area and the saved filesystem are separate, and no operation leaves its own.**
Installing writes in the boot area, saving and formatting in the image area, and a load only reads
there. A disk whose size is known and passes the check of an installation holds both areas, so
nothing past its end is asked for. -/
theorem disk_regions (l : Linked) (sectors28 : Option UInt32) (t : Nodes) (d : Disk) :
    (Within noSector bootArea d.drive (diskInstallSystem l sectors28 d).2.drive ∧
      Within noSector imageArea d.drive (diskSaveFs t d).2.drive ∧
      Within noSector imageArea d.drive (diskFormatFs d).2.2.drive ∧
      Within imageArea noSector d.drive (diskLoadFs t d).2.2.drive ∧
      Stores (loadedSectors (storedHeader d.drive.sectors)) d (diskLoadFs t d).2.2 ∧
      loadedSectors (storedHeader d.drive.sectors) * 512 ≤ 2096640) ∧
    ((∀ lba, imageArea lba →
        (diskInstallSystem l sectors28 d).2.drive.sectors lba = d.drive.sectors lba) ∧
      ∀ lba, bootArea lba →
        (diskSaveFs t d).2.drive.sectors lba = d.drive.sectors lba ∧
          (diskFormatFs d).2.2.drive.sectors lba = d.drive.sectors lba) ∧
    ∀ n, sectors28 = some n → n > 0 → ¬ n < 2048 + 4096 →
      Within (onDisk n) (onDisk n) d.drive (diskInstallSystem l sectors28 d).2.drive ∧
        Within (onDisk n) (onDisk n) d.drive (diskSaveFs t d).2.drive ∧
        Within (onDisk n) (onDisk n) d.drive (diskFormatFs d).2.2.drive ∧
        Within (onDisk n) (onDisk n) d.drive (diskLoadFs t d).2.2.drive := by
  have hinstall := diskInstallSystem_within l sectors28 d
  have hsave := diskSaveFs_within t d
  have hformat := diskFormatFs_within d
  obtain ⟨hload, hstores⟩ := diskLoadFs_within t d
  have hdisjoint : ∀ lba, imageArea lba → ¬ bootArea lba := by
    intro lba himage hboot
    unfold imageArea at himage
    unfold bootArea at hboot
    omega
  have hnone : ∀ {P : Nat → Prop} lba, noSector lba → P lba := fun _ h => h.elim
  refine ⟨⟨hinstall, hsave, hformat, hload, hstores, loadedSectors_fit _⟩,
    ⟨fun lba hlba => ?_, fun lba hlba => ?_⟩, ?_⟩
  · exact hinstall.kept lba (hdisjoint lba hlba)
  · have hout : ¬ imageArea lba := fun himage => hdisjoint lba himage hlba
    exact ⟨hsave.kept lba hout, hformat.kept lba hout⟩
  · intro n _ _ hn
    exact ⟨hinstall.mono hnone (bootArea_onDisk hn), hsave.mono hnone (imageArea_onDisk hn),
      hformat.mono hnone (imageArea_onDisk hn), hload.mono (imageArea_onDisk hn) hnone⟩

theorem disk_regions_minimum :
    Within (onDisk 6144) (onDisk 6144) blankDisk.drive
        (diskInstallSystem smallSystem (some 6144) blankDisk).2.drive ∧
      Within (onDisk 6144) (onDisk 6144) blankDisk.drive (diskSaveFs fsInit blankDisk).2.drive ∧
      Within (onDisk 6144) (onDisk 6144) blankDisk.drive (diskFormatFs blankDisk).2.2.drive ∧
      Within (onDisk 6144) (onDisk 6144) blankDisk.drive (diskLoadFs fsInit blankDisk).2.2.drive :=
  (disk_regions smallSystem (some 6144) fsInit blankDisk).2.2 6144 rfl (by decide) (by decide)

end FurOS
