import FurOS.Disk.Install
import FurOS.Disk.Transfer

/-! What no operation of the disk layer changes: which disk is selected, how many there
are, and how the operations still to come will end. -/
namespace FurOS
open Foundation.Buffer (splice slice)

/-- No operation, past or to come, fails. -/
def Drive.NeverFails (d : Drive) : Prop := ∀ n, d.outcome n = .ok

theorem Drive.NeverFails.healthy {d : Drive} (h : d.NeverFails) : d.Healthy := fun _ => h _

structure Steady (d d' : Disk) : Prop where
  diskCount : d'.diskCount = d.diskCount
  selectedDisk : d'.selectedDisk = d.selectedDisk
  outcome : d'.drive.outcome = d.drive.outcome

namespace Steady
variable {d d' d'' : Disk}

theorem refl (d : Disk) : Steady d d := ⟨rfl, rfl, rfl⟩

theorem trans (h : Steady d d') (h' : Steady d' d'') : Steady d d'' :=
  ⟨h'.diskCount.trans h.diskCount, h'.selectedDisk.trans h.selectedDisk, h'.outcome.trans h.outcome⟩

theorem neverFails (h : Steady d d') (hd : d.drive.NeverFails) : d'.drive.NeverFails := by
  intro n
  rw [h.outcome]
  exact hd n

theorem available (h : Steady d d') : diskAvailable d' = diskAvailable d := by
  unfold diskAvailable
  rw [h.selectedDisk]

/-- One operation of the drive, with whatever the disk layer stores meanwhile. -/
theorem after {drive : Drive} (h : drive.outcome = d.drive.outcome) (lastError : CStr) (sector : Sector)
    (payload : Fin 2096640 → UInt8) :
    Steady d {d with lastError := lastError, sector := sector, payload := payload, drive := drive} :=
  ⟨rfl, rfl, h⟩

theorem flush (d : Disk) (lastError : CStr) :
    Steady d {d with drive := ataFlush d.drive, lastError := lastError} := ⟨rfl, rfl, rfl⟩

end Steady

theorem ataReadSector_outcome (d : Drive) (lba : Nat) (buffer : Sector) :
    (ataReadSector d lba buffer).2.2.outcome = d.outcome := by
  unfold ataReadSector
  split <;> rfl

theorem ataWriteSector_outcome (d : Drive) (lba : Nat) (buffer : Sector) :
    (ataWriteSector d lba buffer).2.outcome = d.outcome := by
  unfold ataWriteSector
  split <;> rfl

/-! ### Writing -/

theorem writeSectors_steady (writes : List (Nat × Sector)) (d : Disk) :
    Steady d (writeSectors writes d).2 := by
  induction writes generalizing d with
  | nil => exact .refl d
  | cons w rest ih =>
    obtain ⟨lba, content⟩ := w
    have hwrite := ataWriteSector_outcome d.drive lba content
    rw [writeSectors]
    split
    · rename_i message drive heq
      rw [heq] at hwrite
      exact .after hwrite _ _ _
    · rename_i drive heq
      rw [heq] at hwrite
      exact (Steady.after hwrite d.lastError content d.payload).trans (ih _)

theorem diskInstallSystem_steady (l : Linked) (sectors28 : Option UInt32) (d : Disk) :
    Steady d (diskInstallSystem l sectors28 d).2 := by
  unfold diskInstallSystem
  split
  · exact .after rfl _ _ _
  · have hwrites := writeSectors_steady l.layout d
    dsimp only
    split
    · exact hwrites
    · exact hwrites.trans (.flush _ _)

theorem writePayload_steady (d : Disk) (i count : Nat) (h : i + count ≤ 4095) :
    Steady d (writePayload d i count h).2 := by
  induction count generalizing d i with
  | zero => exact .refl d
  | succ count ih =>
    have hwrite := ataWriteSector_outcome d.drive (2048 + 1 + i) (slice d.payload (i * 512) 512 (by omega))
    rw [writePayload]
    split
    · rename_i message drive heq
      rw [heq] at hwrite
      exact .after hwrite _ _ _
    · rename_i drive heq
      rw [heq] at hwrite
      exact (Steady.after hwrite d.lastError d.sector d.payload).trans (ih _ (i + 1) (by omega))

theorem savePayload_steady (d : Disk) (size : Nat) (h : size ≤ 2096640) :
    Steady d (savePayload d size h).2 := by
  have hheader := ataWriteSector_outcome d.drive 2048
    (DiskHeader.field.store (fun _ => 0) 0 (payloadHeader d.payload size h))
  unfold savePayload
  dsimp only
  split
  · rename_i message drive heq
    rw [heq] at hheader
    exact .after hheader _ _ _
  · rename_i drive heq
    rw [heq] at hheader
    have hrest := (Steady.after hheader d.lastError
      (DiskHeader.field.store (fun _ => 0) 0 (payloadHeader d.payload size h)) d.payload).trans
      (writePayload_steady _ 0 (sectorCount size) (by unfold sectorCount; omega))
    split
    · exact hrest
    · exact hrest.trans (.flush _ _)

theorem diskSaveFs_steady (t : Nodes) (d : Disk) : Steady d (diskSaveFs t d).2 := by
  unfold diskSaveFs
  split
  · exact .after rfl _ _ _
  · dsimp only
    split
    · exact .after rfl _ _ _
    · exact (Steady.after rfl d.lastError d.sector (fsSerialize t d.payload).2).trans
        (savePayload_steady _ _ _)

theorem diskFormatFs_steady (d : Disk) : Steady d (diskFormatFs d).2.2 := by
  have hsave := diskSaveFs_steady fsInit d
  unfold diskFormatFs
  dsimp only
  split
  · exact hsave
  · exact hsave.trans (.after rfl _ _ _)

/-! ### Reading -/

theorem readPayload_steady (d : Disk) (i count : Nat) (h : i + count ≤ 4095) :
    Steady d (readPayload d i count h).2 := by
  induction count generalizing d i with
  | zero => exact .refl d
  | succ count ih =>
    have hread := ataReadSector_outcome d.drive (2048 + 1 + i) (slice d.payload (i * 512) 512 (by omega))
    rw [readPayload]
    split
    · rename_i message buffer drive heq
      rw [heq] at hread
      exact .after hread _ _ _
    · rename_i buffer drive heq
      rw [heq] at hread
      exact (Steady.after hread d.lastError d.sector (splice d.payload (i * 512) buffer)).trans
        (ih _ (i + 1) (by omega))

theorem loadPayload_steady (t : Nodes) (d : Disk) (header : DiskHeader) :
    Steady d (loadPayload t d header).2.2 := by
  unfold loadPayload
  split
  · exact .after rfl _ _ _
  · have hread := readPayload_steady d 0 (sectorCount header.payloadSize.toNat)
      (by unfold sectorCount; omega)
    split
    rename_i status d' heq
    rw [heq] at hread
    split
    · exact hread
    · unfold decodePayload
      split
      · exact hread.trans (.after rfl _ _ _)
      · dsimp only
        split <;> exact hread.trans (.after rfl _ _ _)

theorem diskLoadFs_steady (t : Nodes) (d : Disk) : Steady d (diskLoadFs t d).2.2 := by
  have hheader := ataReadSector_outcome d.drive 2048 d.sector
  unfold diskLoadFs
  split
  · exact .after rfl _ _ _
  · split
    · rename_i message buffer drive heq
      rw [heq] at hheader
      exact .after hheader _ _ _
    · rename_i buffer drive heq
      rw [heq] at hheader
      have hbuffer := Steady.after hheader d.lastError buffer d.payload
      dsimp only
      split
      · exact hbuffer.trans (.after rfl _ _ _)
      · exact hbuffer.trans (loadPayload_steady t _ _)

/-! ### What is loaded -/

theorem StoredImage.congr {d d' : Disk} {len : Nat} {image : Fin len → UInt8} (h : StoredImage d image)
    (hsel : 0 ≤ d'.selectedDisk) (hok : d'.drive.NeverFails) (hsectors : d'.drive.sectors = d.drive.sectors) :
    StoredImage d' image where
  selected := hsel
  header_read := hok _
  installed := by rw [hsectors, h.installed]
  length := by rw [hsectors, h.length]
  nonempty := h.nonempty
  fits := h.fits
  image_read := fun _ _ => hok _
  bytes := fun x => by rw [hsectors, h.bytes]
  checksum := by rw [hsectors, h.checksum]

/-- What a selected drive that never fails loads is in its sectors. -/
theorem diskLoadFs_congr {d d' : Disk} (hsel : 0 ≤ d.selectedDisk) (hsel' : 0 ≤ d'.selectedDisk)
    (hok : d.drive.NeverFails) (hok' : d'.drive.NeverFails)
    (hsectors : d'.drive.sectors = d.drive.sectors) (t : Nodes) :
    (diskLoadFs t d').1 = (diskLoadFs t d).1 ∧ (diskLoadFs t d').2.1 = (diskLoadFs t d).2.1 := by
  by_cases hstored : ∃ (len : Nat) (image : Fin len → UInt8), StoredImage d image
  · obtain ⟨len, image, himage⟩ := hstored
    have hload := diskLoadFs_stored himage t
    have hload' := diskLoadFs_stored (himage.congr hsel' hok' hsectors) t
    rw [hload.1, hload'.1, hload.2, hload'.2]
    exact ⟨rfl, rfl⟩
  · have hstored' : ¬ ∃ (len : Nat) (image : Fin len → UInt8), StoredImage d' image := by
      intro h
      obtain ⟨len, image, himage⟩ := h
      exact hstored ⟨len, image, himage.congr hsel hok hsectors.symm⟩
    have hload := diskLoadFs_unstored hstored t
    have hload' := diskLoadFs_unstored hstored' t
    rw [hload.1, hload'.1, hload.2, hload'.2]
    exact ⟨rfl, rfl⟩

end FurOS
