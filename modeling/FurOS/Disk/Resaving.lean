import FurOS.Disk.Steady
import FurOS.Disk.Persistence

/-! When a save changes nothing.

A save writes sector after sector until a write fails. It leaves the disk as it was exactly
when every write that it comes to either puts what the sector holds already, or fails and
leaves it. -/
namespace FurOS
open Foundation (Field)
open Foundation.Buffer (slice)

/-- A write of `content` that ends so leaves `held` where it was. -/
def Outcome.Spares (content held : Sector) : Outcome → Prop
  | .ok => content = held
  | .failed _ left => left.getD held = held

theorem ataWriteSector_sectors (d : Drive) (lba : Nat) (content : Sector) :
    (ataWriteSector d lba content).2.sectors lba =
      match d.upcoming with
      | .ok => content
      | .failed _ left => left.getD (d.sectors lba) := by
  unfold ataWriteSector
  cases d.upcoming with
  | ok => exact Function.update_self ..
  | failed message left => exact Function.update_self ..

theorem ataWriteSector_other (d : Drive) {lba lba' : Nat} (h : lba' ≠ lba) (content : Sector) :
    (ataWriteSector d lba content).2.sectors lba' = d.sectors lba' := by
  unfold ataWriteSector
  cases d.upcoming with
  | ok => exact Function.update_of_ne h ..
  | failed message left => exact Function.update_of_ne h ..

/-- One write leaves the disk as it was exactly when it spares its sector. -/
theorem ataWriteSector_unchanged_iff (d : Drive) (lba : Nat) (content : Sector) :
    (ataWriteSector d lba content).2.sectors = d.sectors ↔ d.upcoming.Spares content (d.sectors lba) := by
  have hself := ataWriteSector_sectors d lba content
  constructor
  · intro h
    rw [h] at hself
    cases hup : d.upcoming with
    | ok =>
      rw [hup] at hself
      exact hself.symm
    | failed message left =>
      rw [hup] at hself
      exact hself.symm
  · intro h
    funext lba'
    by_cases he : lba' = lba
    · subst he
      rw [hself]
      cases hup : d.upcoming with
      | ok =>
        rw [hup] at h
        exact h
      | failed message left =>
        rw [hup] at h
        exact h
    · exact ataWriteSector_other d he content

/-- The writes of an image stay in their sectors. -/
theorem writePayload_other (d : Disk) (i count : Nat) (h : i + count ≤ 4095) {lba : Nat}
    (hlba : lba < 2048 + 1 + i) : (writePayload d i count h).2.drive.sectors lba = d.drive.sectors lba := by
  induction count generalizing d i with
  | zero => rfl
  | succ count ih =>
    have hfirst := ataWriteSector_other d.drive (show lba ≠ 2048 + 1 + i by omega)
      (slice d.payload (i * 512) 512 (by omega))
    rw [writePayload]
    split
    · rename_i message drive heq
      rwa [heq] at hfirst
    · rename_i drive heq
      rw [heq] at hfirst
      exact (ih {d with drive := drive} (i + 1) (by omega) (by omega)).trans hfirst

/-- The writes of an image, from sector `i` of it on. -/
theorem writePayload_unchanged_iff (d : Disk) (i count : Nat) (h : i + count ≤ 4095) :
    (writePayload d i count h).2.drive.sectors = d.drive.sectors ↔
      ∀ k (hk : k < count), (∀ j < k, d.drive.outcome (d.drive.ops + j) = .ok) →
        (d.drive.outcome (d.drive.ops + k)).Spares (slice d.payload ((i + k) * 512) 512 (by omega))
          (d.drive.sectors (2048 + 1 + (i + k))) := by
  induction count generalizing d i with
  | zero => exact ⟨fun _ k hk => absurd hk (Nat.not_lt_zero k), fun _ => rfl⟩
  | succ count ih =>
    have hfirst := ataWriteSector_unchanged_iff d.drive (2048 + 1 + i)
      (slice d.payload (i * 512) 512 (by omega))
    cases hup : d.drive.upcoming with
    | failed message left =>
      have hstop : (writePayload d i (count + 1) h).2.drive.sectors =
          (ataWriteSector d.drive (2048 + 1 + i) (slice d.payload (i * 512) 512 (by omega))).2.sectors := by
        rw [writePayload, ataWriteSector_failed hup]
      rw [hstop, hfirst]
      constructor
      · intro hspares k hk hok
        cases k with
        | zero => exact hspares
        | succ k =>
          have := hok 0 (Nat.succ_pos k)
          rw [show d.drive.outcome (d.drive.ops + 0) = d.drive.upcoming from rfl, hup] at this
          cases this
      · intro hall
        exact hall 0 (Nat.succ_pos count) fun j hj => absurd hj (Nat.not_lt_zero j)
    | ok =>
      -- the first write succeeds, and the others go on from what it leaves
      obtain ⟨d', hstep, hpayload, hout, hops, hsectors⟩ : ∃ d' : Disk,
          writePayload d i (count + 1) h = writePayload d' (i + 1) count (by omega) ∧
          d'.payload = d.payload ∧ d'.drive.outcome = d.drive.outcome ∧
          d'.drive.ops = d.drive.ops + 1 ∧ d'.drive.sectors =
            (ataWriteSector d.drive (2048 + 1 + i) (slice d.payload (i * 512) 512 (by omega))).2.sectors := by
        refine ⟨{d with drive := (ataWriteSector d.drive (2048 + 1 + i)
          (slice d.payload (i * 512) 512 (by omega))).2}, ?_, rfl, ?_, ?_, rfl⟩
        · rw [writePayload, ataWriteSector_ok hup]
        · rw [ataWriteSector_ok hup]
        · rw [ataWriteSector_ok hup]
      have hrest := ih d' (i + 1) (by omega)
      have hself := ataWriteSector_sectors d.drive (2048 + 1 + i) (slice d.payload (i * 512) 512 (by omega))
      rw [hup] at hself
      have hreached : ∀ k, (∀ j < k, d'.drive.outcome (d'.drive.ops + j) = .ok) ↔
          ∀ j < k + 1, d.drive.outcome (d.drive.ops + j) = .ok := by
        intro k
        rw [hout, hops]
        constructor
        · intro hok j hj
          cases j with
          | zero => exact hup
          | succ j =>
            have := hok j (by omega)
            rwa [Nat.add_right_comm] at this
        · intro hok j hj
          have := hok (j + 1) (by omega)
          rwa [← Nat.add_assoc, Nat.add_right_comm] at this
      have hspared : ∀ k (hk : k < count), d'.drive.sectors = d.drive.sectors →
          ((d'.drive.outcome (d'.drive.ops + k)).Spares
            (slice d'.payload ((i + 1 + k) * 512) 512 (by omega)) (d'.drive.sectors (2048 + 1 + (i + 1 + k))) ↔
          (d.drive.outcome (d.drive.ops + (k + 1))).Spares
            (slice d.payload ((i + (k + 1)) * 512) 512 (by omega))
            (d.drive.sectors (2048 + 1 + (i + (k + 1))))) := by
        intro k hk hsame
        have hidx : i + 1 + k = i + (k + 1) := by omega
        have hop : d.drive.ops + 1 + k = d.drive.ops + (k + 1) := by omega
        have hend : d'.drive.outcome (d'.drive.ops + k) = d.drive.outcome (d.drive.ops + (k + 1)) := by
          rw [hout, hops, hop]
        have hheld : d'.drive.sectors (2048 + 1 + (i + 1 + k)) =
            d.drive.sectors (2048 + 1 + (i + (k + 1))) := by
          rw [hsame, hidx]
        have hoff : (i + 1 + k) * 512 = (i + (k + 1)) * 512 := by rw [hidx]
        have hslice := Foundation.Buffer.slice_congr (m := 512) d.payload hoff (by omega) (by omega)
        rw [hend, hheld, hpayload, hslice]
      rw [hstep]
      constructor
      · intro hfinal
        have hheld := writePayload_other d' (i + 1) count (by omega)
          (show 2048 + 1 + i < 2048 + 1 + (i + 1) by omega)
        rw [hfinal, hsectors, hself] at hheld
        have hsame : d'.drive.sectors = d.drive.sectors :=
          hsectors.trans (hfirst.mpr (by rw [hup]; exact hheld.symm))
        intro k hk hok
        cases k with
        | zero =>
          rw [show d.drive.outcome (d.drive.ops + 0) = d.drive.upcoming from rfl, hup]
          exact hheld.symm
        | succ k =>
          exact (hspared k (by omega) hsame).mp
            (hrest.mp (hfinal.trans hsame.symm) k (by omega) ((hreached k).mpr hok))
      · intro hall
        have hzero := hall 0 (Nat.succ_pos count) fun j hj => absurd hj (Nat.not_lt_zero j)
        have hsame : d'.drive.sectors = d.drive.sectors := hsectors.trans (hfirst.mpr hzero)
        refine (hrest.mpr fun k hk hok => ?_).trans hsame
        exact (hspared k hk hsame).mpr (hall (k + 1) (by omega) ((hreached k).mp hok))

/-- After the header the sectors of the image are written. -/
theorem savePayload_written (d : Disk) {size : Nat} (hsize : size ≤ 2096640) {header : Sector}
    (hheader : DiskHeader.field.store (fun _ => 0) 0 (payloadHeader d.payload size hsize) = header)
    (hle : 0 + sectorCount size ≤ 4095) (hup : d.drive.upcoming = .ok) :
    ∃ d₁ : Disk, (savePayload d size hsize).2.drive.sectors =
        (writePayload d₁ 0 (sectorCount size) hle).2.drive.sectors ∧
      d₁.payload = d.payload ∧ d₁.drive.outcome = d.drive.outcome ∧ d₁.drive.ops = d.drive.ops + 1 ∧
      d₁.drive.sectors = (ataWriteSector d.drive 2048 header).2.sectors := by
  refine ⟨{d with sector := header, drive := (ataWriteSector d.drive 2048 header).2}, ?_, rfl, ?_, ?_, rfl⟩
  · unfold savePayload
    dsimp only
    rw [hheader, ataWriteSector_ok hup]
    dsimp only
    split <;> rfl
  · rw [ataWriteSector_ok hup]
  · rw [ataWriteSector_ok hup]

/-- The header and then the image, however long. -/
theorem savePayload_unchanged_iff (d : Disk) (size : Nat) (hsize : size ≤ 2096640) (header : Sector)
    (hheader : DiskHeader.field.store (fun _ => 0) 0 (payloadHeader d.payload size hsize) = header)
    (hcount : sectorCount size ≤ 4095) :
    (savePayload d size hsize).2.drive.sectors = d.drive.sectors ↔
      d.drive.upcoming.Spares header (d.drive.sectors 2048) ∧
        (d.drive.upcoming = .ok → ∀ k (hk : k < sectorCount size),
          (∀ j < k, d.drive.outcome (d.drive.ops + 1 + j) = .ok) →
            (d.drive.outcome (d.drive.ops + 1 + k)).Spares (slice d.payload (k * 512) 512 (by omega))
              (d.drive.sectors (2049 + k))) := by
  have hfirst := ataWriteSector_unchanged_iff d.drive 2048 header
  cases hup : d.drive.upcoming with
  | failed message left =>
    have hstop : (savePayload d size hsize).2.drive.sectors =
        (ataWriteSector d.drive 2048 header).2.sectors := by
      unfold savePayload
      dsimp only
      rw [hheader, ataWriteSector_failed hup]
    rw [hup] at hfirst
    rw [hstop]
    exact hfirst.trans ⟨fun h => ⟨h, fun h => by cases h⟩, fun h => h.1⟩
  | ok =>
    have hle : 0 + sectorCount size ≤ 4095 := by omega
    obtain ⟨d₁, hstep, hpayload, hout, hops, hsectors⟩ := savePayload_written d hsize hheader hle hup
    have hself := ataWriteSector_sectors d.drive 2048 header
    rw [hup] at hself
    have hrest := writePayload_unchanged_iff d₁ 0 (sectorCount size) hle
    have hspared : ∀ k (hk : k < sectorCount size), d₁.drive.sectors = d.drive.sectors →
        ((d₁.drive.outcome (d₁.drive.ops + k)).Spares (slice d₁.payload ((0 + k) * 512) 512 (by omega))
          (d₁.drive.sectors (2048 + 1 + (0 + k))) ↔
        (d.drive.outcome (d.drive.ops + 1 + k)).Spares (slice d.payload (k * 512) 512 (by omega))
          (d.drive.sectors (2049 + k))) := by
      intro k hk hsame
      have hend : d₁.drive.outcome (d₁.drive.ops + k) = d.drive.outcome (d.drive.ops + 1 + k) := by
        rw [hout, hops]
      have hheld : d₁.drive.sectors (2048 + 1 + (0 + k)) = d.drive.sectors (2049 + k) := by
        rw [hsame, Nat.zero_add]
      have hoff : (0 + k) * 512 = k * 512 := by rw [Nat.zero_add]
      have hslice := Foundation.Buffer.slice_congr (m := 512) d.payload hoff (by omega) (by omega)
      rw [hend, hheld, hpayload, hslice]
    have hreached : ∀ k, (∀ j < k, d₁.drive.outcome (d₁.drive.ops + j) = .ok) ↔
        ∀ j < k, d.drive.outcome (d.drive.ops + 1 + j) = .ok := by
      intro k
      rw [hout, hops]
    rw [hstep]
    constructor
    · intro hfinal
      have hheld := writePayload_other d₁ 0 (sectorCount size) hle (show 2048 < 2048 + 1 + 0 by omega)
      rw [hfinal, hsectors, hself] at hheld
      have hspares : Outcome.ok.Spares header (d.drive.sectors 2048) := hheld.symm
      have hsame : d₁.drive.sectors = d.drive.sectors := hsectors.trans (hfirst.mpr (by rwa [hup]))
      refine ⟨hspares, fun _ k hk hok => ?_⟩
      exact (hspared k hk hsame).mp
        (hrest.mp (hfinal.trans hsame.symm) k hk ((hreached k).mpr hok))
    · intro hs
      obtain ⟨hspares, hall⟩ := hs
      have hsame : d₁.drive.sectors = d.drive.sectors := hsectors.trans (hfirst.mpr (by rwa [hup]))
      refine (hrest.mpr fun k hk hok => ?_).trans hsame
      exact (hspared k hk hsame).mpr (hall rfl k hk ((hreached k).mp hok))

/-! ### A save of the table -/

/-- What a save of `t` writes to the first sector of the image area. -/
def headerSector (t : Nodes) : Sector := DiskHeader.field.store (fun _ => 0) 0 (savedHeader t)

/-- What it writes to the sectors after it, given what the buffer holds before. -/
def imageSector (t : Nodes) (payload : Fin 2096640 → UInt8) (k : Nat) (hk : k < 1036) : Sector :=
  slice (fsSerialize t payload).2 (k * 512) 512 (by omega)

/-- Every write that a save of `t` comes to spares its sector. -/
def SavesWhatIsThere (t : Nodes) (d : Disk) : Prop :=
  d.drive.upcoming.Spares (headerSector t) (d.drive.sectors 2048) ∧
    (d.drive.upcoming = .ok → ∀ k (hk : k < 1036), (∀ j < k, d.drive.outcome (d.drive.ops + 1 + j) = .ok) →
      (d.drive.outcome (d.drive.ops + 1 + k)).Spares (imageSector t d.payload k hk)
        (d.drive.sectors (2049 + k)))

/-- **A save leaves every sector as it was exactly when it saves what is there.** -/
theorem diskSaveFs_unchanged_iff {d : Disk} (hsel : 0 ≤ d.selectedDisk) (t : Nodes) :
    (diskSaveFs t d).2.drive.sectors = d.drive.sectors ↔ SavesWhatIsThere t d := by
  have hheader : DiskHeader.field.store (fun _ => 0) 0
      (payloadHeader (fsSerialize t d.payload).2 530192 (by decide)) = headerSector t := by
    rw [payloadHeader_fsSerialize, headerSector]
  have hsave := savePayload_unchanged_iff {d with payload := (fsSerialize t d.payload).2} 530192
    (by decide) (headerSector t) hheader (by rw [sectorCount_image]; decide)
  rw [diskSaveFs_eq hsel]
  refine hsave.trans (and_congr_right fun _ => forall_congr' fun _ => forall_congr' fun k => ?_)
  constructor
  · intro h hk
    exact h (by rw [sectorCount_image]; exact hk)
  · intro h hk
    exact h (by rw [sectorCount_image] at hk; exact hk)

/-- The table that a disk holds, saved from a buffer with the sectors of the disk in it. -/
theorem savesWhatIsThere_of_read {t : Nodes} {d : Disk} (hsaved : Saved t d.drive.sectors)
    (hheader : d.drive.sectors 2048 = headerSector t) (hok : d.drive.NeverFails)
    (hread : ∀ k (hk : k < 1036), slice d.payload (k * 512) 512 (by omega) = d.drive.sectors (2049 + k)) :
    SavesWhatIsThere t d := by
  have hup : d.drive.upcoming = .ok := hok _
  refine ⟨by rw [hup]; exact hheader.symm, fun _ k hk _ => ?_⟩
  rw [hok]
  show imageSector t d.payload k hk = d.drive.sectors (2049 + k)
  funext j
  have hj := j.isLt
  by_cases hin : k * 512 + j.val < 530192
  · have hbyte := hsaved.image ⟨k * 512 + j.val, hin⟩
    have hdiv : (k * 512 + j.val) / 512 = k := by omega
    have hcell : Fin.ofNat 512 (k * 512 + j.val) = j := Fin.ext (by show (k * 512 + j.val) % 512 = j.val; omega)
    unfold storedByte at hbyte
    rw [← slice_fsSerialize t d.payload (by decide), hdiv, hcell] at hbyte
    rw [hbyte]
    unfold imageSector slice
    refine congrArg _ (Fin.ext ?_)
    show k * 512 + j.val = 0 + (k * 512 + j.val)
    omega
  · rw [← hread k hk]
    exact fsSerialize_behind t d.payload _ (by show 530192 ≤ k * 512 + j.val; omega)

/-- A save whose first write succeeds leaves its header. -/
theorem diskSaveFs_header {d : Disk} (hsel : 0 ≤ d.selectedDisk) (hup : d.drive.upcoming = .ok) (t : Nodes) :
    (diskSaveFs t d).2.drive.sectors 2048 = headerSector t := by
  have hheader : DiskHeader.field.store (fun _ => 0) 0
      (payloadHeader (fsSerialize t d.payload).2 530192 (by decide)) = headerSector t := by
    rw [payloadHeader_fsSerialize, headerSector]
  have hle : 0 + sectorCount 530192 ≤ 4095 := by decide
  obtain ⟨d₁, hstep, _, _, _, hsectors⟩ := savePayload_written {d with payload := (fsSerialize t d.payload).2}
    (by decide) hheader hle hup
  have hself := ataWriteSector_sectors d.drive 2048 (headerSector t)
  rw [hup] at hself
  rw [diskSaveFs_eq hsel, hstep, writePayload_other d₁ 0 _ hle (by decide), hsectors]
  exact hself

end FurOS
