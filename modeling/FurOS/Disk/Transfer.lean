import FurOS.Disk.Store
import Mathlib.Order.Basic
import Mathlib.Data.Nat.Find

/-! What loading reads and saving writes.

Both are loops over sectors that stop at the first failure, so a prefix of
successful operations can be taken off the front of either. `StoredImage` is what a
disk must hold, and how its reads must end, for a load to reach the decoder;
without it a load fails and touches nothing. `Saved` is what a save leaves. -/
namespace FurOS
open Foundation (Field)
open Foundation.Buffer (slice splice byteSum)

/-! ### Reading -/

/-- Byte `x` of the image area. -/
def storedByte (sectors : Nat → Sector) (x : Nat) : UInt8 := sectors (2049 + x / 512) (Fin.ofNat 512 x)

/-- The header in sector 2048. -/
def storedHeader (sectors : Nat → Sector) : DiskHeader := .ofSector (sectors 2048)

/-- Successful reads store their sectors, and the rest goes on after them. -/
theorem readPayload_prefix (d : Disk) (i count j : Nat) (h : i + count ≤ 4095) (hj : j ≤ count)
    (hok : ∀ k < j, d.drive.outcome (d.drive.ops + k) = .ok) :
    ∃ payload log, readPayload d i count h =
        readPayload {d with payload := payload, drive := {d.drive with ops := d.drive.ops + j, log := log}}
          (i + j) (count - j) (by omega) ∧
      (∀ k (hk : k < i), slice payload (k * 512) 512 (by omega) =
        slice d.payload (k * 512) 512 (by omega)) ∧
      ∀ k (_ : i ≤ k) (hk : k < i + j), slice payload (k * 512) 512 (by omega) =
        d.drive.sectors (2049 + k) := by
  induction j generalizing d i count with
  | zero => exact ⟨d.payload, d.drive.log, rfl, fun _ _ => rfl, fun k hi hk => absurd hk (by omega)⟩
  | succ j ih =>
    obtain ⟨count, rfl⟩ : ∃ c, count = c + 1 := ⟨count - 1, by omega⟩
    have hup : d.drive.upcoming = .ok := hok 0 (by omega)
    obtain ⟨payload, log, heq, hbefore, hread⟩ := ih
      {d with
        payload := splice d.payload (i * 512) (d.drive.sectors (2048 + 1 + i))
        drive := {d.drive with ops := d.drive.ops + 1, log := .read (2048 + 1 + i) :: d.drive.log}}
      (i + 1) count (by omega) (by omega) (fun k hk => by
        have := hok (k + 1) (by omega)
        rwa [← Nat.add_assoc, Nat.add_right_comm] at this)
    refine ⟨payload, log, ?_, fun k hk => ?_, fun k hi hk => ?_⟩
    · rw [readPayload, ataReadSector_ok hup]
      dsimp only
      rw [heq]
      have hi : i + 1 + j = i + (j + 1) := by omega
      have hops : d.drive.ops + 1 + j = d.drive.ops + (j + 1) := by omega
      have hc : count - j = count + 1 - (j + 1) := by omega
      simp only [hi, hops, hc]
    · rw [hbefore k (by omega)]
      exact Foundation.Buffer.slice_splice_disjoint _ _ _ _ _ (.inl (by omega))
    · by_cases hfirst : k = i
      · subst hfirst
        rw [hbefore k (by omega)]
        exact Foundation.Buffer.slice_splice _ _ _ _
      · exact hread k (by omega) (by omega)

/-- Reads that all succeed fill the payload from the image area. -/
theorem readPayload_ok (d : Disk) (count : Nat) (h : 0 + count ≤ 4095)
    (hok : ∀ k < count, d.drive.outcome (d.drive.ops + k) = .ok) :
    ∃ payload log, readPayload d 0 count h =
        (0, {d with payload := payload, drive := {d.drive with ops := d.drive.ops + count, log := log}}) ∧
      ∀ k (hk : k < count), slice payload (k * 512) 512 (by omega) = d.drive.sectors (2049 + k) := by
  obtain ⟨payload, log, heq, _, hread⟩ := readPayload_prefix d 0 count count h (le_refl _) hok
  refine ⟨payload, log, ?_, fun k hk => ?_⟩
  · rw [heq]
    simp only [Nat.sub_self]
    rfl
  · exact hread k (Nat.zero_le k) (by omega)

/-- A read that fails ends the loop. -/
theorem readPayload_failed (d : Disk) (count : Nat) (h : 0 + count ≤ 4095)
    (hfail : ∃ k < count, d.drive.outcome (d.drive.ops + k) ≠ .ok) :
    (readPayload d 0 count h).1 = -1 := by
  classical
  obtain ⟨hlt, hbad⟩ := Nat.find_spec hfail
  have hok : ∀ k < Nat.find hfail, d.drive.outcome (d.drive.ops + k) = .ok := by
    intro k hk
    by_contra hne
    exact Nat.find_min hfail hk ⟨by omega, hne⟩
  obtain ⟨payload, log, heq, _⟩ := readPayload_prefix d 0 count _ h hlt.le hok
  rw [heq]
  obtain ⟨rest, hrest⟩ : ∃ r, count - Nat.find hfail = r + 1 := ⟨count - Nat.find hfail - 1, by omega⟩
  simp only [hrest]
  rw [readPayload]
  obtain ⟨message, hmsg⟩ := ataReadSector_failed
    (d := {d.drive with ops := d.drive.ops + Nat.find hfail, log := log}) hbad (2048 + 1 + (0 + Nat.find hfail))
    (slice payload ((0 + Nat.find hfail) * 512) 512 (by omega))
  split
  · rfl
  · rename_i heq'
    rw [heq'] at hmsg
    cases hmsg

/-- The image that a load hands to the decoder: the disk is selected and its reads succeed, the
header and the byte sum are right. -/
structure StoredImage (d : Disk) {len : Nat} (image : Fin len → UInt8) : Prop where
  selected : 0 ≤ d.selectedDisk
  header_read : d.drive.outcome d.drive.ops = .ok
  installed : (storedHeader d.drive.sectors).installed = true
  length : (storedHeader d.drive.sectors).payloadSize.toNat = len
  nonempty : 0 < len
  fits : len ≤ 2096640
  image_read : ∀ k < sectorCount len, d.drive.outcome (d.drive.ops + 1 + k) = .ok
  bytes : ∀ x, image x = storedByte d.drive.sectors x.val
  checksum : byteSum image = (storedHeader d.drive.sectors).checksum

/-- The bytes read are the stored ones. -/
theorem slice_read {payload : Fin 2096640 → UInt8} {drive : Drive} {len : Nat} (hlen : 0 + len ≤ 2096640)
    (hle : 0 + sectorCount len ≤ 4095)
    (hread : ∀ k (hk : k < sectorCount len), slice payload (k * 512) 512 (by omega) =
      drive.sectors (2049 + k))
    (x : Fin len) : slice payload 0 len hlen x = storedByte drive.sectors x.val := by
  have hk : x.val / 512 < sectorCount len := by
    have hx := x.isLt
    unfold sectorCount
    omega
  have := congrFun (hread (x.val / 512) hk) (Fin.ofNat 512 x.val)
  unfold storedByte
  rw [← this]
  unfold slice
  congr 1
  apply Fin.ext
  show 0 + x.val = x.val / 512 * 512 + x.val % 512
  omega

/-- What `loadPayload` does when every read succeeds: the sectors are in the buffer. -/
theorem loadPayload_read (t : Nodes) (d : Disk) (header : DiskHeader)
    (hsize : ¬ (header.payloadSize.toNat = 0 ∨ header.payloadSize.toNat > 2096640))
    (hread : ∀ k < sectorCount header.payloadSize.toNat, d.drive.outcome (d.drive.ops + k) = .ok) :
    ∃ d', loadPayload t d header =
      decodePayload t d' (fun x : Fin header.payloadSize.toNat => storedByte d.drive.sectors x.val)
        header.checksum ∧
      ∀ k (hk : k < 4095), k < sectorCount header.payloadSize.toNat →
        slice d'.payload (k * 512) 512 (by omega) = d.drive.sectors (2049 + k) := by
  have hle : 0 + sectorCount header.payloadSize.toNat ≤ 4095 := by unfold sectorCount; omega
  obtain ⟨payload, log, heq, hpay⟩ := readPayload_ok d (sectorCount header.payloadSize.toNat) hle hread
  have himage : slice payload 0 header.payloadSize.toNat (by omega) =
      fun x => storedByte d.drive.sectors x.val := funext (slice_read (by omega) hle hpay)
  refine ⟨{d with
    payload := payload
    drive := {d.drive with ops := d.drive.ops + sectorCount header.payloadSize.toNat, log := log}}, ?_,
    fun k _ hk => hpay k hk⟩
  unfold loadPayload
  rw [dif_neg hsize, heq]
  dsimp only
  rw [if_neg (by decide), himage]

theorem decodePayload_sum {t : Nodes} {d : Disk} {len : Nat} {image : Fin len → UInt8}
    {checksum : UInt32} (h : byteSum image = checksum) :
    (decodePayload t d image checksum).1 = (if (fsDeserialize t image).1 ≠ 0 then -1 else 0) ∧
      (decodePayload t d image checksum).2.1 = (fsDeserialize t image).2 := by
  unfold decodePayload
  rw [if_neg (by simp [h])]
  dsimp only
  split <;> exact ⟨rfl, rfl⟩

theorem decodePayload_payload {t : Nodes} {d : Disk} {len : Nat} {image : Fin len → UInt8} {checksum : UInt32} :
    (decodePayload t d image checksum).2.2.payload = d.payload := by
  unfold decodePayload
  split
  · rfl
  · dsimp only
    split <;> rfl

/-- A stored image is read into the buffer and decoded. -/
theorem diskLoadFs_read {d : Disk} {len : Nat} {image : Fin len → UInt8} (h : StoredImage d image) (t : Nodes) :
    ∃ d', diskLoadFs t d = decodePayload t d' image (storedHeader d.drive.sectors).checksum ∧
      ∀ k (hk : k < 4095), k < sectorCount len →
        slice d'.payload (k * 512) 512 (by omega) = d.drive.sectors (2049 + k) := by
  obtain ⟨hsel, hhr, hins, hlen, hpos, hfits, hread, hbytes, hsum⟩ := h
  subst hlen
  obtain ⟨d', heq, hslices⟩ := loadPayload_read t
    {d with
      sector := d.drive.sectors 2048
      drive := {d.drive with ops := d.drive.ops + 1, log := .read 2048 :: d.drive.log}}
    (storedHeader d.drive.sectors) (by omega) hread
  have himage : (fun x : Fin (storedHeader d.drive.sectors).payloadSize.toNat => storedByte d.drive.sectors x.val) =
      image := funext fun x => (hbytes x).symm
  refine ⟨d', ?_, hslices⟩
  unfold diskLoadFs
  rw [if_neg (by simp [diskAvailable, hsel]), ataReadSector_ok hhr]
  dsimp only
  change (if (!(storedHeader d.drive.sectors).installed) = true then _
    else loadPayload t _ (storedHeader d.drive.sectors)) = _
  rw [if_neg (by simp [hins]), heq]
  exact congrArg (fun image => decodePayload t d' image _) himage

theorem diskLoadFs_stored {d : Disk} {len : Nat} {image : Fin len → UInt8} (h : StoredImage d image)
    (t : Nodes) :
    (diskLoadFs t d).1 = (if (fsDeserialize t image).1 ≠ 0 then -1 else 0) ∧
      (diskLoadFs t d).2.1 = (fsDeserialize t image).2 := by
  obtain ⟨d', hload, _⟩ := diskLoadFs_read h t
  rw [hload]
  exact decodePayload_sum h.checksum

theorem diskLoadFs_payload {d : Disk} {len : Nat} {image : Fin len → UInt8} (h : StoredImage d image)
    (t : Nodes) {k : Nat} (hk : k < 4095) (hlen : k < sectorCount len) :
    slice (diskLoadFs t d).2.2.payload (k * 512) 512 (by omega) = d.drive.sectors (2049 + k) := by
  obtain ⟨d', hload, hslices⟩ := diskLoadFs_read h t
  rw [hload, decodePayload_payload]
  exact hslices k hk hlen

/-- Without one the load fails and the table stays as it is. -/
theorem diskLoadFs_unstored {d : Disk}
    (h : ¬ ∃ (len : Nat) (image : Fin len → UInt8), StoredImage d image) (t : Nodes) :
    (diskLoadFs t d).1 = -1 ∧ (diskLoadFs t d).2.1 = t := by
  unfold diskLoadFs
  split
  · exact ⟨rfl, rfl⟩
  rename_i hav
  have hsel : 0 ≤ d.selectedDisk := by simpa [diskAvailable] using hav
  by_cases hhr : d.drive.upcoming = .ok
  swap
  · obtain ⟨message, hmsg⟩ := ataReadSector_failed hhr 2048 d.sector
    split
    · exact ⟨rfl, rfl⟩
    · rename_i heq
      rw [heq] at hmsg
      cases hmsg
  rw [ataReadSector_ok hhr]
  dsimp only
  change (if (!(storedHeader d.drive.sectors).installed) = true then _
      else loadPayload t _ (storedHeader d.drive.sectors)).1 = _ ∧
    (if (!(storedHeader d.drive.sectors).installed) = true then _
      else loadPayload t _ (storedHeader d.drive.sectors)).2.1 = _
  cases hins : (storedHeader d.drive.sectors).installed with
  | false => exact ⟨rfl, rfl⟩
  | true =>
    rw [if_neg (by decide)]
    by_cases hsize : (storedHeader d.drive.sectors).payloadSize.toNat = 0 ∨
        (storedHeader d.drive.sectors).payloadSize.toNat > 2096640
    · unfold loadPayload
      rw [dif_pos hsize]
      exact ⟨rfl, rfl⟩
    by_cases hread : ∀ k < sectorCount (storedHeader d.drive.sectors).payloadSize.toNat,
        d.drive.outcome (d.drive.ops + 1 + k) = .ok
    · obtain ⟨d', heq, -⟩ := loadPayload_read t
        {d with
          sector := d.drive.sectors 2048
          drive := {d.drive with ops := d.drive.ops + 1, log := .read 2048 :: d.drive.log}}
        (storedHeader d.drive.sectors) hsize hread
      rw [heq]
      unfold decodePayload
      split
      · exact ⟨rfl, rfl⟩
      · rename_i hsum
        refine absurd ⟨_, fun x => storedByte d.drive.sectors x.val, hsel, hhr, hins, rfl, by omega, by omega,
          hread, fun _ => rfl, ?_⟩ h
        exact not_not.mp hsum
    · have hle : 0 + sectorCount (storedHeader d.drive.sectors).payloadSize.toNat ≤ 4095 := by
        unfold sectorCount
        omega
      have hfail := readPayload_failed
        {d with
          sector := d.drive.sectors 2048
          drive := {d.drive with ops := d.drive.ops + 1, log := .read 2048 :: d.drive.log}}
        (sectorCount (storedHeader d.drive.sectors).payloadSize.toNat) hle (by push Not at hread; exact hread)
      unfold loadPayload
      rw [dif_neg hsize]
      dsimp only
      rw [hfail, if_pos (by decide)]
      exact ⟨rfl, rfl⟩

/-! ### Writing -/

/-- The header a table is saved with. -/
def savedHeader (t : Nodes) : DiskHeader :=
  { magic := kstrcpy (fun _ => 0) (lit "FURDSK1")
    version := 1
    payloadSize := UInt32.ofNat 530192
    checksum := byteSum (fsImage t) }

theorem savedHeader_installed (t : Nodes) : (savedHeader t).installed = true := by
  have hmagic : kstrncmp (List.ofFn (kstrcpy (fun _ : Fin 8 => 0) (lit "FURDSK1"))) (lit "FURDSK1") 7 = 0 := by
    decide
  unfold savedHeader DiskHeader.installed
  dsimp only
  rw [hmagic]
  rfl

theorem savedHeader_payloadSize (t : Nodes) : (savedHeader t).payloadSize.toNat = 530192 := by
  unfold savedHeader
  dsimp only
  decide

theorem savedHeader_checksum (t : Nodes) : (savedHeader t).checksum = byteSum (fsImage t) := by
  unfold savedHeader
  dsimp only

/-- The table `t` is completely saved. -/
structure Saved (t : Nodes) (sectors : Nat → Sector) : Prop where
  header : storedHeader sectors = savedHeader t
  image : ∀ x : Fin 530192, storedByte sectors x.val = fsImage t x

/-- Successful writes store their sectors, and the rest goes on after them. -/
theorem writePayload_prefix (d : Disk) (i count j : Nat) (h : i + count ≤ 4095) (hj : j ≤ count)
    (hok : ∀ k < j, d.drive.outcome (d.drive.ops + k) = .ok) :
    ∃ sectors log, writePayload d i count h =
        writePayload {d with drive := {d.drive with sectors := sectors, ops := d.drive.ops + j, log := log}}
          (i + j) (count - j) (by omega) ∧
      (∀ lba, lba < 2049 + i ∨ 2049 + i + j ≤ lba → sectors lba = d.drive.sectors lba) ∧
      ∀ k (_ : i ≤ k) (hk : k < i + j), sectors (2049 + k) =
        slice d.payload (k * 512) 512 (by omega) := by
  induction j generalizing d i count with
  | zero => exact ⟨d.drive.sectors, d.drive.log, rfl, fun _ _ => rfl, fun k hi hk => absurd hk (by omega)⟩
  | succ j ih =>
    obtain ⟨count, rfl⟩ : ∃ c, count = c + 1 := ⟨count - 1, by omega⟩
    have hup : d.drive.upcoming = .ok := hok 0 (by omega)
    obtain ⟨sectors, log, heq, hother, hwritten⟩ := ih
      {d with
        drive :=
          {d.drive with
            sectors := Function.update d.drive.sectors (2048 + 1 + i)
              (slice d.payload (i * 512) 512 (by omega))
            ops := d.drive.ops + 1
            log := .write (2048 + 1 + i) :: d.drive.log}}
      (i + 1) count (by omega) (by omega) (fun k hk => by
        have := hok (k + 1) (by omega)
        rwa [← Nat.add_assoc, Nat.add_right_comm] at this)
    refine ⟨sectors, log, ?_, fun lba hlba => ?_, fun k hi hk => ?_⟩
    · rw [writePayload, ataWriteSector_ok hup]
      dsimp only
      rw [heq]
      have hi : i + 1 + j = i + (j + 1) := by omega
      have hops : d.drive.ops + 1 + j = d.drive.ops + (j + 1) := by omega
      have hc : count - j = count + 1 - (j + 1) := by omega
      simp only [hi, hops, hc]
    · rw [hother lba (by omega)]
      exact Function.update_of_ne (by omega) _ _
    · by_cases hfirst : k = i
      · subst hfirst
        rw [hother (2049 + k) (by omega)]
        exact Function.update_self _ _ _
      · exact hwritten k (by omega) (by omega)

/-- What the sectors are after the first `n` writes of a save: the header comes first. -/
structure SavedPart (header : DiskHeader) (payload : Fin 2096640 → UInt8) (n : Nat)
    (before after : Nat → Sector) : Prop where
  header : 0 < n → storedHeader after = header
  image : ∀ k (hk : k < 4095), k + 1 < n → after (2049 + k) = slice payload (k * 512) 512 (by omega)
  other : ∀ lba, lba < 2048 ∨ 2048 + n ≤ lba → after lba = before lba

/-- The writes of the image that succeed, after that of the header. -/
theorem savePayload_prefix (d : Disk) (size : Nat) (hsize : size ≤ 2096640) (j : Nat)
    (hj : j ≤ sectorCount size) (hok : ∀ k < j + 1, d.drive.outcome (d.drive.ops + k) = .ok) :
    ∃ (d' : Disk) (hle : j + (sectorCount size - j) ≤ 4095),
      savePayload d size hsize =
        (match writePayload d' j (sectorCount size - j) hle with
          | (status, d) =>
            if status ≠ 0 then (-1, d)
            else (0, {d with drive := ataFlush d.drive, lastError := .ofLit "ok"})) ∧
      d'.selectedDisk = d.selectedDisk ∧ d'.drive.ops = d.drive.ops + 1 + j ∧
      d'.drive.outcome = d.drive.outcome ∧
      SavedPart (payloadHeader d.payload size hsize) d.payload (j + 1) d.drive.sectors
        d'.drive.sectors := by
  have hup : d.drive.upcoming = .ok := hok 0 (by omega)
  have hle : 0 + sectorCount size ≤ 4095 := by
    unfold sectorCount
    omega
  obtain ⟨sectors, log, heq, hother, hwritten⟩ := writePayload_prefix
    {d with
      sector := DiskHeader.field.store (fun _ => 0) 0 (payloadHeader d.payload size hsize)
      drive :=
        {d.drive with
          sectors := Function.update d.drive.sectors 2048
            (DiskHeader.field.store (fun _ => 0) 0 (payloadHeader d.payload size hsize))
          ops := d.drive.ops + 1
          log := .write 2048 :: d.drive.log}}
    0 (sectorCount size) j hle hj (fun k hk => by
      have := hok (k + 1) (by omega)
      rwa [← Nat.add_assoc, Nat.add_right_comm] at this)
  dsimp only at hother
  refine ⟨{d with
    sector := DiskHeader.field.store (fun _ => 0) 0 (payloadHeader d.payload size hsize)
    drive := {d.drive with sectors := sectors, ops := d.drive.ops + 1 + j, log := log}},
    by omega, ?_, rfl, rfl, rfl, fun _ => ?_, fun k hk hkj => ?_, fun lba hlba => ?_⟩
  · unfold savePayload
    dsimp only
    rw [ataWriteSector_ok hup]
    dsimp only
    rw [heq]
    simp only [Nat.zero_add]
  · show DiskHeader.ofSector (sectors 2048) = _
    rw [hother 2048 (by omega), Function.update_self, DiskHeader.ofSector, Field.load_store]
  · exact hwritten k (Nat.zero_le k) (by omega)
  · show sectors lba = _
    rw [hother lba (by omega), Function.update_of_ne (by omega)]

/-- A save whose writes all succeed. -/
theorem savePayload_ok (d : Disk) (size : Nat) (hsize : size ≤ 2096640)
    (hok : ∀ k < sectorCount size + 1, d.drive.outcome (d.drive.ops + k) = .ok) :
    (savePayload d size hsize).1 = 0 ∧
      (savePayload d size hsize).2.selectedDisk = d.selectedDisk ∧
      SavedPart (payloadHeader d.payload size hsize) d.payload (sectorCount size + 1) d.drive.sectors
        (savePayload d size hsize).2.drive.sectors := by
  obtain ⟨d', hle, heq, hsel, _, _, hpart⟩ :=
    savePayload_prefix d size hsize (sectorCount size) (le_refl _) hok
  simp only [Nat.sub_self] at heq
  rw [heq, writePayload]
  exact ⟨rfl, hsel, hpart⟩

/-- A save whose write number `n` is the first to fail. -/
theorem savePayload_failed (d : Disk) (size : Nat) (hsize : size ≤ 2096640) (n : Nat)
    (hn : n ≤ sectorCount size) (hok : ∀ k < n, d.drive.outcome (d.drive.ops + k) = .ok)
    {message : CStr} {left : Option Sector}
    (hfail : d.drive.outcome (d.drive.ops + n) = .failed message left) :
    (savePayload d size hsize).1 = -1 ∧
      (left = none → SavedPart (payloadHeader d.payload size hsize) d.payload n d.drive.sectors
        (savePayload d size hsize).2.drive.sectors) := by
  have hle : 0 + sectorCount size ≤ 4095 := by
    unfold sectorCount
    omega
  cases n with
  | zero =>
    have hwrite : ataWriteSector d.drive 2048
        (DiskHeader.field.store (fun _ => 0) 0 (payloadHeader d.payload size hsize)) = _ :=
      ataWriteSector_failed hfail 2048 _
    unfold savePayload
    dsimp only
    rw [hwrite]
    refine ⟨rfl, ?_⟩
    rintro rfl
    refine ⟨fun h => absurd h (by omega), fun k _ h => absurd h (by omega), fun lba _ => ?_⟩
    exact congrFun (Function.update_eq_self 2048 d.drive.sectors) lba
  | succ j =>
    obtain ⟨d', hle', heq, _, hops, hout, hpart⟩ := savePayload_prefix d size hsize j (by omega) hok
    have hd' : d'.drive.upcoming = .failed message left := by
      unfold Drive.upcoming
      rw [hops, hout, Nat.add_right_comm]
      exact hfail
    obtain ⟨rest, hrest⟩ : ∃ r, sectorCount size - j = r + 1 := ⟨sectorCount size - j - 1, by omega⟩
    simp only [hrest] at heq
    rw [heq, writePayload, ataWriteSector_failed hd']
    refine ⟨rfl, ?_⟩
    rintro rfl
    obtain ⟨hh, hi, ho⟩ := hpart
    have hsame : Function.update d'.drive.sectors (2048 + 1 + j) (d'.drive.sectors (2048 + 1 + j)) =
        d'.drive.sectors := Function.update_eq_self _ _
    show SavedPart _ _ _ _ (Function.update d'.drive.sectors (2048 + 1 + j)
      (d'.drive.sectors (2048 + 1 + j)))
    rw [hsame]
    exact ⟨hh, hi, ho⟩

/-- A save on a selected disk writes 530192 bytes. -/
theorem diskSaveFs_eq {d : Disk} (hsel : 0 ≤ d.selectedDisk) (t : Nodes) :
    diskSaveFs t d =
      savePayload {d with payload := (fsSerialize t d.payload).2} 530192 (by decide) := by
  have heq : fsSerialize t d.payload = (⟨530192, by decide⟩, (fsSerialize t d.payload).2) := by
    rw [fsSerialize_eq t d.payload (by decide)]
  unfold diskSaveFs
  rw [if_neg (by simp [diskAvailable, hsel]), heq]
  exact if_neg (by decide)

end FurOS
