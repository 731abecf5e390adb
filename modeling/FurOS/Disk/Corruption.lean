import FurOS.Disk.Persistence

/-! One changed byte of a saved filesystem.

The byte sum covers the image, and a header that asks for fewer bytes than the image
has is refused by the decoder. One that asks for more may be accepted, when the bytes
after the image add nothing to the sum: the decoder does not look at them. -/
namespace FurOS
open Foundation.Buffer (slice byteSum)

/-- The bytes that a save is answerable for: the header's fields, then the image. -/
def protectedByte (sectors : Nat → Sector) (k : Fin 530212) : UInt8 :=
  if h : k.val < 20 then sectors 2048 ⟨k.val, by omega⟩ else storedByte sectors (k.val - 20)

/-- The one protected byte in which the sectors differ. -/
structure ChangedByte (before after : Nat → Sector) (k : Fin 530212) : Prop where
  changed : protectedByte after k ≠ protectedByte before k
  other : ∀ j, j ≠ k → protectedByte after j = protectedByte before j

section Changed
variable {before after : Nat → Sector} {k : Fin 530212} (h : ChangedByte before after k)
include h

/-- A change after the header leaves the header. -/
theorem ChangedByte.header (hk : 20 ≤ k.val) : storedHeader after = storedHeader before := by
  have hslice : slice (after 2048) 0 20 (by decide) = slice (before 2048) 0 20 (by decide) := by
    funext j
    have hj := j.isLt
    have hne : (⟨j.val, by omega⟩ : Fin 530212) ≠ k := by
      intro heq
      have := congrArg Fin.val heq
      dsimp only at this
      omega
    have hbyte := h.other ⟨j.val, by omega⟩ hne
    unfold protectedByte at hbyte
    rw [dif_pos hj, dif_pos hj] at hbyte
    unfold slice
    simp only [Nat.zero_add]
    exact hbyte
  unfold storedHeader DiskHeader.ofSector Foundation.Field.load
  rw [hslice]

theorem ChangedByte.image {x : Fin 530192} (hx : k.val ≠ 20 + x.val) :
    storedByte after x.val = storedByte before x.val := by
  have hlt := x.isLt
  have hne : (⟨20 + x.val, by omega⟩ : Fin 530212) ≠ k := by
    intro heq
    exact hx (congrArg Fin.val heq).symm
  have hbyte := h.other ⟨20 + x.val, by omega⟩ hne
  unfold protectedByte at hbyte
  rwa [dif_neg (by dsimp only; omega), dif_neg (by dsimp only; omega), Nat.add_sub_cancel_left] at hbyte

end Changed

/-- The table that the image of a table with a root gives. -/
theorem fsDeserialize_root {s : Nodes} (hroot : (s 0).used = true ∧ (s 0).isDir = true) (t : Nodes) :
    (fsDeserialize t (fsImage s)).1 = 0 := by
  have hrecord : RootRecord fun i => .ofNode (s i) := by
    simp [RootRecord, FsDiskNode.ofNode, hroot.1, hroot.2]
  rw [fsDeserialize_accepted (readRecords_fsImage s) hrecord]

/-- What is decoded where the image is as it was saved, whatever length the header gives. -/
theorem fsDeserialize_protected {s : Nodes} {len : Nat} {image : Fin len → UInt8}
    (h : ∀ (x : Fin 530192) (hx : x.val < len), image ⟨x.val, hx⟩ = fsImage s x) (t : Nodes) :
    fsDeserialize t image = (-1, t) ∨ fsDeserialize t image = fsDeserialize t (fsImage s) := by
  by_cases hlen : len < 530192
  · exact .inl (fsDeserialize_unread (readRecords_truncated hlen h) t)
  · refine .inr ?_
    unfold fsDeserialize
    rw [readRecords_extended (by omega) h, readRecords_fsImage s]

/-- A changed byte of the image is caught by the byte sum. -/
theorem ChangedByte.unstored {s : Nodes} {before : Nat → Sector} (hsaved : Saved s before) {d : Disk}
    {k : Fin 530212} (h : ChangedByte before d.drive.sectors k) (hk : 20 ≤ k.val) :
    ¬ ∃ (len : Nat) (image : Fin len → UInt8), StoredImage d image := by
  have hlt := k.isLt
  have hbytes : ∀ x : Fin 530192, storedByte d.drive.sectors x.val =
      (fun x : Fin 530192 => storedByte d.drive.sectors x.val) x := fun _ => rfl
  refine not_storedImage_of_bytes ((h.header hk).trans hsaved.header) hbytes ?_
  refine Foundation.Buffer.byteSum_ne_of_cell _ _ ⟨k.val - 20, by omega⟩ ?_ fun x hx => ?_
  · have hchanged := h.changed
    unfold protectedByte at hchanged
    rw [dif_neg (by omega), dif_neg (by omega)] at hchanged
    rw [← hsaved.image]
    exact hchanged
  · rw [← hsaved.image]
    refine h.image fun heq => hx (Fin.ext ?_)
    dsimp only
    omega

/-- **One changed byte is never loaded silently.** After a save that returned 0, whatever single
byte of the header's fields or of the image changes and whatever the other bytes of the region become,
a load fails and leaves the table alone, or does what it does on the unchanged disk: return 0, for a
table with a root directory, and set the same table. -/
theorem diskLoadFs_corrupted (s : Nodes) (d d₁ : Disk) (hsave : diskSaveFs s d = (0, d₁)) (d₂ d₃ : Disk)
    (hsame : d₂.drive.sectors = d₁.drive.sectors) (hsel : 0 ≤ d₂.selectedDisk) (hh : d₂.drive.Healthy)
    (k : Fin 530212) (hchanged : ChangedByte d₁.drive.sectors d₃.drive.sectors k) (t : Nodes) :
    ((diskLoadFs t d₃).1 = -1 ∧ (diskLoadFs t d₃).2.1 = t ∨
      (diskLoadFs t d₃).1 = (diskLoadFs t d₂).1 ∧ (diskLoadFs t d₃).2.1 = (diskLoadFs t d₂).2.1) ∧
    ((s 0).used = true → (s 0).isDir = true → (diskLoadFs t d₂).1 = 0) := by
  obtain ⟨hsel₀, hok⟩ := diskSaveFs_eq_zero (congrArg Prod.fst hsave)
  have hsaved := (diskSaveFs_ok hsel₀ hok s).2.2
  rw [hsave] at hsaved
  have hclean := diskLoadFs_stored (storedImage_of_bytes (d := d₂) (t := s) hsel hh
    (hsame ▸ hsaved.header) (hsame ▸ hsaved.image) rfl) t
  refine ⟨?_, fun hu hd => ?_⟩
  swap
  · rw [hclean.1, fsDeserialize_root ⟨hu, hd⟩]
    rfl
  by_cases hstored : ∃ (len : Nat) (image : Fin len → UInt8), StoredImage d₃ image
  swap
  · exact .inl (diskLoadFs_unstored hstored t)
  have hk : k.val < 20 := by
    by_contra hk
    exact hchanged.unstored hsaved (by omega) hstored
  obtain ⟨len, image, himage⟩ := hstored
  have hload := diskLoadFs_stored himage t
  have hprefix : ∀ (x : Fin 530192) (hx : x.val < len), image ⟨x.val, hx⟩ = fsImage s x := by
    intro x hx
    rw [himage.bytes, ← hsaved.image]
    exact hchanged.image (by omega)
  rcases fsDeserialize_protected hprefix t with hdecode | hdecode
  · rw [hdecode] at hload
    exact .inl hload
  · rw [hdecode] at hload
    exact .inr ⟨hload.1.trans hclean.1.symm, hload.2.trans hclean.2.symm⟩

/-- The last byte of the magic, which is not compared. -/
def lastMagicChanged (sectors : Nat → Sector) : Nat → Sector :=
  Function.update sectors 2048 (Function.update (sectors 2048) 7 (sectors 2048 7 + 1))

theorem lastMagicChanged_byte (sectors : Nat → Sector) : ChangedByte sectors (lastMagicChanged sectors) 7 := by
  have himage : ∀ x, storedByte (lastMagicChanged sectors) x = storedByte sectors x := by
    intro x
    unfold storedByte lastMagicChanged
    rw [Function.update_of_ne (by omega)]
  have hheader : lastMagicChanged sectors 2048 = Function.update (sectors 2048) 7 (sectors 2048 7 + 1) :=
    Function.update_self ..
  refine ⟨?_, fun j hj => ?_⟩
  · show lastMagicChanged sectors 2048 7 ≠ sectors 2048 7
    rw [hheader, Function.update_self]
    intro h
    have := congrArg UInt8.toNat h
    rw [UInt8.toNat_add] at this
    have h1 : (1 : UInt8).toNat = 1 := rfl
    omega
  · unfold protectedByte
    split
    · rename_i h20
      rw [hheader, Function.update_of_ne]
      intro heq
      refine hj (Fin.ext ?_)
      show j.val = 7
      exact congrArg Fin.val heq
    · exact himage _

/-- The disk `fs_init`'s table was saved to, and the same disk with that byte changed. -/
def savedDisk : Disk := rebooted (diskSaveFs fsInit blankDisk).2

def changedDisk : Disk :=
  {savedDisk with drive := {savedDisk.drive with sectors := lastMagicChanged savedDisk.drive.sectors}}

theorem changedDisk_byte :
    ChangedByte (diskSaveFs fsInit blankDisk).2.drive.sectors changedDisk.drive.sectors 7 := by
  unfold changedDisk savedDisk
  dsimp only
  rw [rebooted_sectors]
  exact lastMagicChanged_byte _

theorem diskLoadFs_corrupted_magic :
    ((diskLoadFs privateRoot changedDisk).1 = -1 ∧ (diskLoadFs privateRoot changedDisk).2.1 = privateRoot ∨
      (diskLoadFs privateRoot changedDisk).1 = (diskLoadFs privateRoot savedDisk).1 ∧
        (diskLoadFs privateRoot changedDisk).2.1 = (diskLoadFs privateRoot savedDisk).2.1) ∧
    ((fsInit 0).used = true → (fsInit 0).isDir = true → (diskLoadFs privateRoot savedDisk).1 = 0) := by
  obtain ⟨hsave, _⟩ := diskSaveFs_blankDisk fsInit
  exact diskLoadFs_corrupted fsInit blankDisk (diskSaveFs fsInit blankDisk).2 hsave savedDisk changedDisk
    (rebooted_sectors _) (rebooted_selected _) (rebooted_healthy _) 7 changedDisk_byte privateRoot

end FurOS
