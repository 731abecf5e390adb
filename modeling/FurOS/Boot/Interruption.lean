import FurOS.Boot.Startup

/-! Installations that stop half way.

The record about the kernel is written before the kernel. So a failure from the third
write on leaves a record that the boot sector accepts, with whatever the sectors not
yet written held before. -/
namespace FurOS
open Foundation.Buffer (slice)

/-- The kernel sectors hold every byte of the image. -/
def HoldsImage (l : Linked) (sectors : Nat → Sector) : Prop :=
  ∀ i < l.kernel.size.toNat, sectors (2 + i / 512) (Fin.ofNat 512 i) = l.kernel.byte i

/-- The boot sector's checks pass just when the record in sector 1 does. -/
theorem start_accepts_iff (sectors : Nat → Sector) (window : Nat → UInt8 → UInt8) (before : BootState) :
    start (bootFrom sectors window) before ≠ .invalidInfo ↔ Bootable (BootInfo.ofSector (sectors 1)) := by
  constructor
  · intro haccepted
    by_contra hnot
    exact haccepted (start_invalid (bootFrom sectors window) rfl hnot before)
  · intro h
    obtain ⟨s', heq, _⟩ := start_jumped (bootFrom sectors window) (fun _ => rfl) rfl h before
    rw [heq]
    simp

theorem accepted_imp_iff (sectors : Nat → Sector) (P : Prop) :
    (∀ window before, start (bootFrom sectors window) before ≠ .invalidInfo → P) ↔
      (Bootable (BootInfo.ofSector (sectors 1)) → P) := by
  constructor
  · intro h hb
    exact h (fun _ b => b) (machine fun _ => 0) ((start_accepts_iff _ _ _).mpr hb)
  · intro h window before haccepted
    exact h ((start_accepts_iff _ _ _).mp haccepted)

/-- The disk before an installation, with what the failing write leaves in the sector it was for. -/
def interrupted (d : Disk) (w : Nat) (left : Option Sector) : Nat → Sector :=
  Function.update d.drive.sectors w (left.getD (d.drive.sectors w))

section Interrupted
variable {l : Linked} {sectors28 : Option UInt32} {d : Disk} {w : Nat} {left : Option Sector}
  {after : Nat → Sector}
  (hafter : after = fun lba => if lba < w then l.sectorAt lba else interrupted d w left lba)
include hafter

/-- The image is complete when the sectors that were not reached held it before. -/
theorem holdsImage_iff :
    HoldsImage l after ↔ ∀ i < l.kernel.size.toNat, w ≤ i / 512 + 2 →
      interrupted d w left (2 + i / 512) (Fin.ofNat 512 i) = l.kernel.byte i := by
  have hbyte : ∀ i < l.kernel.size.toNat, after (2 + i / 512) (Fin.ofNat 512 i) =
      if i / 512 + 2 < w then l.kernel.byte i
      else interrupted d w left (2 + i / 512) (Fin.ofNat 512 i) := by
    intro i hi
    rw [hafter]
    dsimp only
    rw [Nat.add_comm 2]
    split
    · exact kernelSector_byte l hi
    · rfl
  constructor
  · intro h i hi hw
    have hheld := h i hi
    rwa [hbyte i hi, if_neg (by omega)] at hheld
  · intro h i hi
    rw [hbyte i hi]
    split
    · rfl
    · exact h i hi (by omega)

/-- A record that has been written is accepted. -/
theorem bootable_after_iff (h : Installable l) :
    Bootable (BootInfo.ofSector (after 1)) ↔
      (w ≤ 1 → Bootable (BootInfo.ofSector (interrupted d w left 1))) := by
  rw [hafter]
  dsimp only
  by_cases hw : w ≤ 1
  · rw [if_neg (by omega)]
    exact ⟨fun hb _ => hb, fun hb => hb hw⟩
  · rw [if_pos (by omega)]
    have hwritten : BootInfo.ofSector (l.sectorAt 1) = l.bootInfo := ofSector_bootInfoSector l
    rw [hwritten]
    exact ⟨fun _ hle => absurd hle hw, fun _ => h.bootable⟩

end Interrupted

/-- **An installation that fails at its write number `k` leaves nothing half-bootable just when** the
write of the record was not reached and no acceptable record was left there, or the sectors not yet
written already hold their part of the image. -/
theorem interrupted_install (l : Linked) (sectors28 : Option UInt32) (d : Disk)
    (hmagic : (BootInfo.ofSector (d.drive.sectors 1)).magic ≠ bootInfoMagic)
    (hchecks : installRefused l sectors28 d = none) (k : Nat) (hk : 1 ≤ k)
    (hwrites : k ≤ l.kernelSectors.toNat + 2)
    (hok : ∀ j < k - 1, d.drive.outcome (d.drive.ops + j) = .ok) (message : CStr) (left : Option Sector)
    (hfail : d.drive.outcome (d.drive.ops + (k - 1)) = .failed message left) :
    (diskInstallSystem l sectors28 d).1 = -1 ∧
      ((∀ window before,
        start (bootFrom (diskInstallSystem l sectors28 d).2.drive.sectors window) before ≠ .invalidInfo →
          HoldsImage l (diskInstallSystem l sectors28 d).2.drive.sectors) ↔
        (k = 1 ∨ k = 2 ∧ ¬ Bootable (BootInfo.ofSector (left.getD (d.drive.sectors 1))) ∨
          ∀ i < l.kernel.size.toNat, k ≤ i / 512 + 3 →
            interrupted d (k - 1) left (2 + i / 512) (Fin.ofNat 512 i) = l.kernel.byte i)) := by
  obtain ⟨hstatus, hafter⟩ := diskInstallSystem_failed hchecks (by omega) hok hfail
  have hholds := holdsImage_iff hafter
  have hbootable := bootable_after_iff hafter (installable hchecks)
  have hold : ¬ Bootable (BootInfo.ofSector (d.drive.sectors 1)) := fun h => hmagic h.magic
  simp only [show k - 1 ≤ 1 ↔ k ≤ 2 by omega] at hbootable
  refine ⟨hstatus, ?_⟩
  simp only [accepted_imp_iff, show ∀ i, (k ≤ i / 512 + 3 ↔ k - 1 ≤ i / 512 + 2) by omega]
  rw [hbootable, ← hholds]
  -- What sector 1 holds when it was not written with success.
  have hfirst : k = 1 → interrupted d (k - 1) left 1 = d.drive.sectors 1 := by
    intro h
    subst h
    exact Function.update_of_ne (by decide) _ _
  have hsecond : k = 2 → interrupted d (k - 1) left 1 = left.getD (d.drive.sectors 1) := by
    intro h
    subst h
    exact Function.update_self _ _ _
  constructor
  · intro h
    by_cases hk1 : k = 1
    · exact .inl hk1
    by_cases hk2 : k = 2
    · rw [hsecond hk2] at h
      by_cases hleft : Bootable (BootInfo.ofSector (left.getD (d.drive.sectors 1)))
      · exact .inr (.inr (h fun _ => hleft))
      · exact .inr (.inl ⟨hk2, hleft⟩)
    · exact .inr (.inr (h fun hle => by omega))
  · intro h haccepted
    obtain hk1 | ⟨hk2, hleft⟩ | hcomplete := h
    · have := haccepted (by omega)
      rw [hfirst hk1] at this
      exact absurd this hold
    · have := haccepted (by omega)
      rw [hsecond hk2] at this
      exact absurd this hleft
    · exact hcomplete

/-- A drive that fails at the third write and leaves that sector as it was. -/
def thirdWriteFails : Disk :=
  {blankDisk with
    drive :=
      {blankDisk.drive with
        outcome := fun n => if n = 2 then .failed (.ofLit "IDE completion timeout") none else .ok}}

theorem thirdWriteFails_magic :
    (BootInfo.ofSector (thirdWriteFails.drive.sectors 1)).magic ≠ bootInfoMagic := by
  intro h
  have hcell := congrFun h 0
  rw [bootInfo_ofSector_magic] at hcell
  exact absurd hcell (by decide)

theorem thirdWriteFails_ok : ∀ j < 3 - 1, thirdWriteFails.drive.outcome (thirdWriteFails.drive.ops + j) = .ok := by
  intro j hj
  show (if 0 + j = 2 then _ else Outcome.ok) = _
  rw [if_neg (by omega)]

/-- The record is there and the kernel is not. -/
theorem interrupted_install_third_write :
    (diskInstallSystem smallSystem none thirdWriteFails).1 = -1 ∧
      (BootInfo.ofSector (thirdWriteFails.drive.sectors 1)).magic ≠ bootInfoMagic ∧
      ∃ window before,
        start (bootFrom (diskInstallSystem smallSystem none thirdWriteFails).2.drive.sectors window) before ≠
            .invalidInfo ∧
          ¬ HoldsImage smallSystem (diskInstallSystem smallSystem none thirdWriteFails).2.drive.sectors := by
  have hchecks : installRefused smallSystem none thirdWriteFails = none := by decide
  obtain ⟨hstatus, hafter⟩ := diskInstallSystem_failed (w := 2) hchecks (by decide) thirdWriteFails_ok rfl
  refine ⟨hstatus, thirdWriteFails_magic, fun _ b => b, machine fun _ => 0, ?_, fun hholds => ?_⟩
  · rw [start_accepts_iff, bootable_after_iff hafter (installable hchecks)]
    intro h
    exact absurd h (by decide)
  · have hbyte := (holdsImage_iff hafter).mp hholds 0 (by decide) (by decide)
    exact absurd hbyte (by decide)

theorem interrupted_install_third :
    (diskInstallSystem smallSystem none thirdWriteFails).1 = -1 ∧
      ((∀ window before,
        start (bootFrom (diskInstallSystem smallSystem none thirdWriteFails).2.drive.sectors window) before ≠
            .invalidInfo →
          HoldsImage smallSystem (diskInstallSystem smallSystem none thirdWriteFails).2.drive.sectors) ↔
        (3 = 1 ∨ 3 = 2 ∧ ¬ Bootable (BootInfo.ofSector
              ((none : Option Sector).getD (thirdWriteFails.drive.sectors 1))) ∨
          ∀ i < smallSystem.kernel.size.toNat, 3 ≤ i / 512 + 3 →
            interrupted thirdWriteFails (3 - 1) none (2 + i / 512) (Fin.ofNat 512 i) =
              smallSystem.kernel.byte i)) :=
  interrupted_install smallSystem none thirdWriteFails thirdWriteFails_magic (by decide) 3 (by decide)
    (by decide) thirdWriteFails_ok _ none rfl

end FurOS
