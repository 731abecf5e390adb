import FurOS.Boot.Bootsect
import FurOS.Disk.Persistence

/-! Starting what an installation wrote.

The record about the kernel that `disk_install_system` writes is the one that the
boot sector reads (`ofSector_bootInfoSector`), and it passes its checks. The sectors
then lie one after the other from 10000 on, and the copy finds each byte of the
image where it was put, unless it was put past A0000. -/
namespace FurOS
open Foundation (Field)
open Foundation.Buffer (slice)

/-! ### The record -/

theorem bootInfo_ofSector_magic (content : Sector) (j : Fin 8) :
    (BootInfo.ofSector content).magic j = content ⟨j, by omega⟩ := by
  have hload := Field.load_slice (Field.bytes 8) content 24 (by decide) 0 (by decide)
  show (Field.bytes 8).load (slice content 0 24 (by decide)) 0 (by decide) j = _
  rw [hload]
  exact congrArg content (Fin.ext (Nat.zero_add j.val))

theorem bootInfo_ofSector_kernelSizeBytes (content : Sector) :
    (BootInfo.ofSector content).kernelSizeBytes = Field.u32.load content 8 (by decide) :=
  Field.load_slice Field.u32 content 24 (by decide) 8 (by decide)

theorem bootInfo_ofSector_kernelSectors (content : Sector) :
    (BootInfo.ofSector content).kernelSectors = Field.u32.load content 12 (by decide) :=
  Field.load_slice Field.u32 content 24 (by decide) 12 (by decide)

theorem bootInfo_ofSector_entryOffset (content : Sector) :
    (BootInfo.ofSector content).entryOffset = Field.u32.load content 16 (by decide) :=
  Field.load_slice Field.u32 content 24 (by decide) 16 (by decide)

/-- What the installer writes about the kernel is what a boot sector reads. -/
theorem ofSector_bootInfoSector (l : Linked) : BootInfo.ofSector l.bootInfoSector = l.bootInfo :=
  Field.load_store BootInfo.field _ 0 l.bootInfo (by decide)

/-- The boot sector's checks. -/
structure Bootable (info : BootInfo) : Prop where
  magic : info.magic = bootMagic
  size : info.kernelSizeBytes ≠ 0
  sectors : info.kernelSectors ≠ 0
  fits : info.kernelSectors.toNat ≤ 1920

section Boot
variable (fw : Firmware)

/-! ### The checks -/

/-- The record lies in ordinary memory. -/
theorem peek_info (memory : Nat → UInt8) (content : Sector) (j : Nat) (h : j < 512) :
    peek fw (placeSector memory 0x600 content) (0x600 + j) = content ⟨j, h⟩ := by
  unfold peek placeSector
  rw [if_neg (by omega), dif_pos (by omega)]
  exact congrArg content (Fin.ext (Nat.add_sub_cancel_left ..))

theorem peek32_info (memory : Nat → UInt8) (content : Sector) (off : Nat) (h : off + 4 ≤ 512) :
    peek32 fw (placeSector memory 0x600 content) (0x600 + off) = Field.u32.load content off h := by
  unfold peek32 Field.load
  congr 1
  funext j
  rw [Nat.add_assoc]
  exact peek_info fw memory content (off + j) (by omega)

/-- The state after the record has been read. -/
def received (s : BootState) (content : Sector) : BootState :=
  {s with
    memory := placeSector s.memory 0x600 content
    dapOffset := 0x600
    dapSegment := 0
    dapLbaLow := 1
    dapLbaHigh := 0
    transfers := (1, 0x600) :: s.transfers}

/-- The state in which the loop begins. -/
def informed (s : BootState) (content : Sector) : BootState :=
  {received s content with
    kernelSizeBytes := (BootInfo.ofSector content).kernelSizeBytes
    kernelSectorCount := (BootInfo.ofSector content).kernelSectors
    kernelEntryOffset := (BootInfo.ofSector content).entryOffset}

theorem checkMagic_received (s : BootState) (content : Sector) :
    checkMagic fw (received s content) = true ↔ (BootInfo.ofSector content).magic = bootMagic := by
  have hcell : ∀ si : Fin 8, peek fw (received s content).memory (0x600 + si) =
      (BootInfo.ofSector content).magic si := by
    intro si
    rw [bootInfo_ofSector_magic]
    exact peek_info fw s.memory content si (by omega)
  unfold checkMagic
  simp only [List.all_eq_true, List.mem_finRange, forall_const, decide_eq_true_eq, hcell]
  exact ⟨fun h => funext fun si => (h si).symm, fun h si => by rw [h]⟩

theorem readInfo_received (s : BootState) (content : Sector) :
    readInfo fw (received s content) = informed s content := by
  have hsize := peek32_info fw s.memory content 8 (by decide)
  have hcount := peek32_info fw s.memory content 12 (by decide)
  have hentry := peek32_info fw s.memory content 16 (by decide)
  unfold readInfo informed received
  dsimp only
  rw [hsize, hcount, hentry, bootInfo_ofSector_kernelSizeBytes, bootInfo_ofSector_kernelSectors,
    bootInfo_ofSector_entryOffset]

variable {fw} {content : Sector}

theorem int13_info (hread : fw.sector 1 = some content) (s : BootState) :
    int13 fw {s with dapOffset := 0x600, dapSegment := 0, dapLbaLow := 1, dapLbaHigh := 0} =
      some (received s content) := by
  have hlba : (0 : UInt32).toNat * 2 ^ 32 + (1 : UInt32).toNat = 1 := by decide
  have haddress : (0 : UInt16).toNat * 16 + (0x600 : UInt16).toNat = 0x600 := by decide
  unfold int13 received
  dsimp only
  rw [hlba, haddress, hread]

theorem start_bootable (hread : fw.sector 1 = some content) (h : Bootable (BootInfo.ofSector content))
    (s : BootState) :
    start fw s =
      match loadLoop fw (BootInfo.ofSector content).kernelSectors h.fits 0 (informed s content) with
      | none => .diskError
      | some s => pmodeEntry fw s := by
  have hsize : (informed s content).kernelSizeBytes ≠ 0 := h.size
  have hsectors : (informed s content).kernelSectorCount ≠ 0 := h.sectors
  have hfits : ¬ (informed s content).kernelSectorCount > 1920 := Nat.not_lt.mpr h.fits
  unfold start
  rw [int13_info hread]
  dsimp only
  rw [(checkMagic_received fw s content).mpr h.magic, readInfo_received]
  unfold startKernel
  rw [if_neg (by decide), if_neg hsize, if_neg hsectors, dif_neg hfits]
  rfl

variable (fw) in
theorem start_invalid (hread : fw.sector 1 = some content) (h : ¬ Bootable (BootInfo.ofSector content))
    (s : BootState) : start fw s = .invalidInfo := by
  unfold start
  rw [int13_info hread]
  dsimp only
  split
  · rfl
  · rename_i hmagic
    rw [readInfo_received]
    unfold startKernel
    split_ifs with hsize hsectors hfits
    · rfl
    · rfl
    · rfl
    · have hmagic : checkMagic fw (received s content) = true := by simpa using hmagic
      exact absurd ⟨(checkMagic_received fw s content).mp hmagic, hsize, hsectors, Nat.not_lt.mp hfits⟩ h

/-! ### Loading the sectors -/

/-- Kernel sector `i` and the address it is read to. -/
def kernelTransfer (i : Nat) : Nat × Nat := (2 + i, 0x10000 + 512 * i)

/-- Memory with kernel sectors `lo` to `hi - 1` where they belong. -/
def loaded (sectors : Nat → Sector) (memory : Nat → UInt8) (lo hi : Nat) : Nat → UInt8 := fun a =>
  if 0x10000 + 512 * lo ≤ a ∧ a < 0x10000 + 512 * hi then
    sectors (2 + (a - 0x10000) / 512) (Fin.ofNat 512 (a - 0x10000))
  else memory a

/-- The segment of a kernel sector does not wrap around. -/
theorem segment_toNat {cx : UInt16} (h : cx.toNat < 1920) :
    ((0x1000 : UInt16) + (cx <<< (5 : UInt16))).toNat * 16 + (0 : UInt16).toNat =
      0x10000 + 512 * cx.toNat := by
  have hshift : (cx <<< (5 : UInt16)).toNat = cx.toNat * 32 := by
    rw [UInt16.toNat_shiftLeft]
    show cx.toNat <<< 5 % 2 ^ 16 = cx.toNat * 32
    rw [Nat.shiftLeft_eq]
    omega
  rw [UInt16.toNat_add, hshift]
  show (0x1000 + cx.toNat * 32) % 2 ^ 16 * 16 + 0 = _
  omega

theorem lba_toNat {cx : UInt16} (h : cx.toNat < 1920) :
    (0 : UInt32).toNat * 2 ^ 32 + ((2 : UInt32) + cx.toUInt32).toNat = 2 + cx.toNat := by
  rw [UInt32.toNat_add, UInt16.toNat_toUInt32]
  show 0 * 2 ^ 32 + (2 + cx.toNat) % 2 ^ 32 = _
  omega

theorem int13_kernel {cx : UInt16} (h : cx.toNat < 1920) (hread : fw.sector (2 + cx.toNat) = some content)
    (s : BootState) :
    ∃ s', int13 fw
        {s with
          dapOffset := 0
          dapSegment := 0x1000 + (cx <<< (5 : UInt16))
          dapLbaLow := 2 + cx.toUInt32
          dapLbaHigh := 0} = some s' ∧
      s'.memory = placeSector s.memory (0x10000 + 512 * cx.toNat) content ∧
      s'.kernelSizeBytes = s.kernelSizeBytes ∧ s'.kernelEntryOffset = s.kernelEntryOffset ∧
      s'.transfers = kernelTransfer cx.toNat :: s.transfers := by
  unfold int13
  dsimp only
  rw [lba_toNat h, segment_toNat h, hread]
  exact ⟨_, rfl, rfl, rfl, rfl, rfl⟩

theorem loaded_step {sectors : Nat → Sector} {memory : Nat → UInt8} {lo hi : Nat} (h : lo < hi) :
    loaded sectors (placeSector memory (0x10000 + 512 * lo) (sectors (2 + lo))) (lo + 1) hi =
      loaded sectors memory lo hi := by
  funext a
  unfold loaded placeSector
  by_cases hlater : 0x10000 + 512 * (lo + 1) ≤ a ∧ a < 0x10000 + 512 * hi
  · rw [if_pos hlater, if_pos (by omega)]
  rw [if_neg hlater]
  by_cases hhere : 0x10000 + 512 * lo ≤ a ∧ a < 0x10000 + 512 * lo + 512
  · have hsector : (a - 0x10000) / 512 = lo := by omega
    rw [dif_pos hhere, if_pos (by omega), hsector]
    apply congrArg (sectors (2 + lo))
    apply Fin.ext
    show a - (0x10000 + 512 * lo) = (a - 0x10000) % 512
    omega
  · rw [dif_neg hhere, if_neg (by omega)]

/-- The loop reads every sector to its place. -/
theorem loadLoop_spec {sectors : Nat → Sector} (hread : ∀ lba, fw.sector lba = some (sectors lba))
    (count : UInt32) (h : count.toNat ≤ 1920) (n : Nat) (cx : UInt16) (hn : cx.toNat + n = count.toNat)
    (s : BootState) :
    ∃ s', loadLoop fw count h cx s = some s' ∧
      s'.memory = loaded sectors s.memory cx.toNat count.toNat ∧
      s'.kernelSizeBytes = s.kernelSizeBytes ∧ s'.kernelEntryOffset = s.kernelEntryOffset ∧
      s'.transfers = ((List.range' cx.toNat n).map kernelTransfer).reverse ++ s.transfers := by
  induction n generalizing cx s with
  | zero =>
    have hdone : cx.toUInt32 ≥ count := by
      rw [ge_iff_le, UInt32.le_iff_toNat_le, UInt16.toNat_toUInt32]
      omega
    rw [loadLoop, if_pos hdone]
    refine ⟨s, rfl, ?_, rfl, rfl, rfl⟩
    funext a
    unfold loaded
    rw [if_neg (by omega)]
  | succ n ih =>
    have hmore : ¬ cx.toUInt32 ≥ count := by
      rw [ge_iff_le, UInt32.le_iff_toNat_le, UInt16.toNat_toUInt32]
      omega
    have hnext : (cx + 1).toNat = cx.toNat + 1 := by
      have : (cx + 1).toNat = (cx.toNat + 1) % 2 ^ 16 := UInt16.toNat_add cx 1
      omega
    obtain ⟨s₁, heq, hmemory, hsize, hentry, htransfers⟩ :=
      int13_kernel (by omega) (hread (2 + cx.toNat)) s
    obtain ⟨s', heq', hmemory', hsize', hentry', htransfers'⟩ := ih (cx + 1) (by omega) s₁
    rw [loadLoop, if_neg hmore, heq]
    refine ⟨s', heq', ?_, hsize'.trans hsize, hentry'.trans hentry, ?_⟩
    · rw [hmemory', hmemory, hnext]
      exact loaded_step (by omega)
    · rw [htransfers', htransfers, hnext, List.range'_succ, List.map_cons, List.reverse_cons,
        List.append_assoc]
      rfl

/-! ### The copy -/

variable (fw) in
/-- A copy to higher addresses that the source does not reach. -/
theorem repMovsb_spec (n : Nat) (esi edi : UInt32) (memory : Nat → UInt8)
    (hapart : esi.toNat + n ≤ edi.toNat) (hend : edi.toNat + n < 2 ^ 32) :
    repMovsb fw n esi edi memory = fun a =>
      if edi.toNat ≤ a ∧ a < edi.toNat + n then peek fw memory (a - edi.toNat + esi.toNat) else memory a := by
  induction n generalizing esi edi memory with
  | zero =>
    funext a
    rw [if_neg (by omega)]
    rfl
  | succ n ih =>
    have hesi : (esi + 1).toNat = (esi.toNat + 1) % 2 ^ 32 := UInt32.toNat_add esi 1
    have hedi : (edi + 1).toNat = (edi.toNat + 1) % 2 ^ 32 := UInt32.toNat_add edi 1
    rw [Nat.mod_eq_of_lt (by omega)] at hesi hedi
    have hsource : ∀ x, x ≠ edi.toNat →
        peek fw (Function.update memory edi.toNat (peek fw memory esi.toNat)) x = peek fw memory x := by
      intro x hx
      unfold peek
      rw [Function.update_of_ne hx]
    rw [repMovsb, ih _ _ _ (by omega) (by omega), hesi, hedi]
    funext a
    by_cases hfirst : a = edi.toNat
    · subst hfirst
      rw [if_neg (by omega), if_pos (by omega), Function.update_self, Nat.sub_self, Nat.zero_add]
    by_cases hlater : edi.toNat + 1 ≤ a ∧ a < edi.toNat + 1 + n
    · have hplace : a - (edi.toNat + 1) + (esi.toNat + 1) = a - edi.toNat + esi.toNat := by omega
      rw [if_pos hlater, if_pos (by omega), hplace, hsource _ (by omega)]
    · rw [if_neg hlater, if_neg (by omega), Function.update_of_ne hfirst]

theorem repMovsb_above (n : Nat) (esi edi : UInt32) (memory : Nat → UInt8) {a : Nat} (ha : 2 ^ 32 ≤ a) :
    repMovsb fw n esi edi memory a = memory a := by
  induction n generalizing esi edi memory with
  | zero => rfl
  | succ n ih =>
    have hedi := edi.toNat_lt
    rw [repMovsb, ih, Function.update_of_ne (by omega)]

variable (fw) in
/-- What the boot sector does with a record that it accepts. -/
theorem start_jumped {sectors : Nat → Sector} (hread : ∀ lba, fw.sector lba = some (sectors lba))
    {info : BootInfo} (hinfo : BootInfo.ofSector (sectors 1) = info) (h : Bootable info) (s : BootState) :
    ∃ s' : BootState, start fw s = .jumped (info.entryOffset + 0x100000)
        {s' with memory := repMovsb fw info.kernelSizeBytes.toNat 0x10000 0x100000 s'.memory} ∧
      s'.memory = loaded sectors (placeSector s.memory 0x600 (sectors 1)) 0 info.kernelSectors.toNat ∧
      s'.transfers = ((List.range info.kernelSectors.toNat).map kernelTransfer).reverse ++
        (1, 0x600) :: s.transfers := by
  subst hinfo
  obtain ⟨s', heq, hmemory, hsize, hentry, htransfers⟩ := loadLoop_spec hread
    (BootInfo.ofSector (sectors 1)).kernelSectors h.fits
    (BootInfo.ofSector (sectors 1)).kernelSectors.toNat 0 (Nat.zero_add _) (informed s (sectors 1))
  refine ⟨s', ?_, hmemory, ?_⟩
  · rw [start_bootable (hread 1) h, heq]
    show pmodeEntry fw s' = _
    unfold pmodeEntry
    rw [hsize, hentry]
    rfl
  · rw [htransfers, List.range_eq_range']
    rfl

end Boot

/-! ### The checks of the installer -/

/-- What the checks of an installation say of the kernel. -/
structure Installable (l : Linked) : Prop where
  size : l.kernel.size ≠ 0
  entry : l.start32.toNat < l.kernel.size.toNat
  sectors : l.kernelSectors ≠ 0
  fits : l.kernelSectors.toNat ≤ 1920

theorem installable {l : Linked} {sectors28 : Option UInt32} {d : Disk}
    (h : installRefused l sectors28 d = none) : Installable l := by
  unfold installRefused at h
  split_ifs at h with _ _ _ hbounds hsectors
  rw [not_or] at hbounds hsectors
  exact ⟨hbounds.1, Nat.not_le.mp hbounds.2, hsectors.1, Nat.not_lt.mp hsectors.2⟩

theorem kernelSectors_toNat (l : Linked) :
    l.kernelSectors.toNat = (l.kernel.size.toNat + 511) % 2 ^ 64 / 512 % 2 ^ 32 := by
  unfold Linked.kernelSectors
  rw [UInt64.toNat_toUInt32, UInt64.toNat_div, UInt64.toNat_sub, UInt64.toNat_add]
  show (2 ^ 64 - 1 + (l.kernel.size.toNat + 512) % 2 ^ 64) % 2 ^ 64 / 512 % 2 ^ 32 = _
  omega

/-- The boot sector accepts the record of a kernel that the installer accepts. -/
theorem Installable.bootable {l : Linked} (h : Installable l) : Bootable l.bootInfo := by
  have hsectors := kernelSectors_toNat l
  have hne : l.kernelSectors.toNat ≠ 0 := fun h0 => h.sectors (UInt32.toNat_inj.mp h0)
  have hfits := h.fits
  have hlt := l.kernel.size.toNat_lt
  refine ⟨rfl, fun hsize => ?_, h.sectors, h.fits⟩
  have hzero : l.kernel.size.toNat % 2 ^ 32 = 0 := by
    have := congrArg UInt32.toNat hsize
    rwa [show l.bootInfo.kernelSizeBytes = l.kernel.size.toUInt32 from rfl, UInt64.toNat_toUInt32] at this
  omega

/-- A kernel that is accepted without any number being cut off ends where the boot sector's buffer
does; for the others the count of sectors has been reduced by a multiple of 2 ^ 32. -/
theorem Installable.cases {l : Linked} (h : Installable l) :
    (l.kernel.size.toNat ≤ 0xf0000 ∧ l.kernelSectors.toNat = (l.kernel.size.toNat + 511) / 512) ∨
      2 ^ 41 ≤ l.kernel.size.toNat := by
  have hsectors := kernelSectors_toNat l
  have hne : l.kernelSectors.toNat ≠ 0 := fun h0 => h.sectors (UInt32.toNat_inj.mp h0)
  have hfits := h.fits
  have hlt := l.kernel.size.toNat_lt
  omega

/-! ### The kernel that was installed -/

/-- The machine that starts from these sectors. -/
def bootFrom (sectors : Nat → Sector) (window : Nat → UInt8 → UInt8) : Firmware :=
  { sector := fun lba => some (sectors lba), window := window }

/-- The boot sector as it is loaded, with this memory. -/
def machine (memory : Nat → UInt8) : BootState :=
  { memory := memory
    dapOffset := 0
    dapSegment := 0x1000
    dapLbaLow := 0
    dapLbaHigh := 0
    kernelSizeBytes := 0
    kernelSectorCount := 0
    kernelEntryOffset := 0
    transfers := [] }

/-- The boot sector has jumped into the whole image at 100000, and into nothing else; every transfer
went where its number says. -/
structure Started (l : Linked) (before : BootState) (entry : UInt32) (s : BootState) : Prop where
  entry : entry.toNat = 0x100000 + l.start32.toNat
  image : ∀ i < l.kernel.size.toNat, s.memory (0x100000 + i) = l.kernel.byte i
  rest : ∀ a, 0x100000 + l.kernel.size.toNat ≤ a → s.memory a = before.memory a
  transfers : s.transfers =
    ((List.range ((l.kernel.size.toNat + 511) / 512)).map kernelTransfer).reverse ++
      (1, 0x600) :: before.transfers

/-- The image bytes lie in the kernel sectors one after the other. -/
theorem kernelSector_byte (l : Linked) {i : Nat} (h : i < l.kernel.size.toNat) :
    l.kernelSector (i / 512) (Fin.ofNat 512 i) = l.kernel.byte i := by
  have hplace : i / 512 * 512 + i % 512 = i := Nat.div_add_mod' i 512
  have hchunk : i % 512 < (if l.kernel.size.toNat - i / 512 * 512 ≥ 512 then 512
      else l.kernel.size.toNat - i / 512 * 512) := by
    split <;> omega
  unfold Linked.kernelSector
  rw [show (Fin.ofNat 512 i).val = i % 512 from rfl, if_pos hchunk]
  exact congrArg l.kernel.byte hplace

section Installed
variable {l : Linked} {sectors28 : Option UInt32} {d : Disk}
  (h : (diskInstallSystem l sectors28 d).1 = 0)
include h

theorem installed_sector {lba : Nat} (hlba : lba < l.kernelSectors.toNat + 2) :
    (diskInstallSystem l sectors28 d).2.drive.sectors lba = l.sectorAt lba := by
  rw [(diskInstallSystem_ok h).2]
  exact if_pos hlba

theorem installed_info :
    BootInfo.ofSector ((diskInstallSystem l sectors28 d).2.drive.sectors 1) = l.bootInfo := by
  rw [installed_sector h (by omega)]
  exact ofSector_bootInfoSector l

theorem installed_byte {i : Nat} (hi : i < l.kernel.size.toNat) (hsector : i / 512 < l.kernelSectors.toNat) :
    (diskInstallSystem l sectors28 d).2.drive.sectors (2 + i / 512) (Fin.ofNat 512 i) = l.kernel.byte i := by
  rw [installed_sector h (by omega), Nat.add_comm]
  exact kernelSector_byte l hi

/-- A kernel that fits the buffer is copied byte by byte, as it is read back from there. -/
theorem start_installed (hfits : l.kernel.size.toNat ≤ 0xf0000) (window : Nat → UInt8 → UInt8)
    (before : BootState) :
    ∃ (entry : UInt32) (s : BootState),
      start (bootFrom (diskInstallSystem l sectors28 d).2.drive.sectors window) before = .jumped entry s ∧
      entry.toNat = 0x100000 + l.start32.toNat ∧
      (∀ i < l.kernel.size.toNat, s.memory (0x100000 + i) =
        if i < 0x90000 then l.kernel.byte i else window (0x10000 + i) (l.kernel.byte i)) ∧
      (∀ a, 0x100000 + l.kernel.size.toNat ≤ a → s.memory a = before.memory a) ∧
      s.transfers = ((List.range ((l.kernel.size.toNat + 511) / 512)).map kernelTransfer).reverse ++
        (1, 0x600) :: before.transfers := by
  have hinstallable := installable (diskInstallSystem_ok h).1
  have hcount : l.kernelSectors.toNat = (l.kernel.size.toNat + 511) / 512 := by
    cases hinstallable.cases with
    | inl hcount => exact hcount.2
    | inr hbig => omega
  have hentry := hinstallable.entry
  obtain ⟨s', heq, hmemory, htransfers⟩ := start_jumped
    (bootFrom (diskInstallSystem l sectors28 d).2.drive.sectors window) (fun _ => rfl)
    (installed_info h) hinstallable.bootable before
  have hsize : l.bootInfo.kernelSizeBytes.toNat = l.kernel.size.toNat := by
    show l.kernel.size.toUInt32.toNat = _
    rw [UInt64.toNat_toUInt32]
    omega
  have hcopy := repMovsb_spec (bootFrom (diskInstallSystem l sectors28 d).2.drive.sectors window)
    l.kernel.size.toNat 0x10000 0x100000 s'.memory
    (by show 0x10000 + _ ≤ 0x100000; omega) (by show 0x100000 + _ < 2 ^ 32; omega)
  have hlow : (0x10000 : UInt32).toNat = 0x10000 := rfl
  have hhigh : (0x100000 : UInt32).toNat = 0x100000 := rfl
  rw [hlow, hhigh] at hcopy
  rw [hsize, hcopy] at heq
  refine ⟨_, _, heq, ?_, fun i hi => ?_, fun a ha => ?_, ?_⟩
  · show (l.start32.toUInt32 + 0x100000).toNat = _
    rw [UInt32.toNat_add, UInt64.toNat_toUInt32, hhigh]
    omega
  · have hplace : 0x100000 + i - 0x100000 + 0x10000 = 0x10000 + i := by omega
    have hoffset : 0x10000 + i - 0x10000 = i := by omega
    have hread : s'.memory (0x10000 + i) = l.kernel.byte i := by
      rw [hmemory]
      unfold loaded
      rw [if_pos ⟨by omega, by show _ < 0x10000 + 512 * l.kernelSectors.toNat; omega⟩, hoffset]
      exact installed_byte h hi (by omega)
    show (if _ then _ else _) = _
    rw [if_pos (by omega), hplace]
    unfold peek
    rw [hread]
    by_cases hwindow : i < 0x90000
    · rw [if_neg (by omega), if_pos hwindow]
    · rw [if_pos (by omega), if_neg hwindow]
      rfl
  · show (if _ then _ else _) = _
    rw [if_neg (by omega), hmemory]
    unfold loaded placeSector
    rw [if_neg (by show ¬ (_ ∧ _ < 0x10000 + 512 * l.kernelSectors.toNat); omega), dif_neg (by omega)]
  · rw [htransfers, ← hcount]
    rfl

/-- Whatever the size of the kernel, nothing is stored beyond the addresses of 32 bits. -/
theorem start_above (window : Nat → UInt8 → UInt8) (before : BootState) :
    ∃ (entry : UInt32) (s : BootState),
      start (bootFrom (diskInstallSystem l sectors28 d).2.drive.sectors window) before = .jumped entry s ∧
      ∀ a, 2 ^ 32 ≤ a → s.memory a = before.memory a := by
  have hinstallable := installable (diskInstallSystem_ok h).1
  have hfits : l.bootInfo.kernelSectors.toNat ≤ 1920 := hinstallable.fits
  obtain ⟨s', heq, hmemory, _⟩ := start_jumped
    (bootFrom (diskInstallSystem l sectors28 d).2.drive.sectors window) (fun _ => rfl)
    (installed_info h) hinstallable.bootable before
  refine ⟨_, _, heq, fun a ha => ?_⟩
  show repMovsb _ _ _ _ _ a = _
  rw [repMovsb_above _ _ _ _ ha, hmemory]
  unfold loaded placeSector
  rw [if_neg (by omega), dif_neg (by omega)]

end Installed

theorem byte_succ_ne (b : UInt8) : b + 1 ≠ b := by
  intro h
  have hsum := congrArg UInt8.toNat h
  rw [UInt8.toNat_add] at hsum
  have hlt := b.toNat_lt
  change (b.toNat + 1) % 2 ^ 8 = b.toNat at hsum
  omega

/-- **An installed kernel starts intact, whatever is read past A0000, just when its image is no
longer than the ordinary memory from 10000 on.** -/
theorem installed_starts (l : Linked) (sectors28 : Option UInt32) (d : Disk)
    (h : (diskInstallSystem l sectors28 d).1 = 0) :
    (∀ window before, ∃ (entry : UInt32) (s : BootState),
      start (bootFrom (diskInstallSystem l sectors28 d).2.drive.sectors window) before = .jumped entry s ∧
        Started l before entry s) ↔
      l.kernel.size.toNat ≤ 0x90000 := by
  constructor
  · intro hall
    by_contra hlong
    cases (installable (diskInstallSystem_ok h).1).cases with
    | inl hfits =>
      -- A window in which every byte reads back as another.
      obtain ⟨entry, s, heq, _, himage, _⟩ :=
        start_installed h hfits.1 (fun _ b => b + 1) (machine fun _ => 0)
      obtain ⟨entry', s', heq', hstarted⟩ := hall (fun _ b => b + 1) (machine fun _ => 0)
      rw [heq] at heq'
      cases heq'
      have hbyte := himage 0x90000 (by omega)
      rw [hstarted.image 0x90000 (by omega), if_neg (by omega)] at hbyte
      exact byte_succ_ne _ hbyte.symm
    | inr hbig =>
      -- Memory in which every byte differs from the one that belongs there.
      obtain ⟨entry, s, heq, hkept⟩ :=
        start_above h (fun _ b => b) (machine fun a => l.kernel.byte (a - 0x100000) + 1)
      obtain ⟨entry', s', heq', hstarted⟩ :=
        hall (fun _ b => b) (machine fun a => l.kernel.byte (a - 0x100000) + 1)
      rw [heq] at heq'
      cases heq'
      have hbyte := hkept (0x100000 + 2 ^ 32) (by omega)
      rw [hstarted.image (2 ^ 32) (by omega)] at hbyte
      change _ = l.kernel.byte (0x100000 + 2 ^ 32 - 0x100000) + 1 at hbyte
      rw [Nat.add_sub_cancel_left] at hbyte
      exact byte_succ_ne _ hbyte.symm
  · intro hshort window before
    obtain ⟨entry, s, heq, hentry, himage, hrest, htransfers⟩ := start_installed h (by omega) window before
    refine ⟨entry, s, heq, hentry, fun i hi => ?_, hrest, htransfers⟩
    rw [himage i hi, if_pos (by omega)]

/-- A kernel one byte too long. -/
def longSystem : Linked :=
  { bootsect := { size := 512, byte := fun _ => 0 }
    kernel := { size := 0x90001, byte := fun _ => 0 }
    start32 := 0 }

theorem longSystem_installed : (diskInstallSystem longSystem none blankDisk).1 = 0 :=
  diskInstallSystem_healthy (by decide) fun _ => rfl

/-- Where no memory answers at A0000, the last byte of the image is lost. -/
theorem installed_starts_long :
    (diskInstallSystem longSystem none blankDisk).1 = 0 ∧
      ¬ ∃ (entry : UInt32) (s : BootState),
        start (bootFrom (diskInstallSystem longSystem none blankDisk).2.drive.sectors fun _ _ => 0xff)
          (machine fun _ => 0) = .jumped entry s ∧ Started longSystem (machine fun _ => 0) entry s := by
  refine ⟨longSystem_installed, fun ⟨entry', s', heq', hstarted⟩ => ?_⟩
  have hsize : longSystem.kernel.size.toNat = 0x90001 := rfl
  obtain ⟨entry, s, heq, _, himage, _⟩ := start_installed longSystem_installed
    (by rw [hsize]; decide) (fun _ _ => 0xff) (machine fun _ => 0)
  rw [heq] at heq'
  cases heq'
  have hbyte := himage 0x90000 (by rw [hsize]; decide)
  rw [hstarted.image 0x90000 (by rw [hsize]; decide), if_neg (by decide)] at hbyte
  exact absurd hbyte (by decide)

theorem installed_starts_small :
    (∀ window before, ∃ (entry : UInt32) (s : BootState),
      start (bootFrom (diskInstallSystem smallSystem none blankDisk).2.drive.sectors window) before =
          .jumped entry s ∧
        Started smallSystem before entry s) ↔
      smallSystem.kernel.size.toNat ≤ 0x90000 :=
  installed_starts smallSystem none blankDisk (diskInstallSystem_healthy (by decide) fun _ => rfl)

end FurOS
