import FurOS.Boot.Startup
import FurOS.Foundation.Paging
import FurOS.Screen.Vga

/-! From `_start32` to `kernel_main` (`kernel/boot.S`, `kernel/kernel.c`).

The code that the boot sector or GRUB jumps to keeps what is in `eax`, writes tables for the first 4 GiB, and enters
64-bit mode. What it touches after paging is on is touched through the tables that it has just written. -/
namespace FurOS
open Foundation (Field)
open Foundation.Paging (Page frame entryFor descend)

/-! ### Symbols -/

/-- The `.bss` of `boot.S`, where the linker puts it: page by page, like the tables in it, and above the first MiB. -/
structure BootBss where
  start : UInt32
  aligned : start.toNat % 4096 = 0
  above : 0x100000 ≤ start.toNat
  room : start.toNat + 45056 < 2 ^ 32

namespace BootBss
variable (b : BootBss)

def stackTop : UInt32 := b.start + 16384
def furBootMagic : UInt32 := b.start + 16384
def pml4Table : UInt32 := b.start + 20480
def pdpTable : UInt32 := b.start + 24576
def pdTable0 : UInt32 := b.start + 28672
def pdTable1 : UInt32 := b.start + 32768
def pdTable2 : UInt32 := b.start + 36864
def pdTable3 : UInt32 := b.start + 40960

end BootBss

/-- Addresses in the code and the constants of `boot.S`. -/
structure BootText where
  setupReturn : UInt32
  /-- The `ret` of `enable_long_mode`. -/
  paged : UInt32
  enableReturn : UInt32
  gdt64Pointer : UInt32
  gdt64 : UInt32
  longModeStart : UInt32
  room : gdt64.toNat + 24 ≤ 2 ^ 32

/-! ### Tables -/

/-- `movl v, a`. -/
def poke32 (memory : Nat → UInt8) (a v : UInt32) : Nat → UInt8 :=
  fun x => if h : a.toNat ≤ x ∧ x < a.toNat + 4 then Field.u32.put v ⟨x - a.toNat, by omega⟩ else memory x

/-- `rep stosl`. -/
def repStosl (eax : UInt32) : Nat → UInt32 → (Nat → UInt8) → Nat → UInt8
  | 0, _, memory => memory
  | ecx + 1, edi, memory => repStosl eax ecx (edi + 4) (poke32 memory edi eax)

/-- The loop `1` of `setup_page_tables`, with so many rounds left until `ecx` is 512. -/
def fillDirectory (ebx edx : UInt32) : (rounds : Nat) → (ecx : UInt32) → (Nat → UInt8) → Nat → UInt8
  | 0, _, memory => memory
  | rounds + 1, ecx, memory =>
    let memory := poke32 memory (ebx + ecx * 8) (((ecx + (edx <<< (9 : UInt32))) <<< (21 : UInt32)) ||| 0x83)
    let memory := poke32 memory (ebx + ecx * 8 + 4) 0
    fillDirectory ebx edx rounds (ecx + 1) memory

/-- The loop `2`, with so many rounds left until `edx` is 4. -/
def fillDirectories : (rounds : Nat) → (ebx edx : UInt32) → (Nat → UInt8) → Nat → UInt8
  | 0, _, _, memory => memory
  | rounds + 1, ebx, edx, memory =>
    fillDirectories rounds (ebx + 4096) (edx + 1) (fillDirectory ebx edx 512 0 memory)

/-- An entry that leads to a table. -/
def pokeTable (memory : Nat → UInt8) (a table : UInt32) : Nat → UInt8 :=
  poke32 (poke32 memory a (table ||| 3)) (a + 4) 0

def setupPageTables (b : BootBss) (memory : Nat → UInt8) : Nat → UInt8 :=
  let memory := repStosl 0 (4096 * 6 / 4) b.pml4Table memory
  let memory := pokeTable memory b.pml4Table b.pdpTable
  let memory := pokeTable memory b.pdpTable b.pdTable0
  let memory := pokeTable memory (b.pdpTable + 8) b.pdTable1
  let memory := pokeTable memory (b.pdpTable + 16) b.pdTable2
  let memory := pokeTable memory (b.pdpTable + 24) b.pdTable3
  fillDirectories 4 b.pdTable0 0 memory

/-! ### The processor -/

structure Cpu where
  cr0 : UInt32
  cr3 : UInt32
  cr4 : UInt32
  efer : UInt64

inductive BootFault where
  | protection
  | page (a : Nat)
  /-- `ret` has gone to an address that no call pushed. -/
  | lost

namespace Cpu

def paging (cpu : Cpu) : Bool := decide (cpu.cr0 &&& 0x80000000 ≠ 0)
def longEnabled (cpu : Cpu) : Bool := decide (cpu.efer &&& 0x100 ≠ 0)
def longMode (cpu : Cpu) : Bool := cpu.paging && cpu.longEnabled

/-- `movl %eax, %cr0`: paging needs protected mode, and in 64-bit mode the entries of eight bytes. -/
def writeCr0 (cpu : Cpu) (eax : UInt32) : Except BootFault Cpu :=
  if eax &&& 0x80000000 ≠ 0 ∧ (eax &&& 1 = 0 ∨ cpu.efer &&& 0x100 ≠ 0 ∧ cpu.cr4 &&& 0x20 = 0) then .error .protection
  else .ok {cpu with cr0 := eax}

end Cpu

def enableLongMode (b : BootBss) (cpu : Cpu) : Except BootFault Cpu :=
  let cpu := {cpu with cr3 := b.pml4Table}
  let cpu := {cpu with cr4 := cpu.cr4 ||| 0x20}
  let cpu := {cpu with efer := cpu.efer ||| 0x100}
  cpu.writeCr0 (cpu.cr0 ||| 0x80000000)

section Machine
variable (fw : Firmware)

/-- The entry of a table at a physical address. -/
def tableEntry (memory : Nat → UInt8) (a : Nat) : Nat :=
  (peek32 fw memory a).toNat + 2 ^ 32 * (peek32 fw memory (a + 4)).toNat

/-- The physical address that an access goes to. -/
def Cpu.access (cpu : Cpu) (memory : Nat → UInt8) (a : Nat) : Except BootFault Nat :=
  if cpu.paging then
    (Foundation.Paging.translate (tableEntry fw memory) cpu.cr3.toNat a).elim (.error (.page a)) fun page =>
      .ok page.address
  else .ok a

/-! ### Segments -/

/-- `gdt64`. -/
def gdt64 : List UInt64 := [0, 0x00af9a000000ffff, 0x00af92000000ffff]

/-- A bit of the descriptor that a selector names; past the end of the table there is none. -/
def descriptorBit (selector : UInt16) (bit : UInt64) : Option Bool :=
  gdt64[selector.toNat / 8]?.map fun d => decide (d >>> bit &&& 1 ≠ 0)

/-- A jump to another segment in 64-bit mode: a present code segment of the 64-bit kind. -/
def farJump (selector : UInt16) : Except BootFault Unit :=
  if descriptorBit selector 47 = some true ∧ descriptorBit selector 44 = some true ∧
      descriptorBit selector 43 = some true ∧ descriptorBit selector 53 = some true ∧
      descriptorBit selector 54 = some false then .ok ()
  else .error .protection

/-- A data segment register: a present data segment that can be written to. -/
def loadSegment (selector : UInt16) : Except BootFault Unit :=
  if descriptorBit selector 47 = some true ∧ descriptorBit selector 44 = some true ∧
      descriptorBit selector 43 = some false ∧ descriptorBit selector 41 = some true then .ok ()
  else .error .protection

/-! ### The way to `kernel_main` -/

/-- A call: the address to return to is pushed, and must be there when the function returns. -/
def returnsTo (memory : Nat → UInt8) (esp : Nat) (a : UInt32) : Except BootFault Unit :=
  if peek32 fw memory esp = a then .ok () else .error .lost

def start32 (b : BootBss) (text : BootText) (eax : UInt32) (cpu : Cpu) (memory : Nat → UInt8) :
    Except BootFault (Cpu × (Nat → UInt8)) := do
  let memory := poke32 memory b.furBootMagic eax
  let memory := setupPageTables b (poke32 memory (b.stackTop - 4) text.setupReturn)
  returnsTo fw memory (b.stackTop - 4).toNat text.setupReturn
  let memory := poke32 memory (b.stackTop - 4) text.enableReturn
  let cpu ← enableLongMode b cpu
  -- Paging is on from here.
  let _ ← cpu.access fw memory text.paged.toNat
  let esp ← cpu.access fw memory (b.stackTop - 4).toNat
  returnsTo fw memory esp text.enableReturn
  let _ ← cpu.access fw memory text.enableReturn.toNat
  let _ ← cpu.access fw memory text.gdt64Pointer.toNat
  let _ ← cpu.access fw memory (text.gdt64.toNat + 8)
  farJump 0x08
  let _ ← cpu.access fw memory text.longModeStart.toNat
  let _ ← cpu.access fw memory (text.gdt64.toNat + 16)
  loadSegment 0x10
  return (cpu, memory)

/-- What `kernel_main` runs, neither of which returns. -/
inductive Mode where
  | installer
  | desktop

/-- `kernel_main`, without the messages to a serial port that are compiled in on demand. -/
def kernelMain (furBootMagic : UInt32) (v : Vga) : Mode × Vga :=
  (if furBootMagic = 0x36D76289 then .installer else .desktop, (v.setColor 7 0).clear)

/-- From `_start32` into what the kernel runs. -/
def startKernel32 (b : BootBss) (text : BootText) (eax : UInt32) (cpu : Cpu) (memory : Nat → UInt8) (v : Vga) :
    Except BootFault (Mode × Vga) := do
  let x ← start32 fw b text eax cpu memory
  let a ← x.1.access fw x.2 b.furBootMagic.toNat
  return kernelMain (peek32 fw x.2 a) v

end Machine

/-! ### Where the symbols are -/

namespace BootBss
variable (b : BootBss)

/-- Where the tables begin. -/
def tables : Nat := b.start.toNat + 20480

theorem offset_toNat {n : UInt32} (h : n.toNat ≤ 45056) : (b.start + n).toNat = b.start.toNat + n.toNat := by
  have := b.room
  rw [UInt32.toNat_add, Nat.mod_eq_of_lt (by omega)]

theorem stackTop_toNat : b.stackTop.toNat = b.start.toNat + 16384 := b.offset_toNat (n := 16384) (by decide)

theorem furBootMagic_toNat : b.furBootMagic.toNat = b.start.toNat + 16384 := b.stackTop_toNat

/-- The stack begins below what it is that the code keeps. -/
theorem stack_toNat : (b.stackTop - 4).toNat = b.start.toNat + 16380 := by
  have hle : (4 : UInt32).toNat ≤ b.stackTop.toNat := by
    rw [stackTop_toNat]
    exact Nat.le_trans (by decide) (Nat.le_add_left 16384 _)
  have hfour : (4 : UInt32).toNat = 4 := rfl
  rw [UInt32.toNat_sub_of_le _ _ (UInt32.le_iff_toNat_le.mpr hle), stackTop_toNat, hfour]
  omega

theorem pml4Table_toNat : b.pml4Table.toNat = b.tables := b.offset_toNat (n := 20480) (by decide)

theorem table_toNat {n : UInt32} {k : Nat} (hn : n.toNat = 20480 + k) (hk : k < 24576) :
    (b.start + n).toNat = b.tables + k := by
  unfold tables
  rw [b.offset_toNat (by omega), hn, Nat.add_assoc]

theorem pdpTable_toNat : b.pdpTable.toNat = b.tables + 4096 := b.table_toNat (n := 24576) (by decide) (by decide)
theorem pdTable0_toNat : b.pdTable0.toNat = b.tables + (8192 + 4096 * 0) :=
  b.table_toNat (n := 28672) (by decide) (by decide)

theorem pdTable1_toNat : b.pdTable1.toNat = b.tables + (8192 + 4096 * 1) :=
  b.table_toNat (n := 32768) (by decide) (by decide)

theorem pdTable2_toNat : b.pdTable2.toNat = b.tables + (8192 + 4096 * 2) :=
  b.table_toNat (n := 36864) (by decide) (by decide)

theorem pdTable3_toNat : b.pdTable3.toNat = b.tables + (8192 + 4096 * 3) :=
  b.table_toNat (n := 40960) (by decide) (by decide)


theorem tables_bounds : 0x100000 ≤ b.tables ∧ b.tables % 4096 = 0 ∧ b.tables + 24576 < 2 ^ 32 := by
  have h₁ := b.above
  have h₂ := b.aligned
  have h₃ := b.room
  unfold tables
  omega

end BootBss

/-! ### Stored words -/

theorem poke32_outside (memory : Nat → UInt8) {a : UInt32} (v : UInt32) {x : Nat}
    (h : x < a.toNat ∨ a.toNat + 4 ≤ x) : poke32 memory a v x = memory x := dif_neg (by omega)

section Words
variable (fw : Firmware)

theorem peek32_congr {memory memory' : Nat → UInt8} {a : Nat} (h : ∀ x, a ≤ x → x < a + 4 → memory' x = memory x) :
    peek32 fw memory' a = peek32 fw memory a := by
  unfold peek32
  congr 1
  funext j
  unfold peek
  rw [h _ (Nat.le_add_right a j) (by omega)]

/-- What is stored above the first MiB is read there. -/
theorem peek32_poke32 (memory : Nat → UInt8) {a : UInt32} (v : UInt32) (h : 0x100000 ≤ a.toNat) :
    peek32 fw (poke32 memory a v) a.toNat = v := by
  have hbytes : (fun j : Fin 4 => peek fw (poke32 memory a v) (a.toNat + j)) = Field.u32.put v := by
    funext j
    have hj := j.isLt
    unfold peek poke32
    rw [if_neg (by omega), dif_pos ⟨by omega, by omega⟩]
    exact congrArg (Field.u32.put v) (Fin.ext (Nat.add_sub_cancel_left ..))
  unfold peek32
  rw [hbytes, Field.u32.get_put]

theorem peek32_poke32_other (memory : Nat → UInt8) {a : UInt32} (v : UInt32) {x : Nat}
    (h : x + 4 ≤ a.toNat ∨ a.toNat + 4 ≤ x) : peek32 fw (poke32 memory a v) x = peek32 fw memory x :=
  peek32_congr fw fun _ _ _ => poke32_outside memory v (by omega)

/-- The words of the tables, and the memory around them as it was. -/
structure Tabled (b : BootBss) (before memory : Nat → UInt8) (word : Nat → UInt32) : Prop where
  words : ∀ i < 6144, peek32 fw memory (b.tables + 4 * i) = word i
  rest : ∀ x, x < b.tables ∨ b.tables + 24576 ≤ x → memory x = before x

namespace Tabled
variable {fw} {b : BootBss} {before memory : Nat → UInt8} {word : Nat → UInt32}

theorem congr (h : Tabled fw b before memory word) {word' : Nat → UInt32} (hw : ∀ i < 6144, word i = word' i) :
    Tabled fw b before memory word' := ⟨fun i hi => (h.words i hi).trans (hw i hi), h.rest⟩

theorem poke (h : Tabled fw b before memory word) {a : UInt32} (v : UInt32) {i : Nat} (hi : i < 6144)
    (ha : a.toNat = b.tables + 4 * i) : Tabled fw b before (poke32 memory a v) (Function.update word i v) where
  words k hk := by
    by_cases hki : k = i
    · rw [hki, ← ha, peek32_poke32 fw memory v (by have := b.tables_bounds; omega), Function.update_self]
    · rw [peek32_poke32_other fw memory v (by omega), Function.update_of_ne hki, h.words k hk]
  rest x hx := by rw [poke32_outside memory v (by omega), h.rest x hx]

/-- A run of words filled. -/
theorem stos (h : Tabled fw b before memory word) (eax : UInt32) {n i : Nat} (hn : i + n ≤ 6144) {edi : UInt32}
    (hedi : edi.toNat = b.tables + 4 * i) : Tabled fw b before (repStosl eax n edi memory)
      (fun k => if i ≤ k ∧ k < i + n then eax else word k) := by
  induction n generalizing memory word i edi with
  | zero => exact h.congr fun k _ => (if_neg (by omega)).symm
  | succ n ih =>
    have hbounds := b.tables_bounds
    have hnext : (edi + 4).toNat = b.tables + 4 * (i + 1) := by
      rw [UInt32.toNat_add, hedi]
      show (b.tables + 4 * i + 4) % 2 ^ 32 = _
      omega
    refine (ih (h.poke eax (by omega) hedi) (by omega) hnext).congr fun k _ => ?_
    rw [Function.update_apply]
    split_ifs <;> first | rfl | omega

theorem table (h : Tabled fw b before memory word) {a : UInt32} (next : UInt32) {i : Nat} (hi : i + 1 < 6144)
    (ha : a.toNat = b.tables + 4 * i) : Tabled fw b before (pokeTable memory a next)
      (Function.update (Function.update word i (next ||| 3)) (i + 1) 0) := by
  have hbounds := b.tables_bounds
  have hhigh : (a + 4).toNat = b.tables + 4 * (i + 1) := by
    rw [UInt32.toNat_add, ha]
    show (b.tables + 4 * i + 4) % 2 ^ 32 = _
    omega
  exact (h.poke (next ||| 3) (by omega) ha).poke 0 hi hhigh

/-! ### The loops -/

/-- The words of a directory. -/
def directoryWord (k : Nat) : UInt32 := if k % 2 = 1 then 0 else UInt32.ofNat ((k - 2048) / 2 * 2 ^ 21 + 0x83)

theorem directoryEntry_eq {ecx edx : UInt32} {c d : Nat} (hc : ecx.toNat = c) (hclt : c < 512) (hd : edx.toNat = d)
    (hdlt : d < 4) : ((ecx + (edx <<< (9 : UInt32))) <<< (21 : UInt32)) ||| 0x83 =
      UInt32.ofNat ((512 * d + c) * 2 ^ 21 + 0x83) := by
  have hflags : (0x83 : UInt32).toNat = 0x83 := rfl
  have hsum : (ecx + (edx <<< (9 : UInt32))).toNat = 512 * d + c := by
    rw [UInt32.toNat_add, UInt32.toNat_shiftLeft, hc, hd]
    show (c + d <<< 9 % 2 ^ 32) % 2 ^ 32 = _
    rw [Nat.shiftLeft_eq]
    omega
  apply UInt32.toNat_inj.mp
  rw [UInt32.toNat_or, UInt32.toNat_shiftLeft, hsum, UInt32.toNat_ofNat', hflags]
  show (512 * d + c) <<< 21 % 2 ^ 32 ||| 0x83 = _
  rw [Nat.mod_eq_of_lt (by rw [Nat.shiftLeft_eq]; omega),
    ← Nat.shiftLeft_add_eq_or_of_lt (by decide : 0x83 < 2 ^ 21), Nat.shiftLeft_eq, Nat.mod_eq_of_lt (by omega)]

/-- The rounds of the inner loop that are left fill what is left of a directory. -/
theorem directory (h : Tabled fw b before memory word) {d : Nat} (hd : d < 4) {ebx edx : UInt32}
    (hebx : ebx.toNat = b.tables + 8192 + 4096 * d) (hedx : edx.toNat = d) {rounds c : Nat} (hrounds : c + rounds = 512)
    {ecx : UInt32} (hecx : ecx.toNat = c) : Tabled fw b before (fillDirectory ebx edx rounds ecx memory)
      (fun k => if 2048 + 1024 * d + 2 * c ≤ k ∧ k < 2048 + 1024 * (d + 1) then directoryWord k else word k) := by
  induction rounds generalizing memory word c ecx with
  | zero => exact h.congr fun k _ => (if_neg (by omega)).symm
  | succ rounds ih =>
    have hbounds := b.tables_bounds
    have hlow : (ebx + ecx * 8).toNat = b.tables + 4 * (2048 + 1024 * d + 2 * c) := by
      rw [UInt32.toNat_add, UInt32.toNat_mul, hebx, hecx]
      show (b.tables + 8192 + 4096 * d + c * 8 % 2 ^ 32) % 2 ^ 32 = _
      omega
    have hhigh : (ebx + ecx * 8 + 4).toNat = b.tables + 4 * (2048 + 1024 * d + 2 * c + 1) := by
      rw [UInt32.toNat_add, hlow]
      show (b.tables + 4 * (2048 + 1024 * d + 2 * c) + 4) % 2 ^ 32 = _
      omega
    have hnext : (ecx + 1).toNat = c + 1 := by
      rw [UInt32.toNat_add, hecx]
      show (c + 1) % 2 ^ 32 = _
      omega
    have hstored := (h.poke (((ecx + (edx <<< (9 : UInt32))) <<< (21 : UInt32)) ||| 0x83) (by omega) hlow).poke 0
      (by omega) hhigh
    rw [directoryEntry_eq hecx (by omega) hedx hd] at hstored
    rw [fillDirectory, directoryEntry_eq hecx (by omega) hedx hd]
    refine (ih hstored (by omega) hnext).congr fun k _ => ?_
    have hvalue : (2048 + 1024 * d + 2 * c - 2048) / 2 = 512 * d + c := by omega
    rw [Function.update_apply, Function.update_apply]
    by_cases heven : k = 2048 + 1024 * d + 2 * c
    · rw [if_neg (by omega), if_neg (by omega), if_pos heven, if_pos (by omega), directoryWord, if_neg (by omega), heven,
        hvalue]
    · by_cases hodd : k = 2048 + 1024 * d + 2 * c + 1
      · rw [if_neg (by omega), if_pos hodd, if_pos (by omega), directoryWord, if_pos (by omega)]
      · rw [if_neg heven, if_neg hodd]
        exact if_congr (by omega) rfl rfl

/-- The rounds of the outer loop that are left fill the directories that are left. -/
theorem directories (h : Tabled fw b before memory word) {rounds d : Nat} (hrounds : d + rounds = 4)
    {ebx edx : UInt32} (hebx : ebx.toNat = b.tables + 8192 + 4096 * d) (hedx : edx.toNat = d) :
    Tabled fw b before (fillDirectories rounds ebx edx memory)
      (fun k => if 2048 + 1024 * d ≤ k ∧ k < 6144 then directoryWord k else word k) := by
  induction rounds generalizing memory word d ebx edx with
  | zero => exact h.congr fun k _ => (if_neg (by omega)).symm
  | succ rounds ih =>
    have hbounds := b.tables_bounds
    have hebx' : (ebx + 4096).toNat = b.tables + 8192 + 4096 * (d + 1) := by
      rw [UInt32.toNat_add, hebx]
      show (b.tables + 8192 + 4096 * d + 4096) % 2 ^ 32 = _
      omega
    have hedx' : (edx + 1).toNat = d + 1 := by
      rw [UInt32.toNat_add, hedx]
      show (d + 1) % 2 ^ 32 = _
      omega
    have hzero : (0 : UInt32).toNat = 0 := rfl
    have hone := h.directory (by omega) hebx hedx (Nat.zero_add 512) hzero
    have hrest := ih hone (by omega) hebx' hedx'
    refine hrest.congr fun k hk => ?_
    by_cases hdone : k < 2048 + 1024 * d
    · rw [if_neg (by omega), if_neg (by omega), if_neg (by omega)]
    · by_cases hnow : k < 2048 + 1024 * (d + 1)
      · rw [if_neg (by omega), if_pos (by omega), if_pos (by omega)]
      · have hlater : 2048 + 1024 * (d + 1) ≤ k ∧ k < 6144 := ⟨by omega, hk⟩
        have hall : 2048 + 1024 * d ≤ k ∧ k < 6144 := ⟨by omega, hk⟩
        exact (if_pos hlater).trans (if_pos hall).symm

end Tabled

/-! ### What is in the tables -/

/-- An entry: one to the next table, four to directories, and 2048 to pages of 2 MiB. -/
def entryNumber (p k : Nat) : Nat :=
  if k = 0 then p + 4096 + 3
  else if 512 ≤ k ∧ k < 516 then p + 8192 + 4096 * (k - 512) + 3
  else if 1024 ≤ k ∧ k < 3072 then (k - 1024) * 2 ^ 21 + 0x83
  else 0

/-- Its halves. -/
def tableWord (p k : Nat) : UInt32 := if k % 2 = 1 then 0 else UInt32.ofNat (entryNumber p (k / 2))

theorem or_three {table : UInt32} (h : table.toNat % 4096 = 0) : table ||| 3 = UInt32.ofNat (table.toNat + 3) := by
  have hlt := table.toNat_lt
  have hthree : (3 : UInt32).toNat = 3 := rfl
  have hsplit : table.toNat = (table.toNat / 4096) <<< 12 := by
    rw [Nat.shiftLeft_eq]
    omega
  apply UInt32.toNat_inj.mp
  rw [UInt32.toNat_or, UInt32.toNat_ofNat', hthree, Nat.mod_eq_of_lt (by omega)]
  conv_lhs => rw [hsplit]
  rw [← Nat.shiftLeft_add_eq_or_of_lt (by decide : 3 < 2 ^ 12), ← hsplit]

/-- The words below `i` as they are in the end, and the others zero. -/
def upTo (p i k : Nat) : UInt32 := if k < i then tableWord p k else 0

namespace Tabled
variable {fw} {b : BootBss} {before memory : Nat → UInt8} {i : Nat}

/-- An entry that leads to a table is the next that is not zero. -/
theorem link (h : Tabled fw b before memory (upTo b.tables i)) {a : UInt32} (next : UInt32)
    (ha : a.toNat = b.tables + 4 * i) (heven : i % 2 = 0) (hi : i + 1 < 6144)
    (hentry : entryNumber b.tables (i / 2) = next.toNat + 3) (hnext : next.toNat % 4096 = 0) :
    Tabled fw b before (pokeTable memory a next) (upTo b.tables (i + 2)) := by
  refine (h.table next hi ha).congr fun k _ => ?_
  rw [Function.update_apply, Function.update_apply]
  unfold upTo
  by_cases hhigh : k = i + 1
  · rw [if_pos hhigh, if_pos (by omega), tableWord, if_pos (by omega)]
  · rw [if_neg hhigh]
    by_cases hlow : k = i
    · rw [if_pos hlow, if_pos (by omega), or_three hnext, tableWord, if_neg (by omega), hlow, hentry]
    · rw [if_neg hlow]
      exact if_congr (by omega) rfl rfl

/-- Entries that stay zero. -/
theorem skip (h : Tabled fw b before memory (upTo b.tables i)) (j : Nat) (hij : i ≤ j)
    (hzero : ∀ k, i ≤ k → k < j → entryNumber b.tables (k / 2) = 0) :
    Tabled fw b before memory (upTo b.tables j) := by
  refine h.congr fun k _ => ?_
  unfold upTo
  by_cases hi : k < i
  · rw [if_pos hi, if_pos (by omega)]
  · rw [if_neg hi]
    by_cases hj : k < j
    · rw [if_pos hj, tableWord, hzero k (by omega) hj]
      split
      · rfl
      · rfl
    · rw [if_neg hj]

end Tabled

/-- **The tables that are written.** -/
theorem setupPageTables_tabled (b : BootBss) (memory : Nat → UInt8) :
    Tabled fw b memory (setupPageTables b memory) (tableWord b.tables) := by
  obtain ⟨-, haligned, hroom⟩ := b.tables_bounds
  have hentry {n : UInt32} (i : Nat) (hn : n.toNat + 4096 = 4 * i) (hi : i < 2048) :
      (b.pdpTable + n).toNat = b.tables + 4 * i := by
    rw [UInt32.toNat_add, b.pdpTable_toNat, Nat.mod_eq_of_lt (by omega)]
    omega
  have hlink {n d : Nat} (hn : n = b.tables + (8192 + 4096 * d)) (i : Nat) (hi : i / 2 = 512 + d) (hd : d < 4) :
      entryNumber b.tables (i / 2) = n + 3 := by
    rw [hi, entryNumber, if_neg (by omega), if_pos (by omega), hn, Nat.add_sub_cancel_left, Nat.add_assoc b.tables]
  have hempty (k : Nat) (hk : 2 ≤ k ∧ k < 1024 ∨ 1032 ≤ k ∧ k < 2048) : entryNumber b.tables (k / 2) = 0 := by
    rw [entryNumber, if_neg (by omega), if_neg (by omega), if_neg (by omega)]
  have hbefore : Tabled fw b memory memory fun i => peek32 fw memory (b.tables + 4 * i) :=
    ⟨fun _ _ => rfl, fun _ _ => rfl⟩
  have hfirst : b.pml4Table.toNat = b.tables + 4 * 0 := by rw [b.pml4Table_toNat, Nat.mul_zero, Nat.add_zero]
  have hclear : Tabled fw b memory _ (upTo b.tables 0) :=
    (hbefore.stos 0 (n := 6144) (i := 0) (by decide) hfirst).congr fun k hk => if_pos ⟨Nat.zero_le k, by omega⟩
  have hpml4 := (hclear.link b.pdpTable hfirst rfl (by decide) (by rw [b.pdpTable_toNat]; rfl)
    (by rw [b.pdpTable_toNat]; omega)).skip 1024 (by decide) fun k hk hlt => hempty k (.inl ⟨hk, hlt⟩)
  have h₀ : Tabled fw b memory _ (upTo b.tables 1026) :=
    hpml4.link b.pdTable0 b.pdpTable_toNat rfl (by decide) (hlink b.pdTable0_toNat 1024 (by decide) (by decide))
      (by rw [b.pdTable0_toNat]; omega)
  have h₁ : Tabled fw b memory _ (upTo b.tables 1028) :=
    h₀.link b.pdTable1 (hentry (n := 8) 1026 (by decide) (by decide)) rfl (by decide)
      (hlink b.pdTable1_toNat 1026 (by decide) (by decide)) (by rw [b.pdTable1_toNat]; omega)
  have h₂ : Tabled fw b memory _ (upTo b.tables 1030) :=
    h₁.link b.pdTable2 (hentry (n := 16) 1028 (by decide) (by decide)) rfl (by decide)
      (hlink b.pdTable2_toNat 1028 (by decide) (by decide)) (by rw [b.pdTable2_toNat]; omega)
  have h₃ := (h₂.link b.pdTable3 (hentry (n := 24) 1030 (by decide) (by decide)) rfl (by decide)
    (hlink b.pdTable3_toNat 1030 (by decide) (by decide)) (by rw [b.pdTable3_toNat]; omega)).skip 2048 (by decide)
    fun k hk hlt => hempty k (.inr ⟨hk, hlt⟩)
  have hzero : (0 : UInt32).toNat = 0 := rfl
  have hdone := h₃.directories (Nat.zero_add 4) (by rw [b.pdTable0_toNat, Nat.add_assoc]) hzero
  refine Tabled.congr hdone fun k hk => ?_
  by_cases hdirectory : 2048 ≤ k
  · have hall : 2048 + 1024 * 0 ≤ k ∧ k < 6144 := ⟨by omega, hk⟩
    have hnumber : entryNumber b.tables (k / 2) = (k - 2048) / 2 * 2 ^ 21 + 0x83 := by
      rw [entryNumber, if_neg (by omega), if_neg (by omega), if_pos (by omega)]
      omega
    rw [tableWord, hnumber]
    exact if_pos hall
  · have hbelow : ¬ (2048 + 1024 * 0 ≤ k ∧ k < 6144) := by omega
    exact (if_neg hbelow).trans (if_pos (by omega))

/-! ### Through the tables -/

section Translation
variable {fw} {b : BootBss} {memory : Nat → UInt8}
  (h : ∀ i < 6144, peek32 fw memory (b.tables + 4 * i) = tableWord b.tables i)
include h

theorem tableEntry_tables {k : Nat} (hk : k < 3072) :
    tableEntry fw memory (b.tables + 8 * k) = entryNumber b.tables k := by
  have hbounds := b.tables_bounds
  have hlow := h (2 * k) (by omega)
  have hhigh := h (2 * k + 1) (by omega)
  have hlt : entryNumber b.tables k < 2 ^ 32 := by
    unfold entryNumber
    split_ifs <;> omega
  have hplace : b.tables + 8 * k = b.tables + 4 * (2 * k) := by omega
  have hplace' : b.tables + 8 * k + 4 = b.tables + 4 * (2 * k + 1) := by omega
  have hhalf : 2 * k / 2 = k := by omega
  have hzero : (0 : UInt32).toNat = 0 := rfl
  rw [tableEntry, hplace', hhigh, hplace, hlow, tableWord, if_neg (by omega), tableWord, if_pos (by omega), hhalf,
    UInt32.toNat_ofNat', Nat.mod_eq_of_lt hlt, hzero, Nat.mul_zero, Nat.add_zero]

/-- **The first 4 GiB are where they are, and nothing else is anywhere.** -/
theorem translate_identity (a : Nat) : Foundation.Paging.translate (tableEntry fw memory) b.tables a =
    if a < 2 ^ 32 then some ⟨a, true, false⟩ else none := by
  obtain ⟨-, haligned, hroom⟩ := b.tables_bounds
  have hcr3 : frame 12 b.tables = b.tables := by
    unfold frame
    norm_num
    omega
  have hpml4 : entryFor (tableEntry fw memory) a 3 b.tables = entryNumber b.tables (a / 2 ^ 39 % 512) :=
    tableEntry_tables h (by omega)
  have hpdp : entryFor (tableEntry fw memory) a 2 (b.tables + 4096) =
      entryNumber b.tables (512 + a / 2 ^ 30 % 512) := by
    rw [← tableEntry_tables h (by omega), entryFor]
    exact congrArg _ (by omega)
  unfold Foundation.Paging.translate
  by_cases hcanonical : Foundation.Paging.Canonical a
  · rw [if_pos hcanonical, hcr3]
    by_cases hfirst : a / 2 ^ 39 % 512 = 0
    · rw [hfirst, entryNumber, if_pos rfl] at hpml4
      rw [Foundation.Paging.descend_table true true (by decide) (by decide) (by omega) (by omega) hpml4]
      by_cases hlow : a / 2 ^ 30 % 512 < 4
      · have hlt : a < 2 ^ 32 := by
          unfold Foundation.Paging.Canonical at hcanonical
          omega
        rw [entryNumber, if_neg (by omega), if_pos (by omega), Nat.add_sub_cancel_left] at hpdp
        rw [Foundation.Paging.descend_table _ _ (by decide) (by decide) (by omega) (by omega) hpdp]
        have hpd : entryFor (tableEntry fw memory) a 1 (b.tables + 8192 + 4096 * (a / 2 ^ 30 % 512)) =
            (512 * (a / 2 ^ 30 % 512) + a / 2 ^ 21 % 512) * 2 ^ 21 + 0x83 := by
          have hentry := tableEntry_tables h (k := 1024 + 512 * (a / 2 ^ 30 % 512) + a / 2 ^ 21 % 512) (by omega)
          rw [entryNumber, if_neg (by omega), if_neg (by omega), if_pos (by omega)] at hentry
          rw [entryFor]
          refine Eq.trans (congrArg _ ?_) (hentry.trans ?_)
          · omega
          · omega
        rw [Foundation.Paging.descend_large _ _ (by decide) (by decide) (by decide) (by omega) (by omega) hpd,
          if_pos hlt]
        have hsame : (512 * (a / 2 ^ 30 % 512) + a / 2 ^ 21 % 512) * 2 ^ 21 + a % 2 ^ 21 = a := by omega
        rw [hsame]
        rfl
      · rw [entryNumber, if_neg (by omega), if_neg (by omega), if_neg (by omega)] at hpdp
        rw [Foundation.Paging.descend_absent _ _ (by rw [hpdp]), if_neg (by omega)]
    · rw [entryNumber, if_neg hfirst, if_neg (by omega), if_neg (by omega)] at hpml4
      rw [Foundation.Paging.descend_absent _ _ (by rw [hpml4]), if_neg (by omega)]
  · have hlarge : ¬ a < 2 ^ 32 := fun hlt => hcanonical (.inl (by omega))
    rw [if_neg hcanonical, if_neg hlarge]

/-- What is touched through the tables is touched where it is. -/
theorem access_tables {cpu : Cpu} (hpaging : cpu.paging = true) (hcr3 : cpu.cr3 = b.pml4Table) {a : Nat}
    (ha : a < 2 ^ 32) : cpu.access fw memory a = .ok a := by
  unfold Cpu.access
  rw [if_pos hpaging, hcr3, b.pml4Table_toNat, translate_identity h, if_pos ha]
  rfl

end Translation

/-! ### Into 64-bit mode -/

theorem or_and_self (x m : UInt32) : (x ||| m) &&& m = m := by
  apply UInt32.toBitVec_inj.mp
  ext i
  simp
  grind

theorem or_and_self_wide (x m : UInt64) : (x ||| m) &&& m = m := by
  apply UInt64.toBitVec_inj.mp
  ext i
  simp
  grind

theorem or_and_of_disjoint {m k : UInt32} (h : m &&& k = 0) (x : UInt32) : (x ||| m) &&& k = x &&& k := by
  have hbits (i : Nat) (hi : i < 32) : (m.toBitVec[i] && k.toBitVec[i]) = false := by
    have hbit := congrArg (fun n => n.toBitVec[i]) h
    simpa using hbit
  apply UInt32.toBitVec_inj.mp
  ext i hi
  have hbit := hbits i hi
  simp
  grind

/-- Paging is turned on after what it needs. -/
theorem enableLongMode_ok (b : BootBss) {cpu : Cpu} (h : cpu.cr0 &&& 1 ≠ 0) :
    ∃ cpu', enableLongMode b cpu = .ok cpu' ∧ cpu'.paging = true ∧ cpu'.longMode = true ∧ cpu'.cr3 = b.pml4Table := by
  have hpg := or_and_self cpu.cr0 0x80000000
  have hpe := or_and_of_disjoint (m := 0x80000000) (k := 1) (by decide) cpu.cr0
  have hpae := or_and_self cpu.cr4 0x20
  have hlme := or_and_self_wide cpu.efer 0x100
  refine ⟨_, if_neg ?_, ?_, ?_, rfl⟩
  · rintro ⟨-, hoff | ⟨-, hoff⟩⟩
    · rw [hpe] at hoff
      exact h hoff
    · rw [hpae] at hoff
      exact absurd hoff (by decide)
  · unfold Cpu.paging
    rw [hpg]
    rfl
  · unfold Cpu.longMode Cpu.paging Cpu.longEnabled
    rw [hpg, hlme]
    rfl

/-- The machine when `kernel_main` is called. -/
structure LongMode (b : BootBss) (eax : UInt32) (before : Nat → UInt8) (cpu : Cpu) (memory : Nat → UInt8) : Prop where
  longMode : cpu.longMode = true
  /-- As long as nothing is stored in the tables. -/
  identity : ∀ later : Nat → UInt8, (∀ x, b.tables ≤ x → x < b.tables + 24576 → later x = memory x) →
    ∀ a, Foundation.Paging.translate (tableEntry fw later) cpu.cr3.toNat a =
      if a < 2 ^ 32 then some ⟨a, true, false⟩ else none
  kept : cpu.access fw memory b.furBootMagic.toNat = .ok b.furBootMagic.toNat ∧
    peek32 fw memory b.furBootMagic.toNat = eax
  rest : ∀ x, x < b.start.toNat + 16380 ∨ b.start.toNat + 16388 ≤ x ∧ x < b.tables ∨ b.tables + 24576 ≤ x →
    memory x = before x

/-- **`_start32` reaches `kernel_main` in 64-bit mode**, from protected mode and whatever the registers and the memory
hold: no access faults, both calls return, the first 4 GiB are mapped to themselves, and only the stack, the kept
register and the tables have been stored to. -/
theorem start32_longMode (b : BootBss) (text : BootText) (eax : UInt32) (cpu : Cpu) (before : Nat → UInt8)
    (h : cpu.cr0 &&& 1 ≠ 0) :
    ∃ cpu' memory, start32 fw b text eax cpu before = .ok (cpu', memory) ∧ LongMode fw b eax before cpu' memory := by
  obtain ⟨cpu', hcpu, hpaging, hlong, hcr3⟩ := enableLongMode_ok b h
  have habove := b.above
  have hstack := b.stack_toNat
  have hmagic := b.furBootMagic_toNat
  have hroom := text.room
  have hbss := b.room
  have htables : b.tables = b.start.toNat + 20480 := rfl
  -- The memory with the register kept and the first return address on the stack, and with the tables over it.
  generalize hfirst : poke32 (poke32 before b.furBootMagic eax) (b.stackTop - 4) text.setupReturn = first
  have htabled := setupPageTables_tabled fw b first
  generalize hsetupTables : setupPageTables b first = tabled at htabled
  have hkeeps {x : Nat} (hx : x + 4 ≤ b.tables) : peek32 fw tabled x = peek32 fw first x :=
    peek32_congr fw fun y _ _ => htabled.rest y (by omega)
  have hsetup : peek32 fw tabled (b.stackTop - 4).toNat = text.setupReturn := by
    rw [hkeeps (by omega), ← hfirst, peek32_poke32 fw _ _ (by omega)]
  generalize hlast : poke32 tabled (b.stackTop - 4) text.enableReturn = last
  have houtside {x : Nat} (hx : x < b.start.toNat + 16380 ∨ b.start.toNat + 16384 ≤ x) : last x = tabled x := by
    rw [← hlast]
    exact poke32_outside tabled _ (by omega)
  have hwords : ∀ i < 6144, peek32 fw last (b.tables + 4 * i) = tableWord b.tables i := fun i hi =>
    (peek32_congr fw fun y _ _ => houtside (by omega)).trans (htabled.words i hi)
  have henable : peek32 fw last (b.stackTop - 4).toNat = text.enableReturn := by
    rw [← hlast, peek32_poke32 fw _ _ (by omega)]
  have haccess {a : Nat} (ha : a < 2 ^ 32) : cpu'.access fw last a = .ok a := access_tables hwords hpaging hcr3 ha
  refine ⟨cpu', last, ?_, hlong, fun later hlater a => ?_, ⟨haccess (by omega), ?_⟩, fun x hx => ?_⟩
  · have hjump : farJump 0x08 = .ok () := if_pos (by decide)
    have hsegment : loadSegment 0x10 = .ok () := if_pos (by decide)
    unfold start32
    dsimp only
    rw [hfirst, hsetupTables, returnsTo, if_pos hsetup, Foundation.ok_bind, hlast, hcpu, Foundation.ok_bind,
      haccess text.paged.toNat_lt, Foundation.ok_bind, haccess (by omega), Foundation.ok_bind, returnsTo, if_pos henable,
      Foundation.ok_bind, haccess text.enableReturn.toNat_lt, Foundation.ok_bind, haccess text.gdt64Pointer.toNat_lt,
      Foundation.ok_bind, haccess (by omega), Foundation.ok_bind, hjump, Foundation.ok_bind,
      haccess text.longModeStart.toNat_lt, Foundation.ok_bind, haccess (by omega), Foundation.ok_bind, hsegment]
    rfl
  · rw [hcr3, b.pml4Table_toNat]
    refine translate_identity (fun i hi => ?_) a
    exact (peek32_congr fw fun y _ _ => hlater y (by omega) (by omega)).trans (hwords i hi)
  · rw [peek32_congr fw (fun y hy hy' => houtside (x := y) (by omega)), hkeeps (by omega), ← hfirst,
      peek32_poke32_other fw _ _ (by omega), peek32_poke32 fw _ _ (by omega)]
  · rw [houtside (by omega), htabled.rest x (by omega), ← hfirst, poke32_outside _ _ (by omega),
      poke32_outside _ _ (by omega)]

/-- What the kernel runs depends on what was in `eax`. -/
theorem startKernel32_eq (b : BootBss) (text : BootText) (eax : UInt32) {cpu : Cpu} (memory : Nat → UInt8) (v : Vga)
    (h : cpu.cr0 &&& 1 ≠ 0) : startKernel32 fw b text eax cpu memory v = .ok (kernelMain eax v) := by
  obtain ⟨cpu', later, hstart, hmode⟩ := start32_longMode fw b text eax cpu memory h
  unfold startKernel32
  rw [hstart, Foundation.ok_bind]
  dsimp only
  rw [hmode.kept.1, Foundation.ok_bind, hmode.kept.2]
  rfl

end Words

/-- **GRUB brings up the installer, and a system that was installed the desktop**: the boot sector jumps to `_start32`
in the image, which leads to `kernel_main` in 64-bit mode with the image in memory as it was loaded, and what is in
`eax` is the address that was jumped to, which is not what GRUB leaves there. -/
theorem boot_modes (l : Linked) (sectors28 : Option UInt32) (d : Disk) (h : (diskInstallSystem l sectors28 d).1 = 0)
    (hfits : l.kernel.size.toNat ≤ 0xf0000) (window : Nat → UInt8 → UInt8) (before : BootState) (b : BootBss)
    (hbss : 0x100000 + l.kernel.size.toNat ≤ b.start.toNat) (text : BootText) (cpu : Cpu) (hcpu : cpu.cr0 &&& 1 ≠ 0)
    (v : Vga) :
    (∀ fw memory, startKernel32 fw b text 0x36D76289 cpu memory v = .ok (.installer, (v.setColor 7 0).clear)) ∧
    ∃ entry s cpu' memory,
      start (bootFrom (diskInstallSystem l sectors28 d).2.drive.sectors window) before = .jumped entry s ∧
      entry.toNat = 0x100000 + l.start32.toNat ∧
      start32 (bootFrom (diskInstallSystem l sectors28 d).2.drive.sectors window) b text entry cpu s.memory =
        .ok (cpu', memory) ∧
      LongMode (bootFrom (diskInstallSystem l sectors28 d).2.drive.sectors window) b entry s.memory cpu' memory ∧
      (∀ i < l.kernel.size.toNat, memory (0x100000 + i) =
        if i < 0x90000 then l.kernel.byte i else window (0x10000 + i) (l.kernel.byte i)) ∧
      startKernel32 (bootFrom (diskInstallSystem l sectors28 d).2.drive.sectors window) b text entry cpu s.memory v =
        .ok (.desktop, (v.setColor 7 0).clear) := by
  obtain ⟨entry, s, hstart, hentry, himage, -, -⟩ := start_installed h hfits window before
  obtain ⟨cpu', memory, h32, hmode⟩ := start32_longMode
    (bootFrom (diskInstallSystem l sectors28 d).2.drive.sectors window) b text entry cpu s.memory hcpu
  have hinside := (installable (diskInstallSystem_ok h).1).entry
  have hother : entry ≠ 0x36D76289 := fun heq => by
    have hmagic : entry.toNat = 0x36D76289 := by rw [heq]; rfl
    omega
  refine ⟨fun fw memory => ?_, entry, s, cpu', memory, hstart, hentry, h32, hmode, fun i hi => ?_, ?_⟩
  · rw [startKernel32_eq fw b text _ memory v hcpu, kernelMain, if_pos rfl]
  · rw [hmode.rest _ (.inl (by omega)), himage i hi]
  · rw [startKernel32_eq _ b text entry s.memory v hcpu, kernelMain, if_neg hother]

/-- The tables from 2 MiB on. -/
def someBss : BootBss := ⟨0x200000, by decide, by decide, by decide⟩

def someText : BootText :=
  { setupReturn := 0x101010
    paged := 0x101100
    enableReturn := 0x101015
    gdt64Pointer := 0x102018
    gdt64 := 0x102000
    longModeStart := 0x101020
    room := by decide }

/-- Protected mode, and nothing else. -/
def protectedCpu : Cpu := ⟨1, 0, 0, 0⟩

theorem start32_longMode_protected : ∃ cpu' memory,
    start32 (bootFrom (fun _ _ => 0) fun _ _ => 0xff) someBss someText 0x36D76289 protectedCpu (fun _ => 0) =
      .ok (cpu', memory) ∧
    LongMode (bootFrom (fun _ _ => 0) fun _ _ => 0xff) someBss 0x36D76289 (fun _ => 0) cpu' memory :=
  start32_longMode _ someBss someText 0x36D76289 protectedCpu (fun _ => 0) (by decide)

/-- The screen that the machine comes up with. -/
def blankScreen : Vga := ⟨fun _ => 0, [], 0, 0, 0, 0, 24⟩

theorem boot_modes_small :
    (∀ fw memory, startKernel32 fw someBss someText 0x36D76289 protectedCpu memory blankScreen =
      .ok (.installer, (blankScreen.setColor 7 0).clear)) ∧
    ∃ entry s cpu' memory,
      start (bootFrom (diskInstallSystem smallSystem none blankDisk).2.drive.sectors fun _ _ => 0xff)
        (machine fun _ => 0) = .jumped entry s ∧
      entry.toNat = 0x100000 + smallSystem.start32.toNat ∧
      start32 (bootFrom (diskInstallSystem smallSystem none blankDisk).2.drive.sectors fun _ _ => 0xff) someBss someText
        entry protectedCpu s.memory = .ok (cpu', memory) ∧
      LongMode (bootFrom (diskInstallSystem smallSystem none blankDisk).2.drive.sectors fun _ _ => 0xff) someBss entry
        s.memory cpu' memory ∧
      (∀ i < smallSystem.kernel.size.toNat, memory (0x100000 + i) =
        if i < 0x90000 then smallSystem.kernel.byte i else 0xff) ∧
      startKernel32 (bootFrom (diskInstallSystem smallSystem none blankDisk).2.drive.sectors fun _ _ => 0xff) someBss
        someText entry protectedCpu s.memory blankScreen = .ok (.desktop, (blankScreen.setColor 7 0).clear) :=
  boot_modes smallSystem none blankDisk (diskInstallSystem_healthy (by decide) fun _ => rfl) (by decide)
    (fun _ _ => 0xff) (machine fun _ => 0) someBss (by decide) someText protectedCpu (by decide) blankScreen

end FurOS
