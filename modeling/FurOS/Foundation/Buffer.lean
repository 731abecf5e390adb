import Mathlib.Algebra.BigOperators.Fin
import Mathlib.Data.List.TakeWhile

/-! Fixed-size buffers as functions on their indices.

A buffer of `n` cells is `Fin n → β`, so an index outside it cannot be written
down. `slice` reads a block, `splice` writes one, and `spliceAll` writes the
blocks of a table one after the other, as a loop of block copies does. A block
written is read back, and every other block is untouched. The last two sections
are about buffers of bytes: little-endian numbers, and the 32-bit sum. -/
namespace Foundation.Buffer

variable {β : Type} {n m k : Nat}

/-- The `m` cells from `off`. -/
def slice (a : Fin n → β) (off m : Nat) (h : off + m ≤ n) : Fin m → β :=
  fun j => a ⟨off + j, by omega⟩

/-- `src` copied over the cells from `off`. -/
def splice (a : Fin n → β) (off : Nat) (src : Fin m → β) : Fin n → β :=
  fun i => if h : off ≤ i.val ∧ i.val < off + m then src ⟨i.val - off, by omega⟩ else a i

/-- `count` blocks of `m` cells copied one after the other from `off`. -/
def spliceAll (a : Fin n → β) (off : Nat) (blocks : Nat → Fin m → β) : Nat → Fin n → β
  | 0 => a
  | count + 1 => splice (spliceAll a off blocks count) (off + count * m) (blocks count)

theorem slice_congr (a : Fin n → β) {off off' m : Nat} (he : off = off') (h : off + m ≤ n)
    (h' : off' + m ≤ n) : slice a off m h = slice a off' m h' := by
  subst he
  rfl

theorem splice_inside (a : Fin n → β) (off : Nat) (src : Fin m → β) (i : Fin n) (j : Fin m)
    (h : i.val = off + j.val) : splice a off src i = src j := by
  have hj := j.isLt
  unfold splice
  rw [dif_pos (by omega)]
  congr 1
  apply Fin.ext
  show i.val - off = j.val
  omega

theorem splice_outside (a : Fin n → β) (off : Nat) (src : Fin m → β) (i : Fin n)
    (h : i.val < off ∨ off + m ≤ i.val) : splice a off src i = a i := by
  unfold splice
  rw [dif_neg (by omega)]

theorem splice_congr {a b : Fin n → β} (off : Nat) (src : Fin m → β) {i : Fin n} (h : a i = b i) :
    splice a off src i = splice b off src i := by
  unfold splice
  split
  · rfl
  · exact h

/-- A block written is read back. -/
theorem slice_splice (a : Fin n → β) (off : Nat) (src : Fin m → β) (h : off + m ≤ n) :
    slice (splice a off src) off m h = src :=
  funext fun j => splice_inside a off src _ j rfl

/-- A block disjoint from the one written keeps its cells. -/
theorem slice_splice_disjoint (a : Fin n → β) (off : Nat) (src : Fin m → β) (off' : Nat)
    (h : off' + k ≤ n) (hd : off' + k ≤ off ∨ off + m ≤ off') :
    slice (splice a off src) off' k h = slice a off' k h := by
  funext j
  have hj := j.isLt
  apply splice_outside
  show off' + j.val < off ∨ off + m ≤ off' + j.val
  omega

/-- The cells outside the blocks are untouched. -/
theorem spliceAll_outside (a : Fin n → β) (off : Nat) (blocks : Nat → Fin m → β) (count : Nat)
    (i : Fin n) (h : i.val < off ∨ off + count * m ≤ i.val) :
    spliceAll a off blocks count i = a i := by
  induction count with
  | zero => rfl
  | succ count ih =>
    have hc := Nat.add_one_mul count m
    rw [spliceAll, splice_outside _ _ _ _ (by omega), ih (by omega)]

/-- Block `b` of the copied blocks is read back. -/
theorem spliceAll_inside (a : Fin n → β) (off : Nat) (blocks : Nat → Fin m → β) (count b : Nat)
    (hb : b < count) (i : Fin n) (j : Fin m) (h : i.val = off + b * m + j.val) :
    spliceAll a off blocks count i = blocks b j := by
  induction count with
  | zero => omega
  | succ count ih =>
    by_cases hl : b = count
    · subst hl
      exact splice_inside _ _ _ i j h
    · have hj := j.isLt
      have hm : (b + 1) * m ≤ count * m := Nat.mul_le_mul_right m (by omega)
      have hs := Nat.add_one_mul b m
      rw [spliceAll, splice_outside _ _ _ _ (by omega), ih (by omega)]

theorem slice_spliceAll (a : Fin n → β) (off : Nat) (blocks : Nat → Fin m → β) (count b : Nat)
    (hb : b < count) (h : off + b * m + m ≤ n) :
    slice (spliceAll a off blocks count) (off + b * m) m h = blocks b :=
  funext fun j => spliceAll_inside a off blocks count b hb _ j rfl

theorem slice_spliceAll_outside (a : Fin n → β) (off : Nat) (blocks : Nat → Fin m → β)
    (count off' : Nat) (h : off' + k ≤ n) (hd : off' + k ≤ off ∨ off + count * m ≤ off') :
    slice (spliceAll a off blocks count) off' k h = slice a off' k h := by
  funext j
  have hj := j.isLt
  apply spliceAll_outside
  show off' + j.val < off ∨ off + count * m ≤ off' + j.val
  omega

/-! ### Strings in buffers

A string ends at the first cell that holds the terminator `z`. -/

section Strings
variable [DecidableEq β] (z : β)

/-- The cells before the first terminator (all of them where there is none). -/
def text (a : Fin n → β) : List β := (List.ofFn a).takeWhile (fun c => decide (c ≠ z))

/-- `src` and a terminator copied to the start of the buffer. -/
def setText (a : Fin n → β) (src : List β) : Fin n → β :=
  fun i => if h : i.val < src.length then src[i.val] else if i.val = src.length then z else a i

theorem not_mem_text (a : Fin n → β) : z ∉ text z a := by
  intro h
  have := List.mem_takeWhile_imp h
  simp at this

/-- What the string of a buffer is: the cells up to a first terminator at `l`. -/
theorem text_eq_iff (a : Fin n → β) (s : List β) (hz : z ∉ s) (hl : s.length < n) :
    text z a = s ↔ (∀ i (h : i < s.length), a ⟨i, by omega⟩ = s[i]) ∧ a ⟨s.length, hl⟩ = z := by
  have hsplit : List.ofFn a = (List.ofFn a).take s.length ++
      (a ⟨s.length, hl⟩ :: (List.ofFn a).drop (s.length + 1)) := by
    rw [← List.getElem_ofFn (f := a) (i := s.length) (by simpa using hl), List.getElem_cons_drop,
      List.take_append_drop]
  constructor
  · intro h
    have hpre : s <+: List.ofFn a := by
      rw [← h]
      exact List.takeWhile_prefix _
    have hcell : ∀ i (h : i < s.length), a ⟨i, by omega⟩ = s[i] := by
      intro i hi
      rw [hpre.getElem hi, List.getElem_ofFn]
    refine ⟨hcell, ?_⟩
    by_contra hne
    have htake : (List.ofFn a).take s.length = s := (List.prefix_iff_eq_take.mp hpre).symm
    have hall : ∀ c ∈ s, decide (c ≠ z) = true := fun c hc => decide_eq_true (ne_of_mem_of_not_mem hc hz)
    have hlen : s.length < (text z a).length := by
      unfold text
      rw [hsplit, htake, List.takeWhile_append_of_pos hall, List.takeWhile_cons_of_pos (by simpa using hne)]
      simp
    rw [h] at hlen
    exact Nat.lt_irrefl _ hlen
  · intro hs
    obtain ⟨hcell, hend⟩ := hs
    have htake : (List.ofFn a).take s.length = s := by
      apply List.ext_getElem
      · simp; omega
      · intro i h1 h2
        rw [List.getElem_take, List.getElem_ofFn]
        exact hcell i h2
    have hall : ∀ c ∈ s, decide (c ≠ z) = true := fun c hc => decide_eq_true (ne_of_mem_of_not_mem hc hz)
    unfold text
    rw [hsplit, htake, List.takeWhile_append_of_pos hall, hend,
      List.takeWhile_cons_of_neg (by simp), List.append_nil]

/-- A string copied is the string read. -/
theorem text_setText (a : Fin n → β) (s : List β) (hz : z ∉ s) (hl : s.length < n) :
    text z (setText z a s) = s := by
  rw [text_eq_iff z _ s hz hl]
  refine ⟨fun i hi => ?_, ?_⟩
  · simp [setText, hi]
  · simp [setText]

/-- With a terminator at `l` the string is at most `l` long. -/
theorem text_length_le_of_eq (a : Fin n → β) (l : Fin n) (h : a l = z) :
    (text z a).length ≤ l.val := by
  by_contra hlt
  have hpre : text z a <+: List.ofFn a := List.takeWhile_prefix _
  have hmem : a l ∈ text z a := by
    have hlen : l.val < (text z a).length := by omega
    have hg : (text z a)[l.val] = a l := by
      rw [hpre.getElem hlen, List.getElem_ofFn]
    rw [← hg]
    exact List.getElem_mem _
  rw [h] at hmem
  exact not_mem_text z a hmem

end Strings

/-! ### Little-endian numbers -/

/-- The low `w` bytes of a number, lowest first. -/
def leBytes (w v : Nat) : Fin w → UInt8 := fun i => UInt8.ofNat (v / 256 ^ i.val)

/-- The number whose bytes these are, lowest first. -/
def leNat : (w : Nat) → (Fin w → UInt8) → Nat
  | 0, _ => 0
  | w + 1, b => (b 0).toNat + 256 * leNat w (fun i => b i.succ)

theorem leNat_leBytes (w v : Nat) : leNat w (leBytes w v) = v % 256 ^ w := by
  induction w generalizing v with
  | zero => simp [leNat, Nat.mod_one]
  | succ w ih =>
    have htail : (fun i : Fin w => leBytes (w + 1) v i.succ) = leBytes w (v / 256) := by
      funext i
      simp only [leBytes, Fin.val_succ, Nat.div_div_eq_div_mul, pow_succ, mul_comm]
    have hhead : (leBytes (w + 1) v 0).toNat = v % 256 := by simp [leBytes]
    rw [leNat, htail, ih, hhead, pow_succ, mul_comm (256 ^ w) 256, Nat.mod_mul]

/-- A number that fits is read back. -/
theorem leNat_leBytes_of_lt (w v : Nat) (h : v < 256 ^ w) : leNat w (leBytes w v) = v := by
  rw [leNat_leBytes, Nat.mod_eq_of_lt h]

/-! ### The 32-bit sum of bytes -/

/-- The bytes added up in 32 bits, in order. -/
def byteSum (a : Fin n → UInt8) : UInt32 := Fin.foldl n (fun sum i => sum + (a i).toUInt32) 0

theorem byteSum_toNat (a : Fin n → UInt8) : (byteSum a).toNat = (∑ i, (a i).toNat) % 2 ^ 32 := by
  have hstep : ∀ (n : Nat) (a : Fin n → UInt8),
      (Fin.foldl n (fun sum i => sum + (a i).toUInt32) 0).toNat = (∑ i, (a i).toNat) % 2 ^ 32 := by
    intro n
    induction n with
    | zero => intro a; simp
    | succ n ih =>
      intro a
      rw [Fin.foldl_succ_last, UInt32.toNat_add, ih, Fin.sum_univ_castSucc, UInt8.toNat_toUInt32]
      omega
  exact hstep n a

/-- Two buffers that differ in one cell have different sums. -/
theorem byteSum_ne_of_cell (a b : Fin n → UInt8) (i : Fin n) (hi : a i ≠ b i)
    (h : ∀ j, j ≠ i → a j = b j) : byteSum a ≠ byteSum b := by
  intro he
  have hsum : ∑ j ∈ Finset.univ.erase i, (a j).toNat = ∑ j ∈ Finset.univ.erase i, (b j).toNat :=
    Finset.sum_congr rfl fun j hj => by rw [h j (Finset.ne_of_mem_erase hj)]
  have ha := Finset.add_sum_erase Finset.univ (fun j => (a j).toNat) (Finset.mem_univ i)
  have hb := Finset.add_sum_erase Finset.univ (fun j => (b j).toNat) (Finset.mem_univ i)
  have hn := congrArg UInt32.toNat he
  rw [byteSum_toNat, byteSum_toNat, ← ha, ← hb, hsum] at hn
  have hai := (a i).toNat_lt
  have hbi := (b i).toNat_lt
  apply hi
  apply UInt8.toNat_inj.mp
  omega

end Foundation.Buffer
