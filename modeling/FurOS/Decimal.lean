import FurOS.Shell.Text
import Mathlib.Data.Nat.Digits.Defs
import Mathlib.Logic.Function.Basic

/-! Numbers printed in decimal: `u2s` (`kernel/desktop.c`), `u32_to_str` (`kernel/installer.c`) and
`shell_print_uint` (`kernel/shell.c`).

Each divides by ten until nothing is left. The shell and the installer keep the digits in an array of
their own and turn them around; `u2s` fills the caller's array from behind, but starts a cell too early. -/
namespace FurOS

/-- The decimal representation of a number. -/
def decimal (n : Nat) : List UInt8 :=
  if n = 0 then [48] else ((Nat.digits 10 n).map fun d => 48 + UInt8.ofNat d).reverse

/-- The loop of `u2s` with `i` cells before it: the index of the last cell filled, and the array. -/
def u2sFrom (v : UInt32) (buf : Fin 16 → UInt8) : (i : Nat) → i ≤ 16 → Nat × (Fin 16 → UInt8)
  | 0, _ => (0, buf)
  | i + 1, h =>
    if v = 0 then (i + 1, buf)
    else u2sFrom (v / 10) (Function.update buf ⟨i, h⟩ (48 + (v % 10).toUInt8)) i (Nat.le_of_succ_le h)

/-- The index of the cell that `u2s` returns a pointer to, and the caller's array. -/
def u2s (v : UInt32) (buf : Fin 16 → UInt8) : Nat × (Fin 16 → UInt8) :=
  let buf := Function.update buf 15 0
  if v = 0 then (14, Function.update buf 14 48) else u2sFrom v buf 14 (by decide)

/-- The string that starts there. -/
def u2sString (v : UInt32) (buf : Fin 16 → UInt8) : CStr :=
  .ofChars ((List.ofFn (u2s v buf).2).drop (u2s v buf).1)

/-- The second loop of `u32_to_str` at `p`, with these digits of `tmp` to come. -/
def u32ToStrFrom {n : Nat} (buf : Fin n → UInt8) (p : Fin n) : List UInt8 → Fin n × (Fin n → UInt8)
  | [] => (p, buf)
  | c :: tmp => if h : p.val + 1 < n then u32ToStrFrom (Function.update buf p c) ⟨p + 1, h⟩ tmp else (p, buf)

/-- The caller's array after `u32_to_str`: it has room for a digit and the terminator. -/
def u32ToStr {n : Nat} (hn : 2 ≤ n) (v : UInt32) (buf : Fin n → UInt8) : Fin n → UInt8 :=
  let tmp := (digitsRev v 11).reverse
  let (p, buf) :=
    if v = 0 then u32ToStrFrom (Function.update buf ⟨0, by omega⟩ 48) ⟨1, hn⟩ tmp
    else u32ToStrFrom buf ⟨0, by omega⟩ tmp
  Function.update buf p 0

/-! ### Digits -/

theorem digit_eq (v : UInt32) : 48 + (v % 10).toUInt8 = 48 + UInt8.ofNat (v.toNat % 10) := by
  congr 1

/-- The digits that the loops take off, if there is room for all of them. -/
theorem digitsRev_eq {v : UInt32} {room : Nat} (h : v.toNat < 10 ^ room) :
    digitsRev v room = (Nat.digits 10 v.toNat).map fun d => 48 + UInt8.ofNat d := by
  induction room generalizing v with
  | zero =>
    have h0 : v.toNat = 0 := by simpa using h
    rw [h0]
    rfl
  | succ room ih =>
    rw [digitsRev]
    by_cases hv : v = 0
    · rw [if_pos hv, hv]
      rfl
    · have hpos : 0 < v.toNat := Nat.pos_of_ne_zero fun h0 => hv (UInt32.toNat_inj.mp h0)
      have hdiv : (v / 10).toNat = v.toNat / 10 := UInt32.toNat_div v 10
      rw [if_neg hv, Nat.digits_def' (by decide) hpos, List.map_cons, ih (by rw [hdiv]; omega), hdiv, digit_eq]

/-- Ten digits are enough for 32 bits. -/
theorem digitsRev_full (v : UInt32) {room : Nat} (h : 10 ≤ room) :
    digitsRev v room = (Nat.digits 10 v.toNat).map fun d => 48 + UInt8.ofNat d := by
  have hroom : 10 ^ 10 ≤ 10 ^ room := Nat.pow_le_pow_right (by decide) h
  have hv := v.toNat_lt
  exact digitsRev_eq (by omega)

theorem decimal_zero : decimal (0 : UInt32).toNat = [48] := rfl

theorem decimal_of_ne {v : UInt32} (hv : v ≠ 0) {room : Nat} (h : 10 ≤ room) :
    decimal v.toNat = (digitsRev v room).reverse := by
  have h0 : v.toNat ≠ 0 := fun h0 => hv (UInt32.toNat_inj.mp h0)
  rw [decimal, if_neg h0, digitsRev_full v h]

/-- A digit is no terminator. -/
theorem zero_not_mem_decimal (n : Nat) : 0 ∉ decimal n := by
  intro hmem
  rw [decimal] at hmem
  split at hmem
  · simp at hmem
  · obtain ⟨d, hd, hzero⟩ := List.mem_map.mp (List.mem_reverse.mp hmem)
    have hlt : d < 10 := Nat.digits_lt_base (by decide) hd
    have hnat := congrArg UInt8.toNat hzero
    rw [UInt8.toNat_add, UInt8.toNat_ofNat'] at hnat
    change (48 + d % 256) % 256 = 0 at hnat
    omega

theorem digitsRev_length_le (v : UInt32) (room : Nat) : (digitsRev v room).length ≤ room := by
  induction room generalizing v with
  | zero => exact Nat.le_refl 0
  | succ room ih =>
    rw [digitsRev]
    split
    · exact Nat.zero_le _
    · exact Nat.succ_le_succ (ih _)

theorem decimal_length_le (v : UInt32) : (decimal v.toNat).length ≤ 10 := by
  by_cases hv : v = 0
  · rw [hv]
    decide
  · rw [decimal_of_ne hv (Nat.le_refl 10), List.length_reverse]
    exact digitsRev_length_le v 10

/-! ### The desktop -/

/-- A cell is filled. -/
theorem drop_ofFn_update {β : Type} {n : Nat} (a : Fin n → β) (i : Fin n) (c : β) :
    (List.ofFn (Function.update a i c)).drop i = c :: (List.ofFn a).drop (i + 1) := by
  rw [List.drop_eq_getElem_cons (by simp), List.getElem_ofFn]
  congr 1
  · exact Function.update_self i c a
  · apply List.ext_getElem
    · simp
    · intro j hj _
      rw [List.getElem_drop, List.getElem_drop, List.getElem_ofFn, List.getElem_ofFn]
      refine Function.update_of_ne ?_ c a
      intro h
      have := congrArg Fin.val h
      dsimp only at this
      omega

/-- The digits stand before what was behind the start. -/
theorem u2sFrom_eq (v : UInt32) (buf : Fin 16 → UInt8) (i : Nat) (h : i ≤ 16) :
    (List.ofFn (u2sFrom v buf i h).2).drop (u2sFrom v buf i h).1 =
      (digitsRev v i).reverse ++ (List.ofFn buf).drop i := by
  induction i generalizing v buf with
  | zero => rfl
  | succ i ih =>
    rw [u2sFrom, digitsRev]
    by_cases hv : v = 0
    · rw [if_pos hv, if_pos hv]
      rfl
    · have hfill := drop_ofFn_update buf ⟨i, h⟩ (48 + (v % 10).toUInt8)
      rw [if_neg hv, if_neg hv, ih, hfill, List.reverse_cons, List.append_assoc]
      rfl

/-- The cells behind the digits. -/
theorem drop_terminated (buf : Fin 16 → UInt8) : (List.ofFn (Function.update buf 15 0)).drop 15 = [0] ∧
    (List.ofFn (Function.update buf 15 0)).drop 14 = [buf 14, 0] := by
  have hend : (List.ofFn (Function.update buf 15 0)).drop 15 = [0] := by
    have h := drop_ofFn_update buf 15 0
    have hnone : (List.ofFn buf).drop 16 = [] := List.drop_eq_nil_of_le (by simp)
    rwa [show ((15 : Fin 16) : Nat) = 15 from rfl, hnone] at h
  refine ⟨hend, ?_⟩
  rw [List.drop_eq_getElem_cons (by simp), hend, List.getElem_ofFn]
  have h14 : (14 : Fin 16) ≠ 15 := by decide
  exact congrArg (· :: [0]) (Function.update_of_ne h14 0 buf)

/-- **What `u2s` returns**: between the digits and the terminator is a cell that it does not set. -/
theorem u2sString_chars (v : UInt32) (buf : Fin 16 → UInt8) :
    (u2sString v buf).chars = decimal v.toNat ++ if v = 0 ∨ buf 14 = 0 then [] else [buf 14] := by
  obtain ⟨hend, hrest⟩ := drop_terminated buf
  have hdigits : ∀ c ∈ decimal v.toNat, decide (c ≠ 0) = true :=
    fun c hc => decide_eq_true (ne_of_mem_of_not_mem hc (zero_not_mem_decimal _))
  unfold u2sString u2s CStr.ofChars
  dsimp only
  by_cases hv : v = 0
  · have hfill := drop_ofFn_update (Function.update buf 15 0) 14 48
    rw [if_pos hv, if_pos (.inl hv)]
    dsimp only
    rw [show ((14 : Fin 16) : Nat) = 14 from rfl, hend] at hfill
    rw [hfill, hv, decimal_zero]
    rfl
  · rw [if_neg hv, u2sFrom_eq, hrest, ← decimal_of_ne hv (by decide), List.takeWhile_append_of_pos hdigits]
    by_cases h14 : buf 14 = 0 <;> simp [hv, h14]

/-! ### The installer -/

/-- The digits are copied to `p` and on, if they fit. -/
theorem u32ToStrFrom_eq {n : Nat} (buf : Fin n → UInt8) (p : Fin n) (tmp : List UInt8) (h : p + tmp.length < n) :
    (u32ToStrFrom buf p tmp).1.val = p + tmp.length ∧
      (∀ (i : Fin n) j (hj : j < tmp.length), i.val = p + j → (u32ToStrFrom buf p tmp).2 i = tmp[j]) ∧
      ∀ i : Fin n, i < p → (u32ToStrFrom buf p tmp).2 i = buf i := by
  induction tmp generalizing buf p with
  | nil => exact ⟨rfl, fun i j hj => absurd hj (Nat.not_lt_zero j), fun _ _ => rfl⟩
  | cons c tmp ih =>
    rw [List.length_cons] at h
    have hp : p.val + 1 < n := by omega
    rw [u32ToStrFrom, dif_pos hp]
    obtain ⟨hend, hcopied, hkept⟩ := ih (Function.update buf p c) ⟨p + 1, hp⟩ (by show p.val + 1 + _ < n; omega)
    refine ⟨?_, fun i j hj hij => ?_, fun i hi => ?_⟩
    · rw [hend, List.length_cons]
      show p.val + 1 + tmp.length = _
      omega
    · cases j with
      | zero =>
        obtain rfl : i = p := Fin.ext hij
        rw [List.getElem_cons_zero, hkept i (Nat.lt_succ_self i.val)]
        exact Function.update_self i c buf
      | succ j =>
        rw [List.getElem_cons_succ]
        refine hcopied i j (Nat.lt_of_succ_lt_succ hj) ?_
        show i.val = p.val + 1 + j
        omega
    · rw [hkept i (by show i.val < p.val + 1; omega)]
      exact Function.update_of_ne (ne_of_lt hi) c buf

/-- **The installer's buffer holds the decimal representation**, if there is room for any. -/
theorem u32ToStr_eq {n : Nat} (hn : 11 ≤ n) (v : UInt32) (buf : Fin n → UInt8) :
    cstr (u32ToStr (Nat.le_trans (by decide) hn) v buf) = decimal v.toNat := by
  unfold u32ToStr
  dsimp only
  by_cases hv : v = 0
  · have hnone : (digitsRev 0 11).reverse = [] := rfl
    rw [if_pos hv, hv, decimal_zero, hnone]
    refine cstr_update _ _ (by decide) rfl fun i j hj hij => ?_
    obtain rfl : j = 0 := Nat.lt_one_iff.mp hj
    have hi : i = ⟨0, by omega⟩ := Fin.ext hij
    rw [hi, u32ToStrFrom]
    simp
  · have hdigits : decimal v.toNat = (digitsRev v 11).reverse := decimal_of_ne hv (by decide)
    have hlen := decimal_length_le v
    rw [if_neg hv, ← hdigits]
    obtain ⟨hend, hcopied, -⟩ := u32ToStrFrom_eq buf ⟨0, by omega⟩ (decimal v.toNat) (by show 0 + _ < n; omega)
    refine cstr_update _ _ (zero_not_mem_decimal _) ?_ fun i j hj hij => ?_
    · rw [hend]
      exact Nat.zero_add _
    · refine hcopied i j hj ?_
      rw [hij]
      exact (Nat.zero_add j).symm

/-! ### All three -/

theorem shellPrintUint_eq (v : UInt32) : shellPrintUint v = vgaWriteString (decimal v.toNat) := by
  rw [shellPrintUint]
  by_cases hv : v = 0
  · rw [if_pos hv, hv]
    rfl
  · have hdigits : decimal v.toNat = (digitsRev v 11).reverse := decimal_of_ne hv (by decide)
    rw [if_neg hv, hdigits]

/-- **A number is printed in decimal**: by the installer and the shell always, and by the desktop exactly
if it is zero or the cell before the terminator of the caller's array is. -/
theorem printed_decimal_iff (v : UInt32) (buf : Fin 16 → UInt8) {n : Nat} (hn : 11 ≤ n) (buf' : Fin n → UInt8) :
    ((u2sString v buf).chars = decimal v.toNat ∧
      cstr (u32ToStr (Nat.le_trans (by decide) hn) v buf') = decimal v.toNat ∧
      shellPrintUint v = vgaWriteString (decimal v.toNat)) ↔ v = 0 ∨ buf 14 = 0 := by
  rw [u2sString_chars, u32ToStr_eq hn, shellPrintUint_eq]
  by_cases h : v = 0 ∨ buf 14 = 0 <;> simp [h]

theorem printed_decimal_iff_42 :
    ((u2sString 42 (fun _ => 0)).chars = decimal (42 : UInt32).toNat ∧
      cstr (u32ToStr (n := 16) (by decide) 42 (fun _ => 88)) = decimal (42 : UInt32).toNat ∧
      shellPrintUint 42 = vgaWriteString (decimal (42 : UInt32).toNat)) ↔
      (42 : UInt32) = 0 ∨ (fun _ => 0 : Fin 16 → UInt8) 14 = 0 :=
  printed_decimal_iff 42 (fun _ => 0) (n := 16) (by decide) fun _ => 88

/-- `42` into arrays full of `X`. -/
theorem u2s_garbage : ¬ ((u2sString 42 fun _ => 88).chars = decimal (42 : UInt32).toNat ∧
    cstr (u32ToStr (n := 11) (by decide) 42 fun _ => 88) = decimal (42 : UInt32).toNat ∧
    shellPrintUint 42 = vgaWriteString (decimal (42 : UInt32).toNat)) := by
  intro h
  have h42 := h.1
  rw [u2sString_chars] at h42
  simp at h42

end FurOS
