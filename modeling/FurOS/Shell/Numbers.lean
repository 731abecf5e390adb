import FurOS.Shell.Commands

/-! The numbers of users (`parse_u32`, `parse_uid`).

`parse_u32` reads a digit string of any length into 32 bits, and `parse_uid` looks at the
range of what it gives. So a number from 2^32 on is taken for what remains of it. -/
namespace FurOS

/-- A non-empty string of decimal digits. -/
def Decimal (s : List UInt8) : Prop := s ≠ [] ∧ ∀ c ∈ s, isDigit c = true

/-- The digits read so far, and one more. -/
def addDigit (value : Nat) (c : UInt8) : Nat := 10 * value + (c.toNat - 48)

/-- The number that a digit string writes. -/
def decimalValue (s : List UInt8) : Nat := s.foldl addDigit 0

/-! ### 32 bits -/

theorem isDigit_toNat {c : UInt8} (h : isDigit c = true) : 48 ≤ c.toNat ∧ c.toNat ≤ 57 := by
  simp only [isDigit, Bool.and_eq_true, decide_eq_true_eq, ge_iff_le, UInt8.le_iff_toNat_le] at h
  exact h

/-- One round of the loop, modulo 2^32. -/
theorem addDigit_toNat {value : UInt32} {n : Nat} (hv : value.toNat = n % 2 ^ 32) {c : UInt8}
    (h : isDigit c = true) : (value * 10 + (c - 48).toUInt32).toNat = addDigit n c % 2 ^ 32 := by
  obtain ⟨hlo, hhi⟩ := isDigit_toNat h
  have hdigit : (c - 48).toNat = c.toNat - 48 := UInt8.toNat_sub_of_le _ _ (UInt8.le_iff_toNat_le.mpr hlo)
  rw [UInt32.toNat_add, UInt32.toNat_mul, UInt8.toNat_toUInt32, hdigit, hv, addDigit]
  show (n % 2 ^ 32 * 10 % 2 ^ 32 + (c.toNat - 48)) % 2 ^ 32 = _
  omega

/-- The loop reads a digit string modulo 2^32, and nothing else. -/
theorem parseU32From_eq {value : UInt32} {n : Nat} (hv : value.toNat = n % 2 ^ 32) (s : List UInt8) (u : UInt32) :
    parseU32From value s = some u ↔ (∀ c ∈ s, isDigit c = true) ∧ u.toNat = s.foldl addDigit n % 2 ^ 32 := by
  induction s generalizing value n with
  | nil =>
    simp only [parseU32From, Option.some.injEq, List.not_mem_nil, false_implies, implies_true, true_and,
      List.foldl_nil, ← hv]
    exact ⟨fun h => by rw [h], fun h => (UInt32.toNat_inj.mp h).symm⟩
  | cons c rest ih =>
    rw [parseU32From, List.forall_mem_cons, List.foldl_cons]
    cases hc : isDigit c with
    | false => simp
    | true => simpa using ih (addDigit_toNat hv hc)

theorem parseU32_eq (s : List UInt8) (u : UInt32) :
    parseU32 s = some u ↔ Decimal s ∧ u.toNat = decimalValue s % 2 ^ 32 := by
  unfold parseU32 Decimal
  by_cases h0 : s = []
  · simp [h0]
  · rw [if_neg h0, parseU32From_eq (n := 0) rfl]
    simp [h0, decimalValue]

/-! ### Users -/

/-- `parse_uid` succeeds on the numbers that an owner can be, and gives them. -/
def ParsedExactly (s : CStr) : Prop :=
  ∀ uid : UInt16, parseUid s = some uid ↔ Decimal s.chars ∧ decimalValue s.chars = uid.toNat

/-- An owner that `chown` changes becomes the number that was typed. -/
def ChownsExactly (s : CStr) : Prop :=
  ∀ (t t' : Nodes) (cwd : Int) (rest : List CStr) (uid : UInt16) (text : Text),
    cmdChown t cwd (s :: rest) uid = .ok (text, t') →
      ∀ i, (t' i).owner ≠ (t i).owner → Decimal s.chars ∧ decimalValue s.chars = (t' i).owner.toNat

/-- A number that 32 bits do not hold, of which an owner remains. -/
def Wraps (s : List UInt8) : Prop :=
  Decimal s ∧ 2 ^ 32 ≤ decimalValue s ∧ decimalValue s % 2 ^ 32 ≤ 65535

/-- What `parse_uid` gives for a number. -/
theorem parseUid_eq {s : CStr} (hs : s.is "root" = false ∧ s.is "debian" = false) (uid : UInt16) :
    parseUid s = some uid ↔ Decimal s.chars ∧ decimalValue s.chars % 2 ^ 32 = uid.toNat := by
  have huid := uid.toNat_lt
  unfold parseUid
  rw [if_neg (by simp [hs.1]), if_neg (by simp [hs.2])]
  cases hp : parseU32 s.chars with
  | none =>
    simp only [reduceCtorEq, false_iff]
    intro hboth
    obtain ⟨hdec, hval⟩ := hboth
    have hsome := (parseU32_eq s.chars (UInt32.ofNat uid.toNat)).mpr ⟨hdec, by
      rw [hval, UInt32.toNat_ofNat_of_lt' (Nat.lt_trans huid (by decide))]⟩
    rw [hp] at hsome
    cases hsome
  | some numeric =>
    obtain ⟨hdec, hval⟩ := (parseU32_eq s.chars numeric).mp hp
    dsimp only
    rw [← hval]
    split
    · rename_i hbig
      have hbig' : 65535 < numeric.toNat := UInt32.lt_iff_toNat_lt.mp hbig
      simp only [reduceCtorEq, false_iff]
      intro hboth
      obtain ⟨_, hsame⟩ := hboth
      omega
    · rename_i hsmall
      have hsmall' : numeric.toNat ≤ 65535 := by
        have : ¬ 65535 < numeric.toNat := fun h => hsmall (UInt32.lt_iff_toNat_lt.mpr h)
        omega
      rw [Option.some.injEq, ← UInt16.toNat_inj, UInt32.toNat_toUInt16]
      constructor
      · intro h
        refine ⟨hdec, ?_⟩
        omega
      · intro hboth
        obtain ⟨_, h⟩ := hboth
        omega

/-- `chown` sets the owner that `parse_uid` gives. -/
theorem cmdChown_owner {t t' : Nodes} {cwd : Int} {user : CStr} {rest : List CStr} {uid : UInt16} {text : Text}
    (h : cmdChown t cwd (user :: rest) uid = .ok (text, t')) {i : NodeId} (hi : (t' i).owner ≠ (t i).owner) :
    parseUid user = some (t' i).owner := by
  unfold cmdChown at h
  split at h
  · rename_i user' path words heq
    cases heq
    split at h
    · cases h
      exact absurd rfl hi
    split at h
    · cases h
      exact absurd rfl hi
    · rename_i owner howner
      obtain ⟨node, _, h⟩ := Foundation.bind_eq_ok.mp h
      split at h
      · cases h
        exact absurd rfl hi
      · cases h
        unfold fsSetOwner at hi ⊢
        cases hn : usedNode t node with
        | none =>
          rw [hn] at hi
          exact absurd rfl hi
        | some n =>
          rw [hn] at hi
          dsimp only at hi ⊢
          by_cases hin : i = n
          · subst hin
            rw [Function.update_self]
            exact howner
          · rw [Function.update_of_ne hin] at hi
            exact absurd rfl hi
  · cases h
    exact absurd rfl hi

theorem ParsedExactly.chowns {s : CStr} (h : ParsedExactly s) : ChownsExactly s :=
  fun _ _ _ _ _ _ hop _ hi => (h _).mp (cmdChown_owner hop hi)

/-- **Which numbers are read as they stand**: all but those that wrap to an owner. -/
theorem parseUid_exact_iff (s : CStr) (hs : s.is "root" = false ∧ s.is "debian" = false) :
    ParsedExactly s ∧ ChownsExactly s ↔ ¬ Wraps s.chars := by
  constructor
  · rintro ⟨hexact, _⟩ ⟨hdec, hbig, hsmall⟩
    have huid : (UInt16.ofNat (decimalValue s.chars % 2 ^ 32)).toNat = decimalValue s.chars % 2 ^ 32 :=
      UInt16.toNat_ofNat_of_lt' (Nat.lt_of_le_of_lt hsmall (by decide))
    have hparsed := (parseUid_eq hs _).mpr ⟨hdec, huid.symm⟩
    obtain ⟨_, hvalue⟩ := (hexact _).mp hparsed
    omega
  · intro hno
    have hexact : ParsedExactly s := by
      intro uid
      have huid := uid.toNat_lt
      rw [parseUid_eq hs]
      refine and_congr_right fun hdec => ?_
      constructor
      · intro h
        by_contra hne
        exact hno ⟨hdec, by omega, by omega⟩
      · intro h
        omega
    exact ⟨hexact, hexact.chowns⟩

theorem parseUid_exact_iff_thousand :
    ParsedExactly (.ofLit "1000") ∧ ChownsExactly (.ofLit "1000") ↔ ¬ Wraps (CStr.ofLit "1000").chars :=
  parseUid_exact_iff (.ofLit "1000") (by decide)

/-- 2^32 is read as `0`: `chown 4294967296` gives a file to root. -/
theorem parseUid_wraps : parseUid (.ofLit "4294967296") = some 0 ∧
    ¬ (ParsedExactly (.ofLit "4294967296") ∧ ChownsExactly (.ofLit "4294967296")) := by
  have hparsed : parseUid (.ofLit "4294967296") = some 0 := by decide
  refine ⟨hparsed, fun h => ?_⟩
  have hvalue := ((h.1 0).mp hparsed).2
  exact absurd hvalue (by decide)

end FurOS
