import FurOS.Foundation.Cells
import FurOS.Foundation.Scan
import FurOS.Fs.Bounds
import FurOS.Installer.Install

/-! The arrays that `stage_install` puts its files together in (`kernel/installer.c`).

`Installer.Install` has the texts as lists. Here they are what the code has, arrays of a fixed size
with anything at all in them at first, and every access is checked. The append loops stay
inside of them and leave the texts (`copyCharsUpTo_spec`). The array `hn`, a first attempt at the hostname that
nothing reads, does not: its terminator is overwritten, and what is searched for the
next one is what was there before (`hostnameArray_cases`). -/
namespace FurOS.Installer
open Foundation (Cells.Holds Cells.read Cells.write Returns Scan.skip)

/-- What an access of the arrays must not run into. -/
inductive LocalFault where
  | fs (f : Fault)
  /-- An access outside of an array, at this index. -/
  | array (i : Int)

/-- A call of the filesystem; one that reads more of an array than there is runs out of the array. -/
def orLocalFault {α : Type} : Except Fault α → Except LocalFault α
  | .error (.source size) => .error (.array size)
  | .error f => .error (.fs f)
  | .ok a => .ok a

/-- The local arrays of `stage_install`. -/
structure Locals where
  passwdLine : Fin 128 → UInt8
  groupLine : Fin 128 → UInt8
  homePath : Fin 48 → UInt8
  hn : Fin 34 → UInt8
  hn2 : Fin 34 → UInt8
  tz : Fin 34 → UInt8

section Arrays
variable {n : Nat}

def store (a : Fin n → UInt8) (i : Int) (c : UInt8) : Except LocalFault (Fin n → UInt8) :=
  match Cells.write a i c with
  | none => .error (.array i)
  | some a => .ok a

/-- `slen` of an array. -/
def slen (a : Fin n → UInt8) : Except LocalFault Int :=
  match Scan.skip (fun c => c ≠ 0) a 0 with
  | none => .error (.array n)
  | some k => .ok k

/-- `while (src[j] && p < limit) { a[p++] = src[j++]; }`. -/
def copyCharsUpTo (limit : Nat) (a : Fin n → UInt8) (p : Int) : List UInt8 → Except LocalFault ((Fin n → UInt8) × Int)
  | [] => .ok (a, p)
  | c :: src =>
    if p < limit then do
      let a ← store a p c
      copyCharsUpTo limit a (p + 1) src
    else .ok (a, p)

/-- `while (src[j]) { a[p++] = src[j++]; }`. -/
def copyChars (a : Fin n → UInt8) (p : Int) : List UInt8 → Except LocalFault ((Fin n → UInt8) × Int)
  | [] => .ok (a, p)
  | c :: src => do
    let a ← store a p c
    copyChars a (p + 1) src

/-- The string in an array, as it is read by a function that it is passed to. -/
def readString (a : Fin n → UInt8) : Except LocalFault CStr := do
  let _ ← slen a
  return .ofChars (List.ofFn a)

/-- `fs_write_file` of the first `p` characters of an array. -/
def writeArray (t : Nodes) (path : String) (a : Fin n → UInt8) (p : Int) : Except LocalFault Nodes := do
  let (_, t) ← orLocalFault (fsWriteFile t fsGetRoot (.ofLit path) (some (List.ofFn a)) p.toNat)
  return t

/-! ### The texts -/

/-- A string and a line end, with the terminator. -/
def lineArray (a : Fin n → UInt8) (s : CStr) : Except LocalFault ((Fin n → UInt8) × Int) := do
  let (a, p) ← copyChars a 0 s.chars
  let a ← store a p 10
  let a ← store a (p + 1) 0
  return (a, p + 1)

/-- What is done to `hn`. -/
def hostnameArray (hn : Fin n → UInt8) (hostname : CStr) : Except LocalFault (Fin n → UInt8) := do
  let (hn, _) ← copyChars hn 0 (hostname.chars ++ [0])
  let k ← slen hn
  let hn ← store hn k 10
  let k ← slen hn
  store hn (k + 1) 0

def passwdArray (a : Fin n → UInt8) (username : CStr) : Except LocalFault ((Fin n → UInt8) × Int) := do
  let (a, p) ← copyChars a 0 (lit "root:x:0:0:root:/root:/bin/sh\n")
  let (a, p) ← copyCharsUpTo 120 a p username.chars
  let (a, p) ← copyCharsUpTo 120 a p (lit ":x:1000:1000::/home/")
  let (a, p) ← copyCharsUpTo 120 a p username.chars
  let (a, p) ← copyCharsUpTo 120 a p (lit ":/bin/sh\n")
  let a ← store a p 0
  return (a, p)

def groupArray (a : Fin n → UInt8) (username : CStr) : Except LocalFault ((Fin n → UInt8) × Int) := do
  let (a, p) ← copyCharsUpTo 120 a 0 (lit "root:x:0:\nsudo:x:27:")
  let (a, p) ← copyCharsUpTo 120 a p username.chars
  let a ← store a p 10
  let (a, p) ← copyCharsUpTo 120 a (p + 1) username.chars
  let (a, p) ← copyCharsUpTo 120 a p (lit ":x:1000:\n")
  let a ← store a p 0
  return (a, p)

end Arrays

/-! ### The steps -/

/-- Step 2, and the array for the path. -/
def installDirsAt (username : CStr) (homePath : Fin 48 → UInt8) (t : Nodes) : Except LocalFault Nodes := do
  let t ← orLocalFault (makeDirs t rootDirs)
  let home ← orLocalFault (fsResolve t fsGetRoot (.ofLit "home"))
  let (homePath, _) ← copyChars homePath 0 (username.chars ++ [0])
  if home ≥ 0 then do
    let path ← readString homePath
    orLocalFault (makeDir t home path 1000 0o755)
  else return t

/-- Step 3, and its arrays. -/
def installConfigAt (hostname timezone username : CStr) (locals : Locals) (t : Nodes) : Except LocalFault Nodes := do
  let _ ← hostnameArray locals.hn hostname
  let (hn2, p) ← lineArray locals.hn2 hostname
  let t ← writeArray t "etc/hostname" hn2 p
  let (tz, p) ← lineArray locals.tz timezone
  let t ← writeArray t "etc/timezone" tz p
  let t ← orLocalFault (writeText t fsGetRoot "etc/os-release" (lit osr))
  let (passwdLine, p) ← passwdArray locals.passwdLine username
  let t ← writeArray t "etc/passwd" passwdLine p
  let (groupLine, p) ← groupArray locals.groupLine username
  let t ← writeArray t "etc/group" groupLine p
  let t ← orLocalFault (writeText t fsGetRoot "etc/motd" motd)
  orLocalFault (bashrcOf username t)

/-- Steps 2 and 3 with what the local arrays hold at first. -/
def installTreeAt (hostname timezone username : CStr) (locals : Locals) (t : Nodes) : Except LocalFault Nodes := do
  let t ← installDirsAt username locals.homePath t
  installConfigAt hostname timezone username locals t

/-! ### What the loops leave -/

section Filled
variable {n : Nat} {a₀ : Fin n → UInt8} {l : List UInt8} {x : (Fin n → UInt8) × Int}

/-- The array begins with the text and is at its end, and behind it is what it was. -/
structure Filled (a₀ : Fin n → UInt8) (l : List UInt8) (x : (Fin n → UInt8) × Int) : Prop where
  pos : x.2 = l.length
  holds : Cells.Holds x.1 l
  behind : ∀ j : Int, l.length ≤ j → Cells.read x.1 j = Cells.read a₀ j

theorem Filled.start (a₀ : Fin n → UInt8) : Filled a₀ [] (a₀, 0) :=
  ⟨rfl, ⟨Nat.zero_le n, fun i hi => absurd hi (Nat.not_lt_zero i)⟩, fun _ _ => rfl⟩

theorem Filled.store (h : Filled a₀ l x) (hlt : l.length < n) (c : UInt8) :
    Returns (store x.1 x.2 c) fun a => Filled a₀ (l ++ [c]) (a, x.2 + 1) := by
  obtain ⟨hpos, hholds, hbehind⟩ := h
  obtain ⟨a, hwrite, hpush, hother⟩ := hholds.push hlt c
  refine ⟨a, ?_, ?_, hpush, fun j hj => ?_⟩
  · rw [Installer.store, hpos, hwrite]
  · rw [List.length_append, List.length_singleton, hpos]
    rfl
  · rw [List.length_append, List.length_singleton] at hj
    rw [hother j (by omega), hbehind j (by omega)]

/-- **The append loops** put as much of a string behind a text as there is room below their limit. -/
theorem copyCharsUpTo_spec (limit : Nat) (h : Filled a₀ l x) (src : List UInt8)
    (hfit : (l ++ src.take (limit - l.length)).length ≤ n) :
    Returns (copyCharsUpTo limit x.1 x.2 src) (Filled a₀ (l ++ src.take (limit - l.length))) := by
  induction src generalizing l x with
  | nil =>
    rw [List.take_nil, List.append_nil]
    exact .ok h
  | cons c src ih =>
    have hpos := h.pos
    rw [copyCharsUpTo]
    by_cases hlt : l.length < limit
    · obtain ⟨k, hk⟩ : ∃ k, limit - l.length = k + 1 := ⟨limit - l.length - 1, by omega⟩
      have hrest : limit - (l ++ [c]).length = k := by
        rw [List.length_append, List.length_singleton]
        omega
      rw [hk, List.take_succ_cons] at hfit ⊢
      rw [List.append_cons] at hfit ⊢
      have hroom : l.length < n := by
        simp only [List.length_append, List.length_singleton] at hfit
        omega
      rw [if_pos (by omega)]
      refine (h.store hroom c).bind fun a ha => ?_
      have hnext := ih ha (by rwa [hrest])
      rwa [hrest] at hnext
    · have hfull : limit - l.length = 0 := by omega
      rw [if_neg (by omega), hfull, List.take_zero, List.append_nil]
      exact .ok h

/-- A limit that is not reached is none. -/
theorem copyChars_eq (limit : Nat) (a : Fin n → UInt8) {p : Int} {src : List UInt8} (h : p + src.length ≤ limit) :
    copyChars a p src = copyCharsUpTo limit a p src := by
  induction src generalizing a p with
  | nil => rfl
  | cons c src ih =>
    rw [List.length_cons] at h
    rw [copyChars, copyCharsUpTo, if_pos (by omega)]
    exact congrArg _ (funext fun a => ih a (by omega))

theorem copyChars_spec (h : Filled a₀ l x) (src : List UInt8) (hfit : (l ++ src).length ≤ n) :
    Returns (copyChars x.1 x.2 src) (Filled a₀ (l ++ src)) := by
  have hpos := h.pos
  have hall : src.take (l.length + src.length - l.length) = src := List.take_of_length_le (by omega)
  rw [copyChars_eq (l.length + src.length) x.1 (by omega)]
  have hspec := copyCharsUpTo_spec (l.length + src.length) h src
  rw [hall] at hspec
  exact hspec hfit

/-- A string and a line end. -/
theorem lineArray_spec (a : Fin n → UInt8) (s : CStr) (hfit : s.chars.length + 2 ≤ n) :
    Returns (lineArray a s) fun x => x.2 = (s.chars ++ [10]).length ∧ Cells.Holds x.1 (s.chars ++ [10]) := by
  refine (copyChars_spec (.start a) s.chars (by simp; omega)).bind fun x hx => ?_
  refine (hx.store (by simp; omega) 10).bind fun a₁ h₁ => ?_
  refine (h₁.store (by simp; omega) 0).bind fun a₂ h₂ => ?_
  exact .ok ⟨h₁.pos, h₂.holds.of_append⟩

theorem passwdArray_spec (a : Fin 128 → UInt8) (username : CStr) : Returns (passwdArray a username) fun x =>
    x.2 = (passwdLineOf username.chars).length ∧ Cells.Holds x.1 (passwdLineOf username.chars) := by
  have hhead : (lit "root:x:0:0:root:/root:/bin/sh\n").length ≤ 120 := by decide
  have happend {line : List UInt8} (h : line.length ≤ 120) (src : List UInt8) :
      (appendUpTo line src).length ≤ 120 := appendUpTo_le h (Nat.le_refl 120) src
  have h₁ := happend hhead username.chars
  have h₂ := happend h₁ (lit ":x:1000:1000::/home/")
  have h₃ := happend h₂ username.chars
  have h₄ := happend h₃ (lit ":/bin/sh\n")
  refine (copyChars_spec (.start a) _ (by rw [List.nil_append]; omega)).bind fun x₀ hx₀ => ?_
  refine (copyCharsUpTo_spec 120 hx₀ _ (h₁.trans (by decide))).bind fun x₁ hx₁ => ?_
  refine (copyCharsUpTo_spec 120 hx₁ _ (h₂.trans (by decide))).bind fun x₂ hx₂ => ?_
  refine (copyCharsUpTo_spec 120 hx₂ _ (h₃.trans (by decide))).bind fun x₃ hx₃ => ?_
  refine (copyCharsUpTo_spec 120 hx₃ _ (h₄.trans (by decide))).bind fun x₄ hx₄ => ?_
  refine (hx₄.store (Nat.lt_of_le_of_lt h₄ (by decide)) 0).bind fun a₅ h₅ => ?_
  exact .ok ⟨hx₄.pos, h₅.holds.of_append⟩

theorem groupArray_spec (a : Fin 128 → UInt8) (username : CStr) : Returns (groupArray a username) fun x =>
    x.2 = (groupLineOf username.chars).length ∧ Cells.Holds x.1 (groupLineOf username.chars) := by
  have happend {line : List UInt8} (h : line.length ≤ 121) (src : List UInt8) :
      (appendUpTo line src).length ≤ 121 := appendUpTo_le h (by decide) src
  have h₀ : (appendUpTo [] (lit "root:x:0:\nsudo:x:27:")).length ≤ 120 := by decide
  have h₁ : (appendUpTo _ username.chars).length ≤ 120 := appendUpTo_le h₀ (Nat.le_refl 120) username.chars
  have h₂ : (appendUpTo (appendUpTo [] (lit "root:x:0:\nsudo:x:27:")) username.chars ++ [10]).length ≤ 121 := by
    rw [List.length_append, List.length_singleton]
    omega
  have h₃ := happend h₂ username.chars
  have h₄ := happend h₃ (lit ":x:1000:\n")
  refine (copyCharsUpTo_spec 120 (.start a) _ (h₀.trans (by decide))).bind fun x₀ hx₀ => ?_
  refine (copyCharsUpTo_spec 120 hx₀ _ (h₁.trans (by decide))).bind fun x₁ hx₁ => ?_
  refine (hx₁.store (Nat.lt_of_le_of_lt h₁ (by decide)) 10).bind fun a₂ hx₂ => ?_
  refine (copyCharsUpTo_spec 120 hx₂ _ (h₃.trans (by decide))).bind fun x₃ hx₃ => ?_
  refine (copyCharsUpTo_spec 120 hx₃ _ (h₄.trans (by decide))).bind fun x₄ hx₄ => ?_
  refine (hx₄.store (Nat.lt_of_le_of_lt h₄ (by decide)) 0).bind fun a₅ h₅ => ?_
  exact .ok ⟨hx₄.pos, h₅.holds.of_append⟩

end Filled

/-! ### The first attempt at the hostname -/

section Hostname
variable {n : Nat} {a : Fin n → UInt8}

theorem read_natCast (a : Fin n → UInt8) {m : Nat} (h : m < n) : Cells.read a m = some (a ⟨m, h⟩) := dif_pos (by omega)

/-- The length of a string is where its terminator is. -/
theorem slen_of_read {m : Nat} (hend : Cells.read a m = some 0)
    (hfront : ∀ j : Nat, j < m → Cells.read a j ≠ some 0) : slen a = .ok m := by
  have hm : m < n := by
    by_contra hge
    rw [Cells.read, dif_neg (by omega)] at hend
    cases hend
  rw [read_natCast a hm] at hend
  have hskip : Scan.skip (fun c => decide (c ≠ 0)) a 0 = some m := by
    refine Foundation.Scan.skip_eq_some.mpr ⟨⟨Nat.zero_le m, hm, by simp [Option.some.inj hend]⟩, fun j hj _ hlt => ?_⟩
    have hne := hfront j hlt
    rw [read_natCast a hj] at hne
    simpa using hne
  rw [slen, hskip]

/-- The length of a string that was copied. -/
theorem slen_of_holds {s : CStr} (h : Cells.Holds a (s.chars ++ [0])) : slen a = .ok s.chars.length := by
  refine slen_of_read ?_ fun j hj => ?_
  · rw [h.read _ (by simp), List.getElem?_append_right (Nat.le_refl _), Nat.sub_self]
    rfl
  · rw [h.read j (by simp; omega), List.getElem?_append_left hj]
    exact fun hend => s.noNul (List.mem_of_getElem? hend)

/-- Without one the search leaves the array. -/
theorem slen_outside (h : ∀ j : Nat, j < n → Cells.read a j ≠ some 0) : slen a = .error (.array n) := by
  have hskip : Scan.skip (fun c => decide (c ≠ 0)) a 0 = none := by
    refine Foundation.Scan.skip_eq_none.mpr fun j hj _ => ?_
    have hne := h j hj
    rw [read_natCast a hj] at hne
    simpa using hne
  rw [slen, hskip]

/-- Before the second search the line end is where the terminator was, and behind it is what the array held at
first. -/
theorem hostnameArray_eq (hn : Fin n → UInt8) (hostname : CStr) (hfit : hostname.chars.length + 1 ≤ n) :
    ∃ a, hostnameArray hn hostname = (slen a >>= fun k => store a (k + 1) 0) ∧
      (∀ j : Nat, j ≤ hostname.chars.length → Cells.read a j ≠ some 0) ∧
      ∀ j : Nat, hostname.chars.length < j → Cells.read a j = Cells.read hn j := by
  obtain ⟨⟨a, p⟩, hcopy, hpos, hholds, hbehind⟩ :=
    copyChars_spec (.start hn) (hostname.chars ++ [0]) (by simpa using hfit)
  rw [List.nil_append] at hpos hholds hbehind
  have hfront (j : Nat) (hj : j < hostname.chars.length) : Cells.read a j ≠ some 0 := by
    rw [hholds.read j (by simp; omega), List.getElem?_append_left hj]
    exact fun h => hostname.noNul (List.mem_of_getElem? h)
  obtain ⟨a₁, hwrite, hcells⟩ :=
    Foundation.Cells.write_of_lt (a := a) (i := hostname.chars.length) (by omega) (by omega) 10
  refine ⟨a₁, ?_, fun j hj => ?_, fun j hj => ?_⟩
  · rw [hostnameArray, hcopy, Foundation.ok_bind]
    dsimp only
    rw [slen_of_holds hholds, Foundation.ok_bind, store, hwrite]
    rfl
  · rw [hcells]
    split
    · decide
    · exact hfront j (by omega)
  · rw [hcells, if_neg (by omega)]
    exact hbehind j (by simp; omega)

/-- There is a terminator behind the hostname, and a cell behind it. -/
def Tailed (hn : Fin n → UInt8) (length : Nat) : Prop := ∃ m : Nat, length < m ∧ m + 1 < n ∧ Cells.read hn m = some 0

/-- **`hn` is left where no terminator was behind the hostname.** -/
theorem hostnameArray_cases (hn : Fin n → UInt8) (hostname : CStr) (hfit : hostname.chars.length + 1 ≤ n) :
    (Tailed hn hostname.chars.length → ∃ a, hostnameArray hn hostname = .ok a) ∧
    (¬ Tailed hn hostname.chars.length → hostnameArray hn hostname = .error (.array n)) := by
  obtain ⟨a, heq, hfront, hbehind⟩ := hostnameArray_eq hn hostname hfit
  rw [heq]
  by_cases hzero : ∃ m : Nat, hostname.chars.length < m ∧ Cells.read hn m = some 0
  · -- The second search ends at the first terminator behind the hostname.
    obtain ⟨hlt, hend⟩ := Nat.find_spec hzero
    have hfirst (j : Nat) (hj : j < Nat.find hzero) : Cells.read a j ≠ some 0 := by
      by_cases hle : j ≤ hostname.chars.length
      · exact hfront j hle
      · rw [hbehind j (by omega)]
        exact fun h => Nat.find_min hzero hj ⟨by omega, h⟩
    have hn' : Nat.find hzero < n := by
      by_contra hge
      rw [Cells.read, dif_neg (by omega)] at hend
      cases hend
    rw [slen_of_read ((hbehind _ hlt).trans hend) hfirst, Foundation.ok_bind]
    by_cases hroom : Nat.find hzero + 1 < n
    · obtain ⟨a', hwrite, -⟩ :=
        Foundation.Cells.write_of_lt (a := a) (i := (Nat.find hzero : Int) + 1) (by omega) (by omega) 0
      refine ⟨fun _ => ⟨a', by rw [store, hwrite]⟩, fun hnot => ?_⟩
      exact absurd ⟨_, hlt, hroom, hend⟩ hnot
    · refine ⟨fun htail => ?_, fun _ => ?_⟩
      · obtain ⟨m, hm, hmroom, hmend⟩ := htail
        have hmin := Nat.find_min' hzero ⟨hm, hmend⟩
        omega
      · have hlast : ((Nat.find hzero : Nat) : Int) + 1 = n := by omega
        rw [store, hlast, Cells.write, dif_neg (by omega)]
  · rw [slen_outside fun j hj => ?_]
    · refine ⟨fun htail => ?_, fun _ => rfl⟩
      obtain ⟨m, hm, _, hend⟩ := htail
      exact absurd ⟨m, hm, hend⟩ hzero
    · by_cases hle : j ≤ hostname.chars.length
      · exact hfront j hle
      · rw [hbehind j (by omega)]
        exact fun h => hzero ⟨j, by omega, h⟩

end Hostname

/-! ### The texts again -/

/-- What the pages of the installer take is a case of it. -/
theorem installTree_eq (w : Wiz) (t : Nodes) :
    installTree w t = installTreeOf w.hostname.str w.timezone.str w.username.str t := rfl

@[simp] theorem orLocalFault_ok {α : Type} (a : α) : orLocalFault (.ok a) = .ok a := rfl

theorem orLocalFault_bind {α β : Type} (x : Except Fault α) (f : α → Except Fault β) :
    orLocalFault (x >>= f) = (orLocalFault x >>= fun a => orLocalFault (f a)) := by
  cases x with
  | ok a => rfl
  | error f => cases f <;> rfl

/-- Bytes behind those that are copied do not matter. -/
theorem copyData_take (data : Fin 4096 → UInt8) {src : List UInt8} {size m : Nat} (hle : size ≤ m)
    (hm : m ≤ src.length) : copyData data (some (src.take m)) size = copyData data (some src) size := by
  have hlen : (src.take m).length = m := List.length_take_of_le hm
  unfold copyData
  dsimp only
  rw [if_neg (by omega), if_neg (by omega)]
  refine congrArg Except.ok (funext fun i => ?_)
  by_cases hi : i.val < size
  · rw [dif_pos ⟨hi, by omega⟩, dif_pos ⟨hi, by omega⟩, List.getElem_take]
  · rw [dif_neg fun h => hi h.1, dif_neg fun h => hi h.1]

theorem fsWriteFile_take (t : Nodes) (cwd : Int) (path : CStr) {src : List UInt8} {size : Nat}
    (h : size ≤ src.length) :
    fsWriteFile t cwd path (some (src.take size)) size = fsWriteFile t cwd path (some src) size := by
  have hnode (t : Nodes) (node : Int) :
      writeNode t node (some (src.take size)) size = writeNode t node (some src) size := by
    simp only [writeNode, copyData_take _ (clampSize_le size) h]
  simp only [fsWriteFile, hnode]

/-- What is written from an array is the text in it. -/
theorem writeArray_eq {n : Nat} {a : Fin n → UInt8} {l : List UInt8} (h : Cells.Holds a l) (t : Nodes)
    (path : String) : writeArray t path a l.length = orLocalFault (writeText t fsGetRoot path l) := by
  have hsize : l.length ≤ (List.ofFn a).length := by simpa using h.length_le
  have htake : (List.ofFn a).take l.length = l := h.take_ofFn
  rw [writeArray, writeText, orLocalFault_bind, Int.toNat_natCast, ← fsWriteFile_take _ _ _ hsize, htake]
  rfl

/-- What a function reads that is passed an array. -/
theorem readString_eq {n : Nat} {a : Fin n → UInt8} {s : CStr} (h : Cells.Holds a (s.chars ++ [0])) :
    readString a = .ok s := by
  have hcells : List.ofFn a = s.chars ++ 0 :: (List.ofFn a).drop (s.chars ++ [0]).length := by
    conv_lhs => rw [← List.take_append_drop (s.chars ++ [0]).length (List.ofFn a), h.take_ofFn]
    rw [List.append_assoc]
    rfl
  have hchars : ∀ c ∈ s.chars, decide (c ≠ 0) = true := by
    intro c hc
    rw [decide_eq_true_iff]
    rintro rfl
    exact s.noNul hc
  rw [readString, slen_of_holds h, Foundation.ok_bind]
  refine congrArg Except.ok (CStr.ext ?_)
  show (List.ofFn a).takeWhile (fun c => decide (c ≠ 0)) = s.chars
  rw [hcells, List.takeWhile_append_of_pos hchars, List.takeWhile_cons_of_neg (by decide), List.append_nil]

/-- **Step 2** does what it does with the username itself. -/
theorem installDirsAt_eq (username : CStr) (hfit : username.chars.length + 1 ≤ 48) (homePath : Fin 48 → UInt8)
    (t : Nodes) : installDirsAt username homePath t = orLocalFault (installDirsOf username t) := by
  obtain ⟨⟨a, p⟩, hcopy, -, hholds, -⟩ :=
    copyChars_spec (.start homePath) (username.chars ++ [0]) (by simpa using hfit)
  rw [installDirsAt, installDirsOf, orLocalFault_bind]
  refine congrArg _ (funext fun t₁ => ?_)
  rw [orLocalFault_bind]
  refine congrArg _ (funext fun home => ?_)
  rw [hcopy, Foundation.ok_bind]
  dsimp only
  split
  · rw [readString_eq hholds, Foundation.ok_bind]
  · rfl

/-- **Step 3** does what it does with the texts, where `hn` is not left. -/
theorem installConfigAt_eq (hostname timezone username : CStr) (hhost : hostname.chars.length + 2 ≤ 34)
    (hzone : timezone.chars.length + 2 ≤ 34) (locals : Locals)
    (htail : Tailed locals.hn hostname.chars.length) (t : Nodes) :
    installConfigAt hostname timezone username locals t =
      orLocalFault (writeTexts t (configTextsOf hostname timezone username) >>= bashrcOf username) := by
  obtain ⟨hn, hhn⟩ := (hostnameArray_cases locals.hn hostname (by omega)).1 htail
  obtain ⟨⟨hn2, p⟩, hline, hp, hhn2⟩ := lineArray_spec locals.hn2 hostname hhost
  obtain ⟨⟨tz, q⟩, hzoneline, hq, htz⟩ := lineArray_spec locals.tz timezone hzone
  obtain ⟨⟨pw, r⟩, hpasswd, hr, hpw⟩ := passwdArray_spec locals.passwdLine username
  obtain ⟨⟨gr, s⟩, hgroup, hs, hgr⟩ := groupArray_spec locals.groupLine username
  dsimp only at hp hhn2 hq htz hr hpw hs hgr
  subst hp hq hr hs
  have hpure (t : Nodes) : orLocalFault (pure t) = .ok t := rfl
  simp only [installConfigAt, hhn, hline, hzoneline, hpasswd, hgroup, Foundation.ok_bind, writeArray_eq hhn2,
    writeArray_eq htz, writeArray_eq hpw, writeArray_eq hgr, configTextsOf, writeTexts, orLocalFault_bind, bind_assoc,
    hpure]

/-- **The arrays change nothing**, where `hn` is not left. -/
theorem installTreeAt_eq (hostname timezone username : CStr) (hhost : hostname.chars.length + 2 ≤ 34)
    (hzone : timezone.chars.length + 2 ≤ 34) (huser : username.chars.length + 1 ≤ 48) (locals : Locals)
    (htail : Tailed locals.hn hostname.chars.length) (t : Nodes) :
    installTreeAt hostname timezone username locals t =
      orLocalFault (installTreeOf hostname timezone username t) := by
  rw [installTreeAt, installTreeOf, installDirsAt_eq username huser, orLocalFault_bind]
  exact congrArg _ (funext fun t₁ => installConfigAt_eq hostname timezone username hhost hzone locals htail t₁)

/-- **The pages of the installer** leave what their texts say. -/
theorem installTreeAt_wiz (w : Wiz) (locals : Locals) (htail : Tailed locals.hn w.hostname.chars.length) (t : Nodes) :
    installTreeAt w.hostname.str w.timezone.str w.username.str locals t = orLocalFault (installTree w t) := by
  have hhost : w.hostname.chars.length < 32 := w.hostname.fits
  have hzone : w.timezone.chars.length < 32 := w.timezone.fits
  have huser : w.username.chars.length < 32 := w.username.fits
  rw [installTree_eq]
  refine installTreeAt_eq _ _ _ ?_ ?_ ?_ locals htail t
  · show w.hostname.chars.length + 2 ≤ 34
    omega
  · show w.timezone.chars.length + 2 ≤ 34
    omega
  · show w.username.chars.length + 1 ≤ 48
    omega

/-! ### No other fault -/

section Bounds
variable {t : Nodes} {P : Int → Prop}

/-- One call after another. -/
theorem bounded_bind {x : Except Fault Nodes} {f : Nodes → Except Fault Nodes} (hx : Returns x (KeepsBounds P))
    (hf : ∀ t' P', Bounded t' P' → (∀ i, P i → P' i) → Returns (f t') (KeepsBounds P')) :
    Returns (x >>= f) (KeepsBounds P) := by
  refine hx.bind fun t' ht' => ?_
  obtain ⟨P', hP', hsub⟩ := ht'
  refine (hf t' P' hP' hsub).mono fun t'' ht'' => ?_
  obtain ⟨P'', hP'', hsub'⟩ := ht''
  exact ⟨P'', hP'', fun i hi => hsub' i (hsub i hi)⟩

theorem makeDir_bounded (hP : Bounded t P) {cwd : Int} (hc : P cwd) (path : CStr) (owner mode : UInt16) :
    Returns (makeDir t cwd path owner mode) (KeepsBounds P) :=
  (fsMkdirAs_bounded hP hc path owner mode).bind fun _ hx => .ok hx

theorem writeText_bounded (hP : Bounded t P) {cwd : Int} (hc : P cwd) (path : String) (text : List UInt8) :
    Returns (writeText t cwd path text) (KeepsBounds P) :=
  (fsWriteFile_bounded hP hc (.ofLit path) text).bind fun _ hx => .ok hx

theorem makeDirs_bounded (hP : Bounded t P) (dirs : List (String × UInt16)) :
    Returns (makeDirs t dirs) (KeepsBounds P) := by
  induction dirs generalizing t P with
  | nil => exact .ok (.refl hP)
  | cons x rest ih => exact bounded_bind (makeDir_bounded hP hP.root _ 0 x.2) fun _ _ hP' _ => ih hP'

theorem writeTexts_bounded (hP : Bounded t P) (texts : List (String × List UInt8)) :
    Returns (writeTexts t texts) (KeepsBounds P) := by
  induction texts generalizing t P with
  | nil => exact .ok (.refl hP)
  | cons x rest ih => exact bounded_bind (writeText_bounded hP hP.root x.1 x.2) fun _ _ hP' _ => ih hP'

theorem installDirsOf_bounded (hP : Bounded t P) (username : CStr) :
    Returns (installDirsOf username t) (KeepsBounds P) := by
  refine bounded_bind (makeDirs_bounded hP rootDirs) fun t' P' hP' _ => ?_
  refine (fsResolve_bounded hP' hP'.root _).bind fun home hhome => ?_
  exact .ite (fun hge => makeDir_bounded hP' (hhome hge) _ _ _) fun _ => .ok (.refl hP')

theorem bashrcOf_bounded (hP : Bounded t P) (username : CStr) : Returns (bashrcOf username t) (KeepsBounds P) := by
  refine (fsResolve_bounded hP hP.root _).bind fun home hhome => .ite (fun hge => ?_) fun _ => .ok (.refl hP)
  refine (fsResolve_bounded hP (hhome hge) _).bind fun hn hhn => .ite (fun hge => ?_) fun _ => .ok (.refl hP)
  exact writeText_bounded hP (hhn hge) _ _

theorem installTreeOf_bounded (hP : Bounded t P) (hostname timezone username : CStr) :
    Returns (installTreeOf hostname timezone username t) (KeepsBounds P) :=
  bounded_bind (installDirsOf_bounded hP username) fun _ _ hP' _ =>
    bounded_bind (writeTexts_bounded hP' _) fun _ _ hP'' _ => bashrcOf_bounded hP'' username

end Bounds

/-! ### The bounds of the arrays -/

/-- No access outside of an array. -/
def InBounds {α : Type} (x : Except LocalFault α) : Prop := ∀ i, x ≠ .error (.array i)

/-- Without a terminator behind the hostname the installer leaves `hn`, after the directories. -/
theorem installTreeAt_fault {t : Nodes} (wf : WellFormed t) (hostname timezone username : CStr)
    (hhost : hostname.chars.length + 2 ≤ 34) (huser : username.chars.length + 1 ≤ 48) (locals : Locals)
    (htail : ¬ Tailed locals.hn hostname.chars.length) :
    installTreeAt hostname timezone username locals t = .error (.array 34) := by
  obtain ⟨t₁, hdirs, -⟩ := installDirsOf_bounded wf.bounded username
  rw [installTreeAt, installDirsAt_eq username huser, hdirs, orLocalFault_ok, Foundation.ok_bind, installConfigAt,
    (hostnameArray_cases locals.hn hostname (by omega)).2 htail]
  rfl

theorem tailed_iff (hn : Fin 34 → UInt8) (length : Nat) :
    Tailed hn length ↔ ∃ k : Fin 34, length < k.val ∧ k.val ≤ 32 ∧ hn k = 0 := by
  constructor
  · rintro ⟨m, hlt, hroom, hend⟩
    rw [read_natCast hn (by omega)] at hend
    exact ⟨⟨m, by omega⟩, hlt, by show m ≤ 32; omega, Option.some.inj hend⟩
  · rintro ⟨k, hlt, hle, hzero⟩
    refine ⟨k.val, hlt, by omega, ?_⟩
    rw [read_natCast hn k.isLt]
    exact congrArg some hzero

/-- **The arrays are indexed in bounds exactly where `hn` had a terminator** behind the hostname and before its
last cell. -/
theorem locals_in_bounds_iff (hostname timezone username : CStr)
    (hhost : 1 ≤ hostname.chars.length ∧ hostname.chars.length ≤ 31)
    (hzone : 1 ≤ timezone.chars.length ∧ timezone.chars.length ≤ 31)
    (huser : 2 ≤ username.chars.length ∧ username.chars.length ≤ 31) (locals : Locals) (t : Nodes)
    (wf : WellFormed t) :
    InBounds (installTreeAt hostname timezone username locals t) ↔
      ∃ k : Fin 34, hostname.chars.length < k.val ∧ k.val ≤ 32 ∧ locals.hn k = 0 := by
  rw [← tailed_iff]
  constructor
  · intro hbounds
    by_contra htail
    exact hbounds 34 (installTreeAt_fault wf hostname timezone username (by omega) (by omega) locals htail)
  · intro htail i hfault
    obtain ⟨t', htree, -⟩ := installTreeOf_bounded wf.bounded hostname timezone username
    rw [installTreeAt_eq hostname timezone username (by omega) (by omega) (by omega) locals htail, htree] at hfault
    cases hfault

/-- Arrays with one value in every cell. -/
def Locals.filled (c : UInt8) : Locals :=
  ⟨fun _ => c, fun _ => c, fun _ => c, fun _ => c, fun _ => c, fun _ => c⟩

theorem zeroed_locals_in_bounds :
    InBounds (installTreeAt (.ofLit "furos") (.ofLit "UTC") (.ofLit "debian") (.filled 0) fsInit) :=
  (locals_in_bounds_iff (.ofLit "furos") (.ofLit "UTC") (.ofLit "debian") (by decide) (by decide) (by decide)
    (.filled 0) fsInit wellFormed_fsInit).mpr ⟨⟨6, by decide⟩, by decide, by decide, rfl⟩

/-- Arrays that hold no zero: the installer leaves `hn` for the hostname that it proposes. -/
theorem dirty_locals_leave :
    (CStr.ofLit "furos").chars.length = 5 ∧ (CStr.ofLit "UTC").chars.length = 3 ∧
      (CStr.ofLit "debian").chars.length = 6 ∧
      ¬ InBounds (installTreeAt (.ofLit "furos") (.ofLit "UTC") (.ofLit "debian") (.filled 0xA5) fsInit) := by
  refine ⟨by decide, by decide, by decide, fun hbounds => hbounds 34 ?_⟩
  refine installTreeAt_fault wellFormed_fsInit _ _ _ (by decide) (by decide) _ fun htail => ?_
  obtain ⟨k, _, _, hzero⟩ := (tailed_iff _ _).mp htail
  exact absurd hzero (show ¬ (0xA5 : UInt8) = 0 by decide)

end FurOS.Installer
