import FurOS.Foundation.Scan
import FurOS.Shell.System
import Mathlib.Data.List.DropRight

/-! The tokenizer of the shell (`shell_parse`).

The source cuts a line into words in place: it scans with one pointer, stores a terminator
over the blank after each word and gives pointers into the line. `shellParseInPlace` follows
it, on an array of any length; `shellParse`, which the shell's model runs, gives the strings
that the pointers then lead to. -/
namespace FurOS
open Foundation (words words_nil words_dropWhile words_word words_append)
open Foundation.Scan (read store skip Spells)

/-- A character inside a word. -/
def inWord (c : UInt8) : Bool := c ≠ 0 && !isSpace c

/-- A round of `shell_parse` after the blanks: `next` is the loop from behind the word on. -/
def parseWord {n : Nat} (line : Fin n → UInt8) (p : Nat)
    (next : (Fin n → UInt8) → Nat → Option ((Fin n → UInt8) × List Nat)) :
    Option ((Fin n → UInt8) × List Nat) := do
  let c ← read line p
  if c = 0 then return (line, [])
  else
    let q ← skip inWord line p
    let c ← read line q
    if c = 0 then return (line, [p])
    else
      let line ← store line q 0
      let (line, argv) ← next line (q + 1)
      return (line, p :: argv)

/-- The loop of `shell_parse` at `p`, with `argv` still to take so many words: the line it leaves and
the pointers it stores. `none` is an access outside the array. -/
def parseFrom {n : Nat} (line : Fin n → UInt8) (p : Nat) : Nat → Option ((Fin n → UInt8) × List Nat)
  | 0 => do
    let _ ← read line p
    return (line, [])
  | room + 1 => do
    let c ← read line p
    if c = 0 then return (line, [])
    else
      let p ← skip isSpace line p
      parseWord line p fun line q => parseFrom line q room

/-- `argc` is the length of the list. -/
def shellParseInPlace {n : Nat} (line : Fin n → UInt8) (maxArgv : Nat) : Option ((Fin n → UInt8) × List Nat) :=
  parseFrom line 0 maxArgv

/-! ### Words of a line -/

theorem inWord_zero : inWord 0 = false := by decide

theorem isSpace_zero : isSpace 0 = false := by decide

/-- A string without terminator in it is skipped up to its first blank. -/
theorem takeWhile_inWord {s : List UInt8} (h0 : 0 ∉ s) :
    s.takeWhile inWord = s.takeWhile (fun c => !isSpace c) := by
  induction s with
  | nil => rfl
  | cons c rest ih =>
    have hc : c ≠ 0 := fun h => h0 (h ▸ List.mem_cons_self)
    have hsame : inWord c = !isSpace c := by simp [inWord, hc]
    rw [List.takeWhile_cons, List.takeWhile_cons, hsame, ih fun h => h0 (List.mem_cons_of_mem c h)]

/-- The first word of a string that begins with one, and what comes after it. -/
theorem words_first {s : List UInt8} (hs : s.dropWhile isSpace = s) (hne : s ≠ []) :
    ∃ w rest, s = w ++ rest ∧ w = s.takeWhile (fun c => !isSpace c) ∧ w ≠ [] ∧
      (rest = [] ∧ words isSpace s = [w] ∨
        ∃ c tail, rest = c :: tail ∧ isSpace c = true ∧ words isSpace s = w :: words isSpace tail) := by
  have hsplit : s.takeWhile (fun c => !isSpace c) ++ s.dropWhile (fun c => !isSpace c) = s :=
    List.takeWhile_append_dropWhile
  have hword : ∀ c ∈ s.takeWhile (fun c => !isSpace c), isSpace c = false := by
    intro c hc
    simpa using List.mem_takeWhile_imp hc
  have hnonempty : s.takeWhile (fun c => !isSpace c) ≠ [] := by
    cases s with
    | nil => exact absurd rfl hne
    | cons c rest =>
      cases hc : isSpace c with
      | false => simp [hc]
      | true =>
        have hlen := congrArg List.length hs
        rw [List.dropWhile_cons_of_pos hc, List.length_cons] at hlen
        have hle := (List.dropWhile_suffix (l := rest) isSpace).length_le
        omega
  refine ⟨_, _, hsplit.symm, rfl, hnonempty, ?_⟩
  cases hrest : s.dropWhile (fun c => !isSpace c) with
  | nil =>
    rw [hrest, List.append_nil] at hsplit
    refine .inl ⟨rfl, ?_⟩
    have := words_word hword hnonempty
    rwa [hsplit] at this ⊢
  | cons c tail =>
    have hc : isSpace c = true := by
      have := List.head?_dropWhile_not (fun c => !isSpace c) s
      rw [hrest] at this
      simpa using this
    refine .inr ⟨c, tail, rfl, hc, ?_⟩
    have := words_append hword hnonempty hc tail
    rwa [← hrest, hsplit] at this

/-! ### The loop -/

/-- What the loop leaves: pointers to the first words, and blanks cut to terminators inside the line. -/
structure Parsed {n : Nat} (line : Fin n → UInt8) (p : Nat) (s : List UInt8) (room : Nat) (line' : Fin n → UInt8)
    (argv : List Nat) : Prop where
  words : List.Forall₂ (Spells 0 line') argv ((words isSpace s).take room)
  edits : ∀ j : Fin n, line' j ≠ line j → p ≤ j.val ∧ j.val < p + s.length ∧ isSpace (line j) = true

/-- Nothing is left to parse. -/
theorem Parsed.done {n : Nat} (line : Fin n → UInt8) (p : Nat) {s : List UInt8} {room : Nat}
    (h : (Foundation.words isSpace s).take room = []) : Parsed line p s room line [] :=
  ⟨by rw [h]; exact .nil, fun j hj => absurd rfl hj⟩

/-- A round takes the first word, and leaves what comes after its blank to the next. -/
theorem parseWord_spec {n : Nat} {line : Fin n → UInt8} {p : Nat} {s : List UInt8} (h : Spells 0 line p s)
    (hs : s.dropWhile isSpace = s) {room : Nat}
    {next : (Fin n → UInt8) → Nat → Option ((Fin n → UInt8) × List Nat)}
    (hnext : ∀ (line : Fin n → UInt8) q tail, Spells 0 line q tail →
      ∃ line' argv, next line q = some (line', argv) ∧ Parsed line q tail room line' argv) :
    ∃ line' argv, parseWord line p next = some (line', argv) ∧ Parsed line p s (room + 1) line' argv := by
  rw [parseWord, h.read_eq, Option.bind_eq_bind, Option.bind_some]
  by_cases hne : s = []
  · subst hne
    exact ⟨line, [], rfl, .done line p (by simp)⟩
  have hfirst : s.headD 0 ≠ 0 := by
    cases s with
    | nil => exact absurd rfl hne
    | cons c rest => exact h.1
  obtain ⟨w, rest, hsplit, hw, hwne, hrest⟩ := words_first hs hne
  rw [if_neg hfirst, h.skip_eq inWord_zero, takeWhile_inWord h.not_mem, ← hw, Option.bind_eq_bind,
    Option.bind_some]
  have hend : Spells 0 line (p + w.length) rest := by
    rw [hsplit] at h
    exact h.drop
  rw [hend.read_eq, Option.bind_eq_bind, Option.bind_some]
  rcases hrest with ⟨rfl, hwords⟩ | ⟨c, tail, rfl, hc, hwords⟩
  · -- the line ends inside the word
    refine ⟨line, [p], rfl, ?_, fun j hj => absurd rfl hj⟩
    rw [hwords, List.take_succ_cons, List.take_nil]
    rw [List.append_nil] at hsplit
    exact .cons (hsplit ▸ h) .nil
  · have hc0 : c ≠ 0 := hend.1
    rw [hsplit] at h
    obtain ⟨cutLine, hstore, hfront, hback, hother⟩ := h.cut
    obtain ⟨line', argv, hop, hparsed⟩ := hnext cutLine _ tail hback
    refine ⟨line', p :: argv, ?_, ?_, fun j hj => ?_⟩
    · rw [if_neg (by simpa using hc0), hstore, Option.bind_eq_bind, Option.bind_some, hop]
      rfl
    · rw [hwords, List.take_succ_cons]
      refine .cons (hfront.congr fun j _ hhi => ?_) hparsed.words
      by_contra hedit
      have hlo := (hparsed.edits j hedit).1
      omega
    · rw [hsplit, List.length_append, List.length_cons]
      by_cases hq : j.val = p + w.length
      · obtain ⟨hlt, hread⟩ := Foundation.Scan.read_eq_some.mp hend.2.1
        have hj' : j = ⟨p + w.length, hlt⟩ := Fin.ext hq
        refine ⟨by omega, by omega, ?_⟩
        rw [hj', hread, hc]
      · obtain ⟨hlo, hhi, hblank⟩ := hparsed.edits j (by rwa [hother j hq])
        rw [hother j hq] at hblank
        exact ⟨by omega, by omega, hblank⟩

/-- **The loop cuts out the words**, as many as there is room for. -/
theorem parseFrom_spec {n : Nat} (room : Nat) (line : Fin n → UInt8) (p : Nat) (s : List UInt8)
    (h : Spells 0 line p s) :
    ∃ line' argv, parseFrom line p room = some (line', argv) ∧ Parsed line p s room line' argv := by
  induction room generalizing line p s with
  | zero =>
    refine ⟨line, [], ?_, .done line p List.take_zero⟩
    rw [parseFrom, h.read_eq]
    rfl
  | succ room ih =>
    rw [parseFrom, h.read_eq, Option.bind_eq_bind, Option.bind_some]
    by_cases hs : s = []
    · subst hs
      exact ⟨line, [], rfl, .done line p (by simp)⟩
    have hfirst : s.headD 0 ≠ 0 := by
      cases s with
      | nil => exact absurd rfl hs
      | cons c rest => exact h.1
    rw [if_neg hfirst, h.skip_eq isSpace_zero, Option.bind_eq_bind, Option.bind_some]
    have hsplit : s.takeWhile isSpace ++ s.dropWhile isSpace = s := List.takeWhile_append_dropWhile
    have hlen := congrArg List.length hsplit
    rw [List.length_append] at hlen
    have hword : Spells 0 line (p + (s.takeWhile isSpace).length) (s.dropWhile isSpace) := by
      rw [← hsplit] at h
      exact h.drop
    obtain ⟨line', argv, hop, hparsed⟩ := parseWord_spec hword (List.dropWhile_idempotent isSpace s) ih
    refine ⟨line', argv, hop, ?_, fun j hj => ?_⟩
    · have hwords := hparsed.words
      rwa [words_dropWhile] at hwords
    · obtain ⟨hlo, hhi, hblank⟩ := hparsed.edits j hj
      exact ⟨by omega, by omega, hblank⟩

/-! ### The tokenizer -/

/-- **The tokenizer finds the words of the line.** It returns a pointer for each word there is room
for, in order, and the word stands there as a string of its own afterwards; it stays inside the
array, and writes only over blanks of the line. -/
theorem shellParseInPlace_words {n : Nat} (line : Fin n → UInt8) (s : List UInt8) (h : Spells 0 line 0 s)
    (maxArgv : Nat) :
    ∃ (line' : Fin n → UInt8) (argv : List Nat), shellParseInPlace line maxArgv = some (line', argv) ∧
      argv.length = min maxArgv (words isSpace s).length ∧
      (∀ (i p : Nat) w, argv[i]? = some p → (words isSpace s)[i]? = some w → Spells 0 line' p w) ∧
      ∀ j : Fin n, line' j ≠ line j → j.val < s.length ∧ isSpace (line j) = true := by
  obtain ⟨line', argv, hop, hparsed⟩ := parseFrom_spec maxArgv line 0 s h
  have hlength : argv.length = min maxArgv (words isSpace s).length := by
    rw [hparsed.words.length_eq, List.length_take]
  refine ⟨line', argv, hop, hlength, fun i p w hp hw => ?_, fun j hj => ?_⟩
  · obtain ⟨hi, hp⟩ := List.getElem?_eq_some_iff.mp hp
    have hroom : i < maxArgv := by omega
    have hw' : ((words isSpace s).take maxArgv)[i]? = some w := by rw [List.getElem?_take_of_lt hroom, hw]
    obtain ⟨hi', hw'⟩ := List.getElem?_eq_some_iff.mp hw'
    have := hparsed.words.get hi hi'
    rwa [List.get_eq_getElem, List.get_eq_getElem, hp, hw'] at this
  · obtain ⟨_, hhi, hblank⟩ := hparsed.edits j hj
    exact ⟨by omega, hblank⟩

/-- `" cat\t/etc "` in an array of 12. -/
def catLine : Fin 12 → UInt8 := ![32, 99, 97, 116, 9, 47, 101, 116, 99, 32, 0, 7]

theorem shellParseInPlace_words_cat :
    ∃ (line' : Fin 12 → UInt8) (argv : List Nat), shellParseInPlace catLine 16 = some (line', argv) ∧
      argv.length = 2 := by
  obtain ⟨line', argv, hop, hlength, _⟩ := shellParseInPlace_words catLine (lit " cat\t/etc ") (by decide) 16
  exact ⟨line', argv, hop, hlength⟩

/-- The words that the shell goes on with. -/
theorem shellParse_chars (line : CStr) (room : Nat) :
    (shellParse line room).map CStr.chars = (words isSpace line.chars).take room := by
  induction room generalizing line with
  | zero => rfl
  | succ room ih =>
    have hchars : (line.dropWhile isSpace).chars = line.chars.dropWhile isSpace := rfl
    rw [shellParse, ← words_dropWhile, hchars]
    by_cases hs : line.chars.dropWhile isSpace = []
    · rw [if_pos hs, hs]
      rfl
    rw [if_neg hs, List.map_cons, ih, CStr.drop_chars, hchars]
    obtain ⟨w, rest, hsplit, hw, _, hrest⟩ := words_first (List.dropWhile_idempotent isSpace line.chars) hs
    have hword : ((line.dropWhile isSpace).takeWhile fun c => !isSpace c).chars = w := hw.symm
    rw [hword]
    rcases hrest with ⟨rfl, hwords⟩ | ⟨c, tail, rfl, _, hwords⟩
    · rw [hwords, hsplit, List.append_nil, List.drop_of_length_le (Nat.le_succ _)]
      simp
    · have hrest : (w ++ c :: tail).drop (w.length + 1) = tail := by simp [List.drop_append]
      rw [hwords, hsplit, hrest, List.take_succ_cons]

end FurOS
