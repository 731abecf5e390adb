import FurOS.Foundation.Walk
import Mathlib.Data.List.GetD
import Mathlib.Data.List.TakeWhile

/-! Lines, and positions in them.

A list cut at every `sep` has a line more than it has separators; `lineStart` is where a line starts,
and a position up to the end of the list is in the line that as many separators precede
(`locate`), at no other place (`lineStart_unique`). -/
namespace Foundation

section Lines
variable {β : Type}

/-- Where line `n` starts. -/
def lineStart : List (List β) → Nat → Nat
  | [], _ => 0
  | _ :: _, 0 => 0
  | l :: ls, n + 1 => l.length + 1 + lineStart ls n

@[simp] theorem lineStart_zero (ls : List (List β)) : lineStart ls 0 = 0 := by
  cases ls <;> rfl

@[simp] theorem lineStart_succ (l : List β) (ls : List (List β)) (n : Nat) :
    lineStart (l :: ls) (n + 1) = l.length + 1 + lineStart ls n := rfl

/-- A line starts behind the one before it. -/
theorem lineStart_next {ls : List (List β)} {n : Nat} (h : n < ls.length) :
    lineStart ls (n + 1) = lineStart ls n + (ls.getD n []).length + 1 := by
  induction ls generalizing n with
  | nil => exact absurd h (Nat.not_lt_zero n)
  | cons l ls ih =>
    cases n with
    | zero => simp
    | succ n =>
      rw [lineStart_succ, ih (Nat.lt_of_succ_lt_succ h), lineStart_succ, List.getD_cons_succ]
      omega

theorem lineStart_mono (ls : List (List β)) {n m : Nat} (h : n ≤ m) : lineStart ls n ≤ lineStart ls m := by
  induction ls generalizing n m with
  | nil => exact Nat.le_refl 0
  | cons l ls ih =>
    cases n with
    | zero => simp
    | succ n =>
      cases m with
      | zero => exact absurd h (Nat.not_succ_le_zero n)
      | succ m =>
        have hrest := ih (Nat.le_of_succ_le_succ h)
        rw [lineStart_succ, lineStart_succ]
        omega

/-- A position is in one line only. -/
theorem lineStart_unique {ls : List (List β)} {n m c d : Nat} (hn : n < ls.length) (hm : m < ls.length)
    (hc : c ≤ (ls.getD n []).length) (hd : d ≤ (ls.getD m []).length)
    (h : lineStart ls n + c = lineStart ls m + d) : n = m ∧ c = d := by
  have hnext := lineStart_next hn
  have hnext' := lineStart_next hm
  rcases Nat.lt_trichotomy n m with hlt | rfl | hlt
  · have hbefore : lineStart ls (n + 1) ≤ lineStart ls m := lineStart_mono ls hlt
    omega
  · exact ⟨rfl, by omega⟩
  · have hbefore : lineStart ls (m + 1) ≤ lineStart ls n := lineStart_mono ls hlt
    omega

variable (sep : β)

/-- All lines together, with a separator between two of them. -/
theorem lineStart_length {ls : List (List β)} (hne : ls ≠ []) :
    lineStart ls ls.length = ([sep].intercalate ls).length + 1 := by
  induction ls with
  | nil => exact absurd rfl hne
  | cons l ls ih =>
    cases ls with
    | nil => simp [List.intercalate_singleton]
    | cons m ls =>
      rw [List.length_cons, lineStart_succ, ih (List.cons_ne_nil m ls), List.intercalate_cons_cons]
      simp only [List.length_append, List.length_singleton]
      omega

/-- What comes from the start of a line on. -/
theorem drop_lineStart {ls : List (List β)} {n : Nat} (h : n < ls.length) :
    ([sep].intercalate ls).drop (lineStart ls n) = [sep].intercalate (ls.drop n) := by
  induction ls generalizing n with
  | nil => exact absurd h (Nat.not_lt_zero n)
  | cons l ls ih =>
    cases n with
    | zero => simp
    | succ n =>
      have hn : n < ls.length := Nat.lt_of_succ_lt_succ h
      cases ls with
      | nil => exact absurd hn (Nat.not_lt_zero n)
      | cons m ls =>
        have hlen : (l ++ [sep]).length = l.length + 1 := by simp
        rw [lineStart_succ, List.intercalate_cons_cons, ← hlen, List.drop_length_add_append, ih hn,
          List.drop_succ_cons]

theorem getD_drop (ls : List (List β)) (n : Nat) : (ls.drop n).getD 0 [] = ls.getD n [] := by
  rw [List.getD_eq_getElem?_getD, List.getElem?_drop, List.getD_eq_getElem?_getD, Nat.add_zero]

/-- Some of what is passed over anyway. -/
theorem dropWhile_drop (p : β → Bool) (l : List β) (n : Nat) :
    (l.drop ((l.takeWhile p).take n).length).dropWhile p = l.dropWhile p := by
  induction l generalizing n with
  | nil => simp
  | cons c l ih =>
    cases n with
    | zero => simp
    | succ n =>
      cases hc : p c with
      | true => simpa [hc] using ih n
      | false => simp [hc]

variable {sep} [DecidableEq β]

/-- **A position is in the line that as many separators precede.** -/
theorem locate {ls : List (List β)} (hne : ls ≠ []) (hls : ∀ l ∈ ls, sep ∉ l) {p : Nat}
    (hp : p ≤ ([sep].intercalate ls).length) :
    (([sep].intercalate ls).take p).count sep < ls.length ∧
      lineStart ls ((([sep].intercalate ls).take p).count sep) ≤ p ∧
      p ≤ lineStart ls ((([sep].intercalate ls).take p).count sep) +
        (ls.getD ((([sep].intercalate ls).take p).count sep) []).length := by
  induction ls generalizing p with
  | nil => exact absurd rfl hne
  | cons l ls ih =>
    have hl : sep ∉ l := hls l List.mem_cons_self
    have hfront {q : Nat} : (l.take q).count sep = 0 :=
      List.count_eq_zero.mpr fun h => hl (List.mem_of_mem_take h)
    cases ls with
    | nil =>
      rw [List.intercalate_singleton] at hp ⊢
      rw [hfront]
      simpa using hp
    | cons m ls =>
      rw [List.intercalate_cons_cons] at hp ⊢
      by_cases hin : p ≤ l.length
      · have hcount : ((l ++ [sep] ++ [sep].intercalate (m :: ls)).take p).count sep = 0 := by
          rw [List.append_assoc, List.take_append_of_le_length hin, hfront]
        rw [hcount]
        simpa using hin
      · obtain ⟨q, rfl⟩ : ∃ q, p = (l ++ [sep]).length + q := ⟨p - (l.length + 1), by simp; omega⟩
        have hcount : ((l ++ [sep] ++ [sep].intercalate (m :: ls)).take ((l ++ [sep]).length + q)).count sep =
            (([sep].intercalate (m :: ls)).take q).count sep + 1 := by
          rw [List.take_length_add_append, List.count_append, List.count_append, List.count_eq_zero.mpr hl]
          simp
          omega
        have hq : q ≤ ([sep].intercalate (m :: ls)).length := by
          simp only [List.length_append] at hp ⊢
          omega
        obtain ⟨hlt, hfrom, hto⟩ := ih (List.cons_ne_nil m ls)
          (fun l hmem => hls l (List.mem_cons_of_mem _ hmem)) hq
        rw [hcount, lineStart_succ, List.getD_cons_succ]
        simp only [List.length_append, List.length_cons, List.length_nil] at hlt ⊢
        omega

/-- No element of a line is a separator. -/
theorem line_decide_ne {l : List β} (hl : sep ∉ l) : ∀ c ∈ l, decide (c ≠ sep) = true :=
  fun _ hc => decide_eq_true (ne_of_mem_of_not_mem hc hl)

/-- The first line is what comes before the first separator, -/
theorem takeWhile_intercalate {ls : List (List β)} (hls : ∀ l ∈ ls, sep ∉ l) :
    ([sep].intercalate ls).takeWhile (fun c => decide (c ≠ sep)) = ls.getD 0 [] := by
  cases ls with
  | nil => rfl
  | cons l ls =>
    have hl := line_decide_ne (hls l List.mem_cons_self)
    cases ls with
    | nil => rw [List.intercalate_singleton, List.takeWhile_eq_self_iff.mpr hl, List.getD_cons_zero]
    | cons m ls =>
      rw [List.intercalate_cons_cons, List.append_assoc, List.takeWhile_append_of_pos hl]
      simp

/-- and the other lines are what comes after it. -/
theorem dropWhile_intercalate {ls : List (List β)} (hls : ∀ l ∈ ls, sep ∉ l) :
    (([sep].intercalate ls).dropWhile fun c => decide (c ≠ sep)).drop 1 = [sep].intercalate (ls.drop 1) := by
  cases ls with
  | nil => rfl
  | cons l ls =>
    have hl := line_decide_ne (hls l List.mem_cons_self)
    cases ls with
    | nil => rw [List.intercalate_singleton, List.dropWhile_eq_nil_iff.mpr hl]; rfl
    | cons m ls =>
      rw [List.intercalate_cons_cons, List.append_assoc, List.dropWhile_append_of_pos hl]
      simp

/-! ### The lines of a list -/

variable (sep)

/-- The list cut at every separator. -/
def lines (text : List β) : List (List β) := text.splitOn sep

/-- The line that a position is in. -/
def lineOf (text : List β) (p : Nat) : Nat := (text.take p).count sep

theorem lines_ne_nil (text : List β) : lines sep text ≠ [] := List.splitOn_ne_nil sep text

theorem intercalate_lines (text : List β) : [sep].intercalate (lines sep text) = text :=
  List.intercalate_splitOn sep

theorem lineStart_lines_length (text : List β) :
    lineStart (lines sep text) (lines sep text).length = text.length + 1 := by
  rw [lineStart_length sep (lines_ne_nil sep text), intercalate_lines]

variable {sep} {text : List β}

theorem sep_not_mem_line {l : List β} (hl : l ∈ lines sep text) : sep ∉ l := no_sep_of_mem_splitOn sep hl

/-- The number of a line. -/
theorem lineOf_bounds (sep : β) {p : Nat} (hp : p ≤ text.length) : lineOf sep text p < (lines sep text).length ∧
    lineStart (lines sep text) (lineOf sep text p) ≤ p ∧
    p ≤ lineStart (lines sep text) (lineOf sep text p) +
      ((lines sep text).getD (lineOf sep text p) []).length := by
  have hall : [sep].intercalate (lines sep text) = text := intercalate_lines sep text
  have hlocate := locate (lines_ne_nil sep text) (fun l hl => sep_not_mem_line hl) (hall.symm ▸ hp)
  rwa [hall] at hlocate

/-- A line ends inside the list. -/
theorem lineEnd_le {n : Nat} (hn : n < (lines sep text).length) :
    lineStart (lines sep text) n + ((lines sep text).getD n []).length ≤ text.length := by
  have hnext := lineStart_next hn
  have hlast := lineStart_mono (lines sep text) hn
  have hall := lineStart_lines_length sep text
  rw [Nat.succ_eq_add_one] at hlast
  omega

/-- The line of a position given by its line and column. -/
theorem lineOf_eq {n c : Nat} (hn : n < (lines sep text).length) (hc : c ≤ ((lines sep text).getD n []).length) :
    lineOf sep text (lineStart (lines sep text) n + c) = n := by
  have hend := lineEnd_le hn
  have hp : lineStart (lines sep text) n + c ≤ text.length := by omega
  obtain ⟨hlt, hfrom, hto⟩ := lineOf_bounds sep hp
  obtain ⟨k, hk⟩ := Nat.le.dest hfrom
  exact (lineStart_unique hlt hn (by omega) hc hk).1

/-- What comes from the start of a line on are that line and those below it. -/
theorem drop_lines {n : Nat} (hn : n < (lines sep text).length) :
    text.drop (lineStart (lines sep text) n) = [sep].intercalate ((lines sep text).drop n) := by
  have hdrop := drop_lineStart sep hn
  rwa [intercalate_lines] at hdrop

theorem sep_not_mem_drop (n : Nat) : ∀ l ∈ (lines sep text).drop n, sep ∉ l :=
  fun _ hl => sep_not_mem_line (List.mem_of_mem_drop hl)

theorem mem_of_mem_line {n : Nat} {c : β} (h : c ∈ (lines sep text).getD n []) : c ∈ text := by
  by_cases hn : n < (lines sep text).length
  · rw [← getD_drop, ← takeWhile_intercalate (sep_not_mem_drop n), ← drop_lines hn] at h
    exact List.mem_of_mem_drop ((List.takeWhile_sublist _).subset h)
  · rw [List.getD_eq_default _ _ (Nat.le_of_not_lt hn)] at h
    cases h

/-! ### Lines of a longer list -/

theorem lines_intercalate {ls : List (List β)} (hne : ls ≠ []) (hls : ∀ l ∈ ls, sep ∉ l) :
    lines sep ([sep].intercalate ls) = ls :=
  List.splitOn_intercalate sep hls hne

theorem lines_nil : lines sep ([] : List β) = [[]] := rfl

/-- A separator ends the first line, -/
theorem lines_cons_sep (text : List β) : lines sep (sep :: text) = [] :: lines sep text := by
  obtain ⟨l, ls, hlines⟩ := List.exists_cons_of_ne_nil (lines_ne_nil sep text)
  have hjoined : sep :: text = [sep].intercalate ([] :: lines sep text) := by
    rw [hlines, List.intercalate_cons_cons, ← hlines, intercalate_lines]
    rfl
  rw [hjoined]
  refine lines_intercalate (List.cons_ne_nil _ _) fun l hl => ?_
  rcases List.mem_cons.mp hl with rfl | hl
  · exact List.not_mem_nil
  · exact sep_not_mem_line hl

/-- and any other element goes on in front of it. -/
theorem lines_cons {c : β} (hc : c ≠ sep) (text : List β) :
    ∃ l ls, lines sep text = l :: ls ∧ lines sep (c :: text) = (c :: l) :: ls := by
  obtain ⟨l, ls, hlines⟩ := List.exists_cons_of_ne_nil (lines_ne_nil sep text)
  refine ⟨l, ls, hlines, ?_⟩
  have hjoined : c :: text = [sep].intercalate ((c :: l) :: ls) := by
    have htext : [sep].intercalate (l :: ls) = text := by rw [← hlines, intercalate_lines]
    rw [← htext]
    cases ls with
    | nil => rw [List.intercalate_singleton, List.intercalate_singleton]
    | cons m ls => rw [List.intercalate_cons_cons, List.intercalate_cons_cons]; rfl
  have hnot : ∀ m ∈ l :: ls, sep ∉ m := fun m hm => sep_not_mem_line (hlines ▸ hm)
  rw [hjoined]
  refine lines_intercalate (List.cons_ne_nil _ _) fun m hm => ?_
  rcases List.mem_cons.mp hm with rfl | hm
  · intro hmem
    rcases List.mem_cons.mp hmem with rfl | hmem
    · exact hc rfl
    · exact hnot l List.mem_cons_self hmem
  · exact hnot m (List.mem_cons_of_mem _ hm)

/-- The lines of the text from a line on. -/
theorem getD_lines_drop (text : List β) (n r : Nat) :
    (lines sep ([sep].intercalate ((lines sep text).drop n))).getD r [] = (lines sep text).getD (n + r) [] := by
  by_cases hn : n < (lines sep text).length
  · have hne : (lines sep text).drop n ≠ [] := by
      rw [Ne, List.drop_eq_nil_iff]
      omega
    rw [lines_intercalate hne (sep_not_mem_drop n), List.getD_eq_getElem?_getD, List.getElem?_drop,
      List.getD_eq_getElem?_getD]
  · rw [List.drop_eq_nil_of_le (Nat.le_of_not_lt hn), List.getD_eq_default _ _ (show _ ≤ n + r by omega)]
    cases r with
    | zero => rfl
    | succ r => rfl

end Lines

end Foundation
