import FurOS.Screen.Window
import FurOS.Shell.Session

/-! The line that is being typed, on the screen.

`shell_read_line` puts a character on the screen for every one in its buffer and takes one back
for every one it drops. Prompt and line together are too short to reach past the upper end of
the terminal, so the line is on the screen from its start on, however much has scrolled. -/
namespace FurOS
open Foundation (Tape)
open Vga (width entry entryColor Inside Shows scrolls)

/-! ### Text on the screen -/

/-- One request of the shell, carried out. -/
def Out.draw : Out → Vga → Vga
  | .putchar c => Vga.putchar c
  | .backspace => Vga.backspace
  | .clear => Vga.clear
  | .setColor fg bg => Vga.setColor fg bg

/-- By how many rows it scrolls. -/
def Out.scrolls : Out → Vga → Int
  | .putchar c => Vga.scrolls c
  | _ => fun _ => 0

def draw (text : Text) (v : Vga) : Vga := text.foldl (fun v o => o.draw v) v

def scrolledBy : Text → Vga → Int
  | [], _ => 0
  | o :: rest, v => o.scrolls v + scrolledBy rest (o.draw v)

theorem draw_append (a b : Text) (v : Vga) : draw (a ++ b) v = draw b (draw a v) := List.foldl_append ..

theorem scrolledBy_append (a b : Text) (v : Vga) :
    scrolledBy (a ++ b) v = scrolledBy a v + scrolledBy b (draw a v) := by
  induction a generalizing v with
  | nil =>
    show scrolledBy b v = 0 + scrolledBy b v
    omega
  | cons o rest ih =>
    show o.scrolls v + scrolledBy (rest ++ b) (o.draw v) =
      o.scrolls v + scrolledBy rest (o.draw v) + scrolledBy b (draw rest (o.draw v))
    rw [ih]
    omega

/-! ### A line -/

/-- The cells `w` stand on the screen from `o` up to the cursor, `k` rows further up, and the whole
of them is in the viewport. -/
structure LineShown (t b : Int) (color : UInt8) (o : Int) (w : List UInt16) (v : Vga) (k : Int) : Prop where
  colored : v.terminalColor = color
  visible : (t + k) * width ≤ o
  tape : ∃ τ, Shows id (entry 32 color) t b v k τ ∧ τ.Holds o w

namespace LineShown
variable {t b : Int} {color : UInt8} {o : Int} {w : List UInt16} {v : Vga} {k : Int}

theorem inside (h : LineShown t b color o w v k) : Inside t b v := by
  obtain ⟨τ, hshows, _⟩ := h.tape
  exact hshows.toInside

/-- The cursor is behind the last cell. -/
theorem cursor (h : LineShown t b color o w v k) :
    v.terminalRow * width + v.terminalColumn + width * k = o + w.length := by
  obtain ⟨τ, hshows, hholds⟩ := h.tape
  rw [hshows.cursor, hholds.pos]

theorem memory (h : LineShown t b color o w v k) {i : Nat} {c : UInt16} (hc : w[i]? = some c) :
    v.memory (o + i - width * k) = c := by
  obtain ⟨τ, hshows, hholds⟩ := h.tape
  have hcell := hholds.cells i c hc
  obtain ⟨hlt, _⟩ := List.getElem?_eq_some_iff.mp hc
  have hend := hshows.pos_lt
  have hpos := hholds.pos
  have hvisible := h.visible
  have hshown := hshows.area.shown (o + i - width * k) (by unfold width at *; omega) (by unfold width at *; omega)
  have hback : o + i - width * k + width * k = o + i := by omega
  rw [hback, hcell] at hshown
  exact hshown

/-- A character more, where the line is shorter than the viewport. -/
theorem put (h : LineShown t b color o w v k) {c : UInt8} (hc : c ≠ 10 ∧ c ≠ 13)
    (hroom : w.length + 1 ≤ (b - t) * width) :
    LineShown t b color o (w ++ [entry c color]) (v.putchar c) (k + scrolls c v) := by
  obtain ⟨τ, hshows, hholds⟩ := h.tape
  have hput := hshows.putchar (by rw [h.colored]; rfl) hc.2
  rw [Vga.type, if_neg hc.1, h.colored] at hput
  refine ⟨(Vga.putchar_terminalColor c v).trans h.colored, ?_, _, hput, hholds.put _⟩
  -- what scrolls is a line that ends in the last row
  have hcursor := h.cursor
  have hvisible := h.visible
  have hcolumn := h.inside.column
  have hbot := h.inside.bot
  unfold scrolls
  split
  · rename_i hscroll
    have hwrap := (hscroll.1.resolve_left hc.1).2
    have hlast := hscroll.2
    unfold width at *
    omega
  · unfold width at *
    omega

/-- A character less. -/
theorem back (h : LineShown t b color o w v k) (hne : w ≠ []) :
    LineShown t b color o w.dropLast v.backspace k := by
  obtain ⟨τ, hshows, hholds⟩ := h.tape
  have hcursor := h.cursor
  have hvisible := h.visible
  have htop := h.inside.top
  have hlen := List.length_pos_iff.mpr hne
  have hstart : ¬ (v.terminalRow = v.vpTop ∧ v.terminalColumn = 0) := by
    intro hs
    obtain ⟨hrow, hcolumn⟩ := hs
    rw [hrow, hcolumn, htop] at hcursor
    unfold width at *
    omega
  exact ⟨(Vga.backspace_terminalColor v).trans h.colored, hvisible, _,
    hshows.backspace (by rw [h.colored]; rfl) hstart, hholds.back hne _⟩

theorem setColor (h : LineShown t b color o w v k) (fg bg : UInt8) :
    LineShown t b (entryColor fg bg) o w (v.setColor fg bg) k := by
  obtain ⟨τ, hshows, hholds⟩ := h.tape
  obtain ⟨τ', hshows', hpos, hcells⟩ := hshows.setColor fg bg (entry 32 (entryColor fg bg))
  have hend := hshows.pos_lt
  exact ⟨rfl, h.visible, τ', hshows', hholds.congr hpos fun i hi => hcells i (by omega)⟩

/-- Characters one after another. -/
theorem write (h : LineShown t b color o w v k) {s : List UInt8} (hs : ∀ c ∈ s, c ≠ 10 ∧ c ≠ 13)
    (hroom : w.length + s.length ≤ (b - t) * width) :
    LineShown t b color o (w ++ s.map (entry · color)) (draw (vgaWriteString s) v)
      (k + scrolledBy (vgaWriteString s) v) := by
  induction s generalizing w v k with
  | nil =>
    rw [List.map_nil, List.append_nil]
    show LineShown t b color o w v (k + 0)
    rwa [Int.add_zero]
  | cons c rest ih =>
    rw [List.length_cons] at hroom
    have hput := h.put (hs c List.mem_cons_self) (by omega)
    have hrest := ih hput (fun d hd => hs d (List.mem_cons_of_mem c hd)) (by
      rw [List.length_append, List.length_singleton]
      omega)
    rw [List.append_assoc, Int.add_assoc] at hrest
    exact hrest

/-- A new line below leaves the line on the screen. -/
theorem newline (h : LineShown t b color o w v k) (hroom : w.length + width ≤ (b - t) * width) :
    (t + (k + scrolls 10 v)) * width ≤ o ∧
      (v.putchar 10).terminalRow * width + (v.putchar 10).terminalColumn + width * (k + scrolls 10 v) =
        ((o + w.length) / width + 1) * width ∧
      ∀ (i : Nat) c, w[i]? = some c → (v.putchar 10).memory (o + i - width * (k + scrolls 10 v)) = c := by
  obtain ⟨τ, hshows, hholds⟩ := h.tape
  have hnext := hshows.putchar (c := 10) (by rw [h.colored]; rfl) (by decide)
  rw [Vga.type, if_pos rfl] at hnext
  have hcursor := h.cursor
  have hvisible := h.visible
  have hcolumn := h.inside.column
  have hbot := h.inside.bot
  have hvisible' : (t + (k + scrolls 10 v)) * width ≤ o := by
    unfold scrolls
    split
    · rename_i hscroll
      have hlast := hscroll.2
      unfold width at *
      omega
    · unfold width at *
      omega
  refine ⟨hvisible', by rw [hnext.cursor, Tape.nextLine_pos, hholds.pos], fun i c hc => ?_⟩
  obtain ⟨hlt, _⟩ := List.getElem?_eq_some_iff.mp hc
  have hend := hnext.pos_lt
  have hpos := hholds.pos
  have hbelow := Tape.lt_nextLine_pos (τ := τ) Vga.zero_lt_width
  have hshown := hnext.area.shown (o + i - width * (k + scrolls 10 v)) (by unfold width at *; omega)
    (by unfold width at *; omega)
  have hback : o + i - width * (k + scrolls 10 v) + width * (k + scrolls 10 v) = o + i := by omega
  rw [hback, Tape.nextLine_cells, hholds.cells i c hc] at hshown
  exact hshown

end LineShown

/-- A line starts at the cursor. -/
theorem lineShown_start {t b : Int} {v : Vga} (h : Inside t b v) (hcolumn : v.terminalColumn = 0) :
    LineShown t b v.terminalColor (v.terminalRow * width) [] v 0 := by
  have hrow := h.row
  refine ⟨rfl, ?_, _, h.shows id _, .nil ?_⟩
  · unfold width
    omega
  · show v.terminalRow * width + v.terminalColumn = v.terminalRow * width
    omega

/-! ### The keys -/

theorem printable_plain {c : UInt8} (h : isPrintable c = true) : c ≠ 10 ∧ c ≠ 13 := by
  constructor
  · intro heq
    subst heq
    exact absurd h (by decide)
  · intro heq
    subst heq
    exact absurd h (by decide)

/-- What stands on the screen before Enter is pressed, `echo` having been drawn. -/
theorem shellReadLine_shown {t b : Int} {color : UInt8} {o : Int} {front : List UInt16}
    (hroom : front.length + 255 ≤ (b - t) * width) (keys : List UInt8) (buf : CharBuffer 256) {v : Vga} {k : Int}
    (h : LineShown t b color o (front ++ buf.chars.map (entry · color)) v k) :
    ∃ echo, LineShown t b color o (front ++ (shellReadLine buf keys).1.chars.map (entry · color)) (draw echo v)
        (k + scrolledBy echo v) ∧
      ((shellReadLine buf keys).2.2 = none ∧ (shellReadLine buf keys).2.1 = echo ∨
        (shellReadLine buf keys).2.2 ≠ none ∧ (shellReadLine buf keys).2.1 = echo ++ [.putchar 10]) := by
  induction keys generalizing buf v k with
  | nil =>
    refine ⟨[], ?_, .inl ⟨rfl, rfl⟩⟩
    show LineShown t b color o _ v (k + 0)
    rwa [Int.add_zero]
  | cons c keys ih =>
    rw [shellReadLine]
    by_cases henter : c = 10 ∨ c = 13
    · rw [if_pos henter]
      refine ⟨[], ?_, .inr ⟨by simp, rfl⟩⟩
      show LineShown t b color o _ v (k + 0)
      rwa [Int.add_zero]
    rw [if_neg henter]
    by_cases hback : c = 8
    · rw [if_pos hback]
      by_cases hempty : buf.chars = []
      · rw [if_pos hempty]
        exact ih buf h
      · rw [if_neg hempty]
        have hdrop := h.back (by simp [hempty])
        rw [List.dropLast_append_of_ne_nil (by simp [hempty]), ← List.map_dropLast] at hdrop
        obtain ⟨echo, hshown, hend⟩ := ih buf.back hdrop
        refine ⟨.backspace :: echo, ?_, hend.imp
          (fun hw => ⟨hw.1, congrArg _ hw.2⟩) fun hw => ⟨hw.1, congrArg _ hw.2⟩⟩
        show LineShown t b color o _ (draw echo v.backspace) (k + (0 + scrolledBy echo v.backspace))
        rwa [Int.zero_add]
    rw [if_neg hback]
    by_cases hput : isPrintable c = true ∧ buf.chars.length + 1 < 256
    · rw [dif_pos hput]
      have hfits := buf.fits
      have hmore := h.put (printable_plain hput.1) (by simp only [List.length_append, List.length_map]; omega)
      have hpush : front ++ (buf.push c hput.2).chars.map (entry · color) =
          front ++ buf.chars.map (entry · color) ++ [entry c color] := by simp [CharBuffer.push]
      rw [← hpush] at hmore
      obtain ⟨echo, hshown, hend⟩ := ih (buf.push c hput.2) hmore
      refine ⟨.putchar c :: echo, ?_, hend.imp
        (fun hw => ⟨hw.1, congrArg _ hw.2⟩) fun hw => ⟨hw.1, congrArg _ hw.2⟩⟩
      rw [Int.add_assoc] at hshown
      exact hshown
    · rw [dif_neg hput]
      exact ih buf h

/-- Two strings of cells behind one another, read apart. -/
theorem cells_append (memory : Int → UInt16) (o : Int) {a b : List UInt16}
    (h : ∀ (i : Nat) c, (a ++ b)[i]? = some c → memory (o + i) = c) :
    (∀ (i : Nat) c, a[i]? = some c → memory (o + i) = c) ∧
      ∀ (i : Nat) c, b[i]? = some c → memory (o + a.length + i) = c := by
  constructor
  · intro i c hc
    obtain ⟨hlt, _⟩ := List.getElem?_eq_some_iff.mp hc
    exact h i c (by rwa [List.getElem?_append_left hlt])
  · intro i c hc
    have hcell := h (a.length + i) c (by rwa [List.getElem?_append_right (Nat.le_add_right _ _),
      Nat.add_sub_cancel_left])
    have hindex : o + ((a.length + i : Nat) : Int) = o + a.length + i := by omega
    rwa [hindex] at hcell

theorem cells_map {memory : Int → UInt16} {o : Int} {s : List UInt8} {color : UInt8}
    (h : ∀ (i : Nat) c, (s.map (entry · color))[i]? = some c → memory (o + i) = c) (i : Nat) (c : UInt8)
    (hc : s[i]? = some c) : memory (o + i) = entry c color :=
  h i _ (by rw [List.getElem?_map, hc]; rfl)

/-- The cells of a line, from where it starts on the screen after `k` rows have scrolled. -/
theorem line_cells {memory : Int → UInt16} {row k : Int} {a b : List UInt8} {color color' : UInt8}
    (h : ∀ (i : Nat) c, (a.map (entry · color) ++ b.map (entry · color'))[i]? = some c →
      memory (row * width + i - width * k) = c) :
    (∀ (i : Nat) c, a[i]? = some c → memory ((row - k) * width + i) = entry c color) ∧
      ∀ (i : Nat) c, b[i]? = some c → memory ((row - k) * width + a.length + i) = entry c color' := by
  have hcells := cells_append memory ((row - k) * width) fun i c hc => by
    have hcell := h i c hc
    have hindex : row * width + i - width * k = (row - k) * width + i := by
      unfold width
      omega
    rwa [hindex] at hcell
  rw [List.length_map] at hcells
  exact ⟨cells_map hcells.1, cells_map hcells.2⟩

/-- The prompt, in the colour it is printed in, and the one that is set behind it. -/
def promptText (prompt : List UInt8) (fg bg : UInt8) : Text := vgaWriteString prompt ++ [.setColor fg bg]

section Prompt
variable {v : Vga} (hv : Inside 1 22 v) (hcolumn : v.terminalColumn = 0) {prompt : List UInt8}
  (hlen : prompt.length ≤ 150) (hprint : ∀ c ∈ prompt, isPrintable c = true) (fg bg : UInt8)
include hv hcolumn hlen hprint

/-- The prompt stands on the screen. -/
theorem prompt_shown : LineShown 1 22 (entryColor fg bg) (v.terminalRow * width)
    (prompt.map (entry · v.terminalColor)) (draw (promptText prompt fg bg) v)
    (scrolledBy (promptText prompt fg bg) v) := by
  have hwritten := (lineShown_start hv hcolumn).write (fun c hc => printable_plain (hprint c hc))
    (by unfold width; rw [List.length_nil]; omega)
  have hcolored := hwritten.setColor fg bg
  unfold promptText
  rw [draw_append, scrolledBy_append]
  rw [List.nil_append, Int.zero_add] at hcolored
  show LineShown _ _ _ _ _ _ (_ + (0 + 0))
  rwa [Int.add_zero, Int.add_zero]

end Prompt

/-- **The echo of the command line is faithful.** In the terminal's viewport, at any time while the
line is read, the prompt stands where it was printed, `k` rows further up for `k` rows scrolled, all of
it as it was, and the characters of the buffer follow it up to the cursor. After Enter, which ends the
line, they still do. -/
theorem readLine_echoed (v : Vga) (hv : Inside 1 22 v) (hcolumn : v.terminalColumn = 0) (prompt : List UInt8)
    (hlen : prompt.length ≤ 150) (hprint : ∀ c ∈ prompt, isPrintable c = true) (fg bg : UInt8)
    (keys : List UInt8) (buf : CharBuffer 256) (text : Text) (rest : Option (List UInt8))
    (hread : shellReadLine ⟨[], emptyLine_fits⟩ keys = (buf, text, rest)) :
    buf.chars.length ≤ 255 ∧ ∃ (v' : Vga) (o : Int),
      v' = draw (promptText prompt fg bg ++ text) v ∧
      o = (v.terminalRow - scrolledBy (promptText prompt fg bg ++ text) v) * width ∧ width ≤ o ∧
      (∀ (i : Nat) c, prompt[i]? = some c → v'.memory (o + i) = entry c v.terminalColor) ∧
      (∀ (i : Nat) c, buf.chars[i]? = some c → v'.memory (o + prompt.length + i) = entry c (entryColor fg bg)) ∧
      v'.terminalRow * width + v'.terminalColumn =
        if rest = none then o + prompt.length + buf.chars.length
        else ((o + prompt.length + buf.chars.length) / width + 1) * width := by
  have hfits := buf.fits
  refine ⟨by omega, _, _, rfl, rfl, ?_⟩
  have hprompt := prompt_shown hv hcolumn hlen hprint fg bg
  have hroom : ((prompt.map (entry · v.terminalColor)).length : Int) + 255 ≤ (22 - 1) * width := by
    rw [List.length_map]
    unfold width
    omega
  obtain ⟨echo, hshown, hend⟩ := shellReadLine_shown hroom keys ⟨[], emptyLine_fits⟩ (by simpa using hprompt)
  rw [hread] at hshown hend
  dsimp only at hshown hend
  rw [draw_append, scrolledBy_append]
  have hlength : ((prompt.map (entry · v.terminalColor) ++
      buf.chars.map (entry · (entryColor fg bg))).length : Int) =
      prompt.length + buf.chars.length := by simp
  rcases hend with ⟨rfl, rfl⟩ | ⟨hrest, rfl⟩
  · have hcursor := hshown.cursor
    have hvisible := hshown.visible
    obtain ⟨hp, hb⟩ := line_cells fun i c hc => hshown.memory hc
    refine ⟨by unfold width at *; omega, hp, hb, ?_⟩
    rw [if_pos rfl]
    unfold width at *
    omega
  · obtain ⟨hvisible, hcursor, hcells⟩ := hshown.newline (by unfold width; omega)
    obtain ⟨hp, hb⟩ := line_cells hcells
    have hscrolled : scrolledBy (promptText prompt fg bg) v +
        scrolledBy (echo ++ [.putchar 10]) (draw (promptText prompt fg bg) v) =
        scrolledBy (promptText prompt fg bg) v + scrolledBy echo (draw (promptText prompt fg bg) v) +
          scrolls 10 (draw echo (draw (promptText prompt fg bg) v)) := by
      rw [scrolledBy_append, ← Int.add_assoc]
      exact congrArg _ (Int.add_zero _)
    rw [draw_append echo, hscrolled]
    refine ⟨by unfold width at *; omega, hp, hb, ?_⟩
    rw [if_neg hrest]
    show (Vga.putchar 10 _).terminalRow * width + (Vga.putchar 10 _).terminalColumn = _
    unfold width at *
    omega

/-- The desktop's terminal as it starts. -/
def konsole : Vga := (Vga.initial.setViewport 1 22).clear

theorem konsole_inside : Inside 1 22 konsole :=
  (Vga.clear_keeps _ (Vga.setViewport_inside (by decide) (by decide))).2

def konsolePrompt : List UInt8 := lit "debian@furos:/ $ "

/-- `l`, `x`, a backspace, `s` and Enter. -/
def lsText : Text := [.putchar 108, .putchar 120, .backspace, .putchar 115, .putchar 10]

theorem readLine_echoed_ls :
    2 ≤ 255 ∧ ∃ (v' : Vga) (o : Int),
      v' = draw (promptText konsolePrompt 7 0 ++ lsText) konsole ∧
      o = (konsole.terminalRow - scrolledBy (promptText konsolePrompt 7 0 ++ lsText) konsole) * width ∧
      width ≤ o ∧
      (∀ (i : Nat) c, konsolePrompt[i]? = some c → v'.memory (o + i) = entry c konsole.terminalColor) ∧
      (∀ (i : Nat) c, (lit "ls")[i]? = some c →
        v'.memory (o + konsolePrompt.length + i) = entry c (entryColor 7 0)) ∧
      v'.terminalRow * width + v'.terminalColumn =
        ((o + konsolePrompt.length + (lit "ls").length) / width + 1) * width :=
  readLine_echoed konsole konsole_inside rfl konsolePrompt (by decide) (List.all_eq_true.mp rfl) 7 0
    [108, 120, 8, 115, 10] ⟨lit "ls", by decide⟩ lsText (some []) rfl

end FurOS
