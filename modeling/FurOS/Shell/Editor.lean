import FurOS.Foundation.Run
import FurOS.Shell.Echo

/-! `nano`'s screen against `nano`'s buffer.

The editor prints the buffer once and then draws one request for every key that changes it. A
character is taken back from the column before the cursor, and that is where it was put, except
that a new line takes up the rest of its row. `Tracks` is what the steps keep where it makes no
difference: the screen is a window on the layout of the buffer. -/
namespace FurOS
open Foundation (Tape foldl_along_iff)
open Vga (width entry char Inside Shows Clean layout columnAfter)

/-! ### Editing -/

/-- The buffer, the screen, and by how many rows the screen has scrolled since the buffer was
printed first. -/
structure Editor where
  buffer : NanoBuffer
  screen : Vga
  scrolled : Int

namespace Editor

/-- The content is printed. -/
def start (content : NanoBuffer) (v : Vga) : Editor :=
  ⟨content, draw (nanoShow content) v, scrolledBy (nanoShow content) v⟩

def press (e : Editor) (c : UInt8) : Editor :=
  match nanoKey e.buffer c with
  | none => e
  | some (buffer, out) => ⟨buffer, out.draw e.screen, e.scrolled + out.scrolls e.screen⟩

/-- The editing area is what printing the buffer on `v` leaves, as many rows further up as more
have scrolled away, and so is the cursor. -/
structure Displays {β : Type} (f : UInt16 → β) (v : Vga) (e : Editor) : Prop where
  further : scrolledBy (nanoShow e.buffer) v ≤ e.scrolled
  row : e.screen.terminalRow + (e.scrolled - scrolledBy (nanoShow e.buffer) v) =
    (draw (nanoShow e.buffer) v).terminalRow
  column : e.screen.terminalColumn = (draw (nanoShow e.buffer) v).terminalColumn
  cells : ∀ i, v.vpTop * width ≤ i → i < (v.vpBot + 1) * width →
    v.terminalRow * width + v.terminalColumn ≤ i + width * e.scrolled →
    f (e.screen.memory i) =
      if i + width * (e.scrolled - scrolledBy (nanoShow e.buffer) v) < (v.vpBot + 1) * width then
        f ((draw (nanoShow e.buffer) v).memory (i + width * (e.scrolled - scrolledBy (nanoShow e.buffer) v)))
      else f (entry 32 v.terminalColor)

/-- The cursor is not at the start of the viewport, and the last character of the buffer is no new
line, or one at the end of a row. -/
def Erasable (e : Editor) : Prop :=
  ∀ c, e.buffer.chars.getLast? = some c →
    ¬ (e.screen.terminalRow = e.screen.vpTop ∧ e.screen.terminalColumn = 0) ∧
      (c = 10 → columnAfter e.buffer.chars.dropLast = width - 1)

end Editor

/-- The text that is drawn while the keys are pressed. -/
theorem nanoLoop_foldl {keys : List UInt8} (hkeys : keySave ∉ keys ∧ keyExit ∉ keys) (t : Nodes) (cwd : Int)
    (path : CStr) (dirty : Bool) (e : Editor) :
    ∃ text, nanoLoop t cwd path e.buffer dirty keys = .ok (t, text, none) ∧
      (keys.foldl Editor.press e).screen = draw text e.screen ∧
      (keys.foldl Editor.press e).scrolled = e.scrolled + scrolledBy text e.screen := by
  induction keys generalizing dirty e with
  | nil => exact ⟨[], rfl, rfl, (Int.add_zero _).symm⟩
  | cons c keys ih =>
    simp only [List.mem_cons, not_or] at hkeys
    have ih := ih ⟨hkeys.1.2, hkeys.2.2⟩
    rw [nanoLoop, if_neg (Ne.symm hkeys.1.1), if_neg (Ne.symm hkeys.2.1), List.foldl_cons]
    cases hkey : nanoKey e.buffer c with
    | none =>
      have hpress : e.press c = e := by simp only [Editor.press, hkey]
      rw [hpress]
      exact ih dirty e
    | some changed =>
      obtain ⟨buffer, out⟩ := changed
      have hpress : e.press c = ⟨buffer, out.draw e.screen, e.scrolled + out.scrolls e.screen⟩ := by
        simp only [Editor.press, hkey]
      obtain ⟨text, hloop, hscreen, hscrolled⟩ := ih true (e.press c)
      rw [hpress] at hloop hscreen hscrolled ⊢
      dsimp only at hloop
      refine ⟨out :: text, by simp only [hloop]; rfl, hscreen, ?_⟩
      rw [hscrolled, Int.add_assoc]
      rfl

/-! ### Printing -/

/-- Printable characters and new lines. -/
def Plain (s : List UInt8) : Prop := ∀ c ∈ s, isPrintable c = true ∨ c = 10

theorem plain_empty : Plain NanoBuffer.empty.chars := fun _ hc => absurd hc List.not_mem_nil

theorem plain_ne {s : List UInt8} (hs : Plain s) {c : UInt8} (hc : c ∈ s) : c ≠ 13 ∧ c ≠ 0 := by
  rcases hs c hc with hprint | rfl
  · refine ⟨(printable_plain hprint).2, ?_⟩
    intro heq
    subst heq
    exact absurd hprint (by decide)
  · decide

theorem plain_show {buffer : NanoBuffer} (hs : Plain buffer.chars) :
    nanoShow buffer = vgaWriteString buffer.chars := by
  have hall : buffer.chars.takeWhile (· ≠ 0) = buffer.chars := by
    rw [List.takeWhile_eq_self_iff]
    intro c hc
    exact decide_eq_true (plain_ne hs hc).2
  unfold nanoShow
  rw [hall]

theorem draw_vgaWriteString (s : List UInt8) (v : Vga) : draw (vgaWriteString s) v = v.putchars s :=
  List.foldl_map ..

theorem scrolledBy_vgaWriteString (s : List UInt8) (v : Vga) :
    scrolledBy (vgaWriteString s) v = Vga.scrolledOver s v := by
  induction s generalizing v with
  | nil => rfl
  | cons c rest ih =>
    show Vga.scrolls c v + scrolledBy (vgaWriteString rest) (v.putchar c) = _
    rw [ih]
    rfl

/-- Text that does not return to the start of a row leaves a clean screen clean. -/
theorem draw_clean {t b : Int} {v : Vga} (h : Inside t b v) (hclean : Clean char v) (text : Text)
    (hcr : .putchar 13 ∉ text) : Inside t b (draw text v) ∧ Clean char (draw text v) := by
  induction text generalizing v with
  | nil => exact ⟨h, hclean⟩
  | cons o rest ih =>
    simp only [List.mem_cons, not_or] at hcr
    have hstep : Inside t b (o.draw v) ∧ Clean char (o.draw v) := by
      cases o with
      | putchar c =>
        have hc : c ≠ 13 := by
          intro heq
          subst heq
          exact hcr.1 rfl
        exact ⟨(Vga.putchar_keeps c v h).2, hclean.putchar h hc⟩
      | backspace => exact ⟨(Vga.backspace_keeps v h).2, hclean.backspace h⟩
      | clear =>
        have hrow := h.row
        have htop := h.top
        have hbot := h.bot
        exact ⟨(Vga.clear_keeps v h).2, Vga.clear_clean (by omega)⟩
      | setColor fg bg =>
        refine ⟨(Vga.setColor_keeps fg bg v h).2, fun i hlo hhi => ?_⟩
        have hcell := hclean i hlo hhi
        rw [Vga.char_entry] at hcell ⊢
        exact hcell
    exact ih hstep.1 hstep.2 hcr.2

/-- The header ends a line, and the screen below it is clean. -/
theorem header_clean {t b : Int} {v : Vga} (h : Inside t b v) (hclean : Clean char v) :
    Inside t b (draw nanoHeader v) ∧ (draw nanoHeader v).terminalColumn = 0 ∧ Clean char (draw nanoHeader v) := by
  obtain ⟨hinside, hblank⟩ := draw_clean h hclean nanoHeader (by decide)
  refine ⟨hinside, ?_, hblank⟩
  obtain ⟨front, hfront⟩ : ∃ front, nanoHeader = front ++ [.putchar 10] := ⟨nanoHeader.dropLast, by decide⟩
  have hbefore := (draw_clean h hclean front fun hmem =>
    absurd (hfront ▸ List.mem_append_left _ hmem : .putchar 13 ∈ nanoHeader) (by decide)).1
  have hline := (hbefore.shows id _).putchar (c := 10) rfl (by decide)
  rw [hfront, draw_append] at hinside ⊢
  have hcursor := hline.cursor
  have hcolumn := hinside.column
  rw [Vga.type_pos, if_pos rfl] at hcursor
  show (Vga.putchar 10 (draw front v)).terminalColumn = 0
  change 0 ≤ (Vga.putchar 10 (draw front v)).terminalColumn ∧
    (Vga.putchar 10 (draw front v)).terminalColumn < width at hcolumn
  unfold width at *
  omega

/-! ### Steps -/

/-- What a key does. -/
theorem press_cases (e : Editor) (c : UInt8) :
    e.press c = e ∧ (c = 8 → e.buffer.chars = []) ∨
    (c = 8 ∧ ∃ s d, e.buffer.chars = s ++ [d] ∧ (e.press c).buffer.chars = s ∧
      (e.press c).screen = e.screen.backspace ∧ (e.press c).scrolled = e.scrolled) ∨
    c ≠ 8 ∧ ∃ d, (isPrintable d = true ∨ d = 10) ∧ (e.press c).buffer.chars = e.buffer.chars ++ [d] ∧
      (e.press c).screen = e.screen.putchar d ∧ (e.press c).scrolled = e.scrolled + Vga.scrolls d e.screen := by
  unfold Editor.press nanoKey
  by_cases hback : c = 8
  · rw [if_pos hback]
    by_cases hempty : e.buffer.chars = []
    · rw [if_pos hempty]
      exact .inl ⟨rfl, fun _ => hempty⟩
    · rw [if_neg hempty]
      exact .inr (.inl ⟨hback, _, _, (List.dropLast_append_getLast hempty).symm, rfl, rfl, Int.add_zero _⟩)
  rw [if_neg hback]
  by_cases henter : c = 10 ∨ c = 13
  · rw [if_pos henter]
    split
    · exact .inl ⟨rfl, fun h => absurd h hback⟩
    · rename_i hkey
      split at hkey
      · cases hkey
        exact .inr (.inr ⟨hback, 10, .inr rfl, rfl, rfl, rfl⟩)
      · cases hkey
  · rw [if_neg henter]
    split
    · exact .inl ⟨rfl, fun h => absurd h hback⟩
    · rename_i hkey
      split at hkey
      · rename_i hprint
        cases hkey
        exact .inr (.inr ⟨hback, c, .inl hprint.1, rfl, rfl, rfl⟩)
      · cases hkey

/-- The screen is a window on the layout of the buffer. -/
structure Tracks {β : Type} (f : UInt16 → β) (t b : Int) (color : UInt8) (τ : Tape β) (e : Editor) : Prop where
  plain : Plain e.buffer.chars
  colored : e.screen.terminalColor = color
  nonneg : 0 ≤ e.scrolled
  shows : Shows f (f (entry 32 color)) t b e.screen e.scrolled (layout f color e.buffer.chars τ)

section Steps
variable {β : Type} {f : UInt16 → β} {t b : Int} {v : Vga} {τ : Tape β} {e : Editor}

/-- From the start of a line, the layouts start at the start of one. -/
theorem window_start (hv : Inside t b v) (hcolumn : v.terminalColumn = 0) (hclean : Clean f v) :
    ∃ τ, Shows f (f (entry 32 v.terminalColor)) t b v 0 τ ∧ τ.Fresh (f (entry 32 v.terminalColor)) ∧
      τ.pos % width = 0 := by
  obtain ⟨τ, hτ, hfresh⟩ := hv.shows_fresh hclean
  refine ⟨τ, hτ, hfresh, ?_⟩
  rw [← hτ.cursor, hcolumn]
  unfold width
  omega

/-- The buffer, printed. -/
theorem show_window (hτ : Shows f (f (entry 32 v.terminalColor)) t b v 0 τ) {buffer : NanoBuffer}
    (hplain : Plain buffer.chars) :
    Tracks f t b v.terminalColor τ (.start buffer v) ∧
      (scrolledBy (nanoShow buffer) v = 0 ∨ (draw (nanoShow buffer) v).terminalRow = b) := by
  have hcr : ∀ c ∈ buffer.chars, c ≠ 13 := fun c hc => (plain_ne hplain hc).1
  obtain ⟨hshows, hcolored⟩ := Vga.putchars_shows hτ rfl hcr
  have hlast := Vga.putchars_last (k := 0) hτ.toInside hcr ⟨Int.le_refl 0, .inl rfl⟩
  rw [Int.zero_add] at hshows hlast
  unfold Editor.start
  rw [plain_show hplain, draw_vgaWriteString, scrolledBy_vgaWriteString]
  exact ⟨⟨hplain, hcolored, hlast.1, hshows⟩, hlast.2⟩

/-- Where the cursor is when the buffer is displayed. -/
theorem displays_cursor (hτ : Shows f (f (entry 32 v.terminalColor)) t b v 0 τ) (hplain : Plain e.buffer.chars)
    (h : e.Displays f v) : e.screen.terminalRow * width + e.screen.terminalColumn + width * e.scrolled =
      (layout f v.terminalColor e.buffer.chars τ).pos := by
  refine Eq.trans ?_ (show_window hτ hplain).1.shows.cursor
  have hrow := h.row
  have hcolumn := h.column
  unfold Editor.start width
  dsimp only
  omega

theorem tracks_displays (hτ : Shows f (f (entry 32 v.terminalColor)) t b v 0 τ)
    (h : Tracks f t b v.terminalColor τ e) : e.Displays f v := by
  obtain ⟨⟨_, _, _, hshows⟩, hlast⟩ := show_window hτ h.plain
  have hscreen := h.shows
  unfold Editor.start at hshows
  dsimp only at hshows
  have hcursor := hshows.cursor
  have hcursor' := hscreen.cursor
  have hrow := hshows.row
  have hcolumn := hshows.column
  have hrow' := hscreen.row
  have hcolumn' := hscreen.column
  have hnonneg := h.nonneg
  have hfurther : scrolledBy (nanoShow e.buffer) v ≤ e.scrolled := by
    unfold width at *
    omega
  have htop := hτ.top
  have hbot := hτ.bot
  constructor
  · exact hfurther
  · unfold width at *
    omega
  · unfold width at *
    omega
  · intro i hlo hhi _
    rw [htop] at hlo
    rw [hbot] at hhi ⊢
    rw [hscreen.area.shown i hlo hhi]
    have hmoved : i + width * (e.scrolled - scrolledBy (nanoShow e.buffer) v) +
        width * scrolledBy (nanoShow e.buffer) v = i + width * e.scrolled := by
      unfold width
      omega
    split
    · rw [hshows.area.shown _ (by unfold width at *; omega) ‹_›, hmoved]
    · exact hshows.area.below _ (by unfold width at *; omega)

/-- A key that does not take anything back wrongly. -/
theorem press_tracks (hfresh : τ.Fresh (f (entry 32 v.terminalColor))) (hstart : τ.pos % width = 0)
    (h : Tracks f t b v.terminalColor τ e) {c : UInt8} (hc : c = 8 → e.Erasable) :
    Tracks f t b v.terminalColor τ (e.press c) := by
  rcases press_cases e c with ⟨hsame, _⟩ | ⟨h8, s, d, hchars, hbuffer, hscreen, hscrolled⟩ |
    ⟨_, d, hd, hbuffer, hscreen, hscrolled⟩
  · rwa [hsame]
  · have hplain := h.plain
    have hshows := h.shows
    obtain ⟨hinside, hnewline⟩ := hc h8 d (by rw [hchars, List.getLast?_concat])
    rw [hchars] at hplain hshows hnewline
    rw [List.dropLast_concat] at hnewline
    rw [Vga.layout_concat] at hshows
    have hback := hshows.backspace (by rw [h.colored]) hinside
    rw [Vga.type_back (Vga.layout_fresh hfresh s) fun hn => (Vga.layout_column hstart s).trans
      (hnewline hn)] at hback
    refine ⟨?_, ?_, ?_, ?_⟩
    · rw [hbuffer]
      exact fun c hc => hplain c (List.mem_append_left _ hc)
    · rw [hscreen, Vga.backspace_terminalColor, h.colored]
    · rw [hscrolled]
      exact h.nonneg
    · rwa [hbuffer, hscreen, hscrolled]
  · have hplain : Plain (e.buffer.chars ++ [d]) := by
      intro x hx
      rcases List.mem_append.mp hx with hx | hx
      · exact h.plain x hx
      · rwa [List.mem_singleton.mp hx]
    have hput := h.shows.putchar (by rw [h.colored])
      (plain_ne hplain (List.mem_append_right _ List.mem_cons_self)).1
    refine ⟨?_, ?_, ?_, ?_⟩
    · rwa [hbuffer]
    · rw [hscreen, Vga.putchar_terminalColor, h.colored]
    · rw [hscrolled]
      have hnonneg := h.nonneg
      unfold Vga.scrolls
      split
      · omega
      · omega
    · rw [hbuffer, hscreen, hscrolled, Vga.layout_concat]
      rwa [h.colored] at hput

/-- After a character that is taken back wrongly the cursor is in another place. -/
theorem press_missed (hτ : Shows f (f (entry 32 v.terminalColor)) t b v 0 τ) (hstart : τ.pos % width = 0)
    (h : Tracks f t b v.terminalColor τ e) {c : UInt8} (hc : ¬ (c = 8 → e.Erasable)) :
    ¬ (e.press c).Displays f v := by
  obtain ⟨h8, hbad⟩ := Classical.not_imp.mp hc
  intro hdisplays
  rcases press_cases e c with ⟨_, hempty⟩ | ⟨_, s, d, hchars, hbuffer, hscreen, hscrolled⟩ | ⟨hne, _⟩
  · refine hbad fun d hd => ?_
    rw [hempty h8] at hd
    cases hd
  · have hplain := h.plain
    have hshows := h.shows
    rw [hchars] at hplain hshows
    rw [Vga.layout_concat] at hshows
    have hcursor := displays_cursor hτ
      (by rw [hbuffer]; exact fun c hc => hplain c (List.mem_append_left _ hc)) hdisplays
    rw [hbuffer, hscreen, hscrolled] at hcursor
    by_cases hinside : e.screen.terminalRow = e.screen.vpTop ∧ e.screen.terminalColumn = 0
    · have hstay : e.screen.backspace = e.screen := by
        unfold Vga.backspace
        rw [if_pos hinside]
      rw [hstay, hshows.cursor] at hcursor
      exact absurd hcursor (Vga.lt_type_pos d _).ne'
    · have hback := hshows.backspace (by rw [h.colored]) hinside
      rw [hback.cursor] at hcursor
      refine hbad fun x hx => ⟨hinside, fun hn => ?_⟩
      rw [hchars, List.getLast?_concat] at hx
      cases hx
      have hend : (layout f v.terminalColor s τ).pos % width = columnAfter s := Vga.layout_column hstart s
      rw [hchars, List.dropLast_concat, ← hend]
      by_contra hcolumn
      exact Vga.type_back_ne hn hcolumn hcursor
  · exact hne h8

end Steps

/-- **The editor's screen shows its buffer as long as Backspace finds the cursor behind the character
that it takes back**: away from the start of the viewport, and not below a line that ends before
the last column. `f` is what of a cell is looked at. -/
theorem nano_displayed_iff {β : Type} (f : UInt16 → β) {t b : Int} {v : Vga} (hv : Inside t b v)
    (hcolumn : v.terminalColumn = 0) (hclean : Clean f v) (content : NanoBuffer) (hcontent : Plain content.chars)
    (keys : List UInt8) (hkeys : keySave ∉ keys ∧ keyExit ∉ keys) (nodes : Nodes) (cwd : Int) (path : CStr) :
    (∃ text, nanoLoop nodes cwd path content false keys = .ok (nodes, text, none) ∧
      (keys.foldl Editor.press (.start content v)).screen = draw (nanoShow content ++ text) v ∧
      (keys.foldl Editor.press (.start content v)).scrolled = scrolledBy (nanoShow content ++ text) v) ∧
    ((∀ pre, pre <+: keys → (pre.foldl Editor.press (.start content v)).Displays f v) ↔
      ∀ pre c, pre ++ [c] <+: keys → c = 8 → (pre.foldl Editor.press (.start content v)).Erasable) := by
  constructor
  · obtain ⟨text, hloop, hscreen, hscrolled⟩ := nanoLoop_foldl hkeys nodes cwd path false (.start content v)
    refine ⟨text, hloop, ?_, ?_⟩
    · rw [hscreen, draw_append]
      rfl
    · rw [hscrolled, scrolledBy_append]
      rfl
  · obtain ⟨τ, hτ, hfresh, hstart⟩ := window_start hv hcolumn hclean
    exact foldl_along_iff (f := Editor.press) (P := Editor.Displays f v)
      (fun (e : Editor) (c : UInt8) h (hc : c = 8 → e.Erasable) => press_tracks hfresh hstart h hc)
      (fun e h => tracks_displays hτ h) (fun e c h hc => press_missed hτ hstart h hc)
        (show_window hτ hcontent).1 keys

/-- The editor on the cleared terminal. -/
def nanoScreen : Vga := draw nanoHeader konsole

theorem nanoScreen_clean : Inside 1 22 nanoScreen ∧ nanoScreen.terminalColumn = 0 ∧ Clean char nanoScreen :=
  header_clean konsole_inside (Vga.clear_clean (by decide))

/-- `a`, Enter and Backspace in an empty file. -/
theorem nano_newline_missed : (Inside 1 22 nanoScreen ∧ nanoScreen.terminalColumn = 0 ∧ Clean char nanoScreen) ∧
    ¬ ([97, 10, 8].foldl Editor.press (.start .empty nanoScreen)).Displays char nanoScreen := by
  refine ⟨nanoScreen_clean, ?_⟩
  obtain ⟨hinside, hcolumn, hclean⟩ := nanoScreen_clean
  obtain ⟨τ, hτ, hfresh, hstart⟩ := window_start hinside hcolumn hclean
  have hempty := (show_window hτ plain_empty).1
  have ha := press_tracks hfresh hstart hempty (c := 97) fun h => absurd h (by decide)
  have hline := press_tracks hfresh hstart ha (c := 10) fun h => absurd h (by decide)
  refine press_missed hτ hstart hline (c := 8) fun herase => ?_
  exact absurd ((herase rfl 10 rfl).2 rfl) (by decide)

theorem nano_displayed_iff_a :
    (∃ text, nanoLoop fsInit 0 (.ofLit "a") .empty false [97, 8] = .ok (fsInit, text, none) ∧
      ([97, 8].foldl Editor.press (.start .empty nanoScreen)).screen = draw (nanoShow .empty ++ text) nanoScreen ∧
      ([97, 8].foldl Editor.press (.start .empty nanoScreen)).scrolled =
        scrolledBy (nanoShow .empty ++ text) nanoScreen) ∧
    ((∀ pre, pre <+: [97, 8] → (pre.foldl Editor.press (.start .empty nanoScreen)).Displays char nanoScreen) ↔
      ∀ pre c, pre ++ [c] <+: [97, 8] → c = 8 → (pre.foldl Editor.press (.start .empty nanoScreen)).Erasable) :=
  nano_displayed_iff char nanoScreen_clean.1 nanoScreen_clean.2.1 nanoScreen_clean.2.2 .empty plain_empty [97, 8]
    (by decide) fsInit 0 (.ofLit "a")

end FurOS
