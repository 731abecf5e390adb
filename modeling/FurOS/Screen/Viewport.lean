import FurOS.Screen.Vga

/-! Text output stays inside the viewport.

The cursor is kept in the viewport by every call, whatever the viewport is, and all
that a call stores is stored at the cursor or in a row between the two ends. -/
namespace FurOS.Vga
open Foundation (forUp forUp_invariant)

/-- What has been stored since `v` is in rows `t` to `b`, and the viewport is still the same. -/
structure Drawn (t b : Int) (v v' : Vga) : Prop where
  outside : ∀ i, i / width < t ∨ b < i / width → v'.memory i = v.memory i
  top : v'.vpTop = v.vpTop
  bot : v'.vpBot = v.vpBot
  stored : ∃ new, v'.stored = new ++ v.stored ∧ ∀ i ∈ new, t ≤ i / width ∧ i / width ≤ b

/-- The cursor is in rows `t` to `b`, which are the viewport. -/
structure Inside (t b : Int) (v : Vga) : Prop where
  top : v.vpTop = t
  bot : v.vpBot = b
  row : t ≤ v.terminalRow ∧ v.terminalRow ≤ b
  column : 0 ≤ v.terminalColumn ∧ v.terminalColumn < width

theorem zero_lt_width : 0 < width := by decide

theorem last_column : 0 ≤ width - 1 ∧ width - 1 < width := by decide

namespace Drawn
variable {t b : Int} {v v' v'' : Vga}

theorem refl (t b : Int) (v : Vga) : Drawn t b v v := ⟨fun _ _ => rfl, rfl, rfl, [], rfl, by simp⟩

theorem trans (h : Drawn t b v v') (h' : Drawn t b v' v'') : Drawn t b v v'' := by
  obtain ⟨new, hnew, hin⟩ := h.stored
  obtain ⟨new', hnew', hin'⟩ := h'.stored
  refine ⟨fun i hi => (h'.outside i hi).trans (h.outside i hi), h'.top.trans h.top, h'.bot.trans h.bot,
    new' ++ new, ?_, fun i hi => ?_⟩
  · rw [hnew', hnew, List.append_assoc]
  · rcases List.mem_append.mp hi with hi | hi
    · exact hin' i hi
    · exact hin i hi

/-- The row of a cell. -/
theorem row_of_cell {row column : Int} (h : 0 ≤ column ∧ column < width) :
    (row * width + column) / width = row := by
  unfold width at h ⊢
  omega

theorem store (h : Drawn t b v v') {row column : Int} (hrow : t ≤ row ∧ row ≤ b)
    (hcolumn : 0 ≤ column ∧ column < width) (cell : UInt16) : Drawn t b v (v'.store row column cell) := by
  have hcell : (row * width + column) / width = row := row_of_cell hcolumn
  obtain ⟨new, hnew, hin⟩ := h.stored
  refine ⟨fun i hi => ?_, h.top, h.bot, (row * width + column) :: new, ?_, fun i hi => ?_⟩
  · have hne : i ≠ row * width + column := by
      intro heq
      rw [heq, hcell] at hi
      omega
    show Function.update v'.memory (row * width + column) cell i = v.memory i
    rw [Function.update_of_ne hne, h.outside i hi]
  · exact congrArg (_ :: ·) hnew
  · rcases List.mem_cons.mp hi with rfl | hi
    · rw [hcell]
      exact hrow
    · exact hin i hi

theorem blankRow (h : Drawn t b v v') {y : Int} (hy : t ≤ y ∧ y ≤ b) : Drawn t b v (v'.blankRow y) :=
  forUp_invariant (fun _ _ hlo hhi hs => hs.store hy ⟨hlo, hhi⟩ _) h

theorem liftRow (h : Drawn t b v v') {y : Int} (hy : t < y ∧ y ≤ b) : Drawn t b v (v'.liftRow y) :=
  forUp_invariant (fun _ _ hlo hhi hs => hs.store ⟨by omega, by omega⟩ ⟨hlo, hhi⟩ _) h

theorem scroll (h : Drawn t b v v') (ht : v.vpTop = t) (hb : v.vpBot = b) (htb : t ≤ b) :
    Drawn t b v v'.scroll := by
  have hlift : Drawn t b v (forUp Vga.liftRow (v'.vpTop + 1) (v'.vpBot + 1) v') := by
    refine forUp_invariant (fun y s hlo hhi hs => hs.liftRow ?_) h
    have := h.top
    have := h.bot
    omega
  refine hlift.blankRow ?_
  have := hlift.bot
  omega

end Drawn

/-- Scrolling keeps what no store changes. -/
theorem scroll_field {γ : Type} (g : Vga → γ) (hg : ∀ row column cell v, g (Vga.store row column cell v) = g v)
    (v : Vga) : g v.scroll = g v := by
  have hlift (y : Int) (s : Vga) : g (s.liftRow y) = g s :=
    forUp_invariant (P := fun s' => g s' = g s) (fun _ _ _ _ hs => (hg _ _ _ _).trans hs) rfl
  have hblank (y : Int) (s : Vga) : g (s.blankRow y) = g s :=
    forUp_invariant (P := fun s' => g s' = g s) (fun _ _ _ _ hs => (hg _ _ _ _).trans hs) rfl
  unfold scroll
  dsimp only
  rw [hblank]
  exact forUp_invariant (P := fun s => g s = g v) (fun y s _ _ hs => (hlift y s).trans hs) rfl

/-! ### Calls -/

/-- A call draws inside the viewport and leaves the cursor there. -/
def Keeps (t b : Int) (f : Vga → Vga) : Prop := ∀ v, Inside t b v → Drawn t b v (f v) ∧ Inside t b (f v)

section Calls
variable {t b : Int}

theorem setColor_keeps (fg bg : UInt8) : Keeps t b (setColor fg bg) :=
  fun v h => ⟨⟨fun _ _ => rfl, rfl, rfl, [], rfl, by simp⟩, ⟨h.top, h.bot, h.row, h.column⟩⟩

/-- A new line is begun below the cursor, or in the last row once all have moved up. The column may
have passed the end of the row. -/
theorem newline_drawn {v : Vga} (ht : v.vpTop = t) (hb : v.vpBot = b)
    (hrow : t ≤ v.terminalRow ∧ v.terminalRow ≤ b) : Drawn t b v v.newline ∧ Inside t b v.newline := by
  have hstart : Drawn t b v {v with terminalColumn := 0, terminalRow := v.terminalRow + 1} :=
    ⟨fun _ _ => rfl, rfl, rfl, [], rfl, by simp⟩
  unfold newline
  dsimp only
  split
  · have hscroll := hstart.scroll ht hb (by omega)
    have hcolumn := scroll_field terminalColumn (fun _ _ _ _ => rfl)
      {v with terminalColumn := 0, terminalRow := v.terminalRow + 1}
    generalize scroll {v with terminalColumn := 0, terminalRow := v.terminalRow + 1} = s at hscroll hcolumn ⊢
    have hbot := hscroll.bot.trans hb
    refine ⟨⟨hscroll.outside, hscroll.top, hscroll.bot, hscroll.stored⟩, hscroll.top.trans ht, hbot, ?_, ?_⟩
    · dsimp only
      omega
    · rw [hcolumn]
      exact ⟨le_refl _, zero_lt_width⟩
  · refine ⟨hstart, ht, hb, ?_, le_refl _, zero_lt_width⟩
    dsimp only
    omega

theorem putchar_keeps (c : UInt8) : Keeps t b (putchar c) := by
  intro v h
  unfold putchar
  split
  · exact newline_drawn h.top h.bot h.row
  split
  · exact ⟨⟨fun _ _ => rfl, rfl, rfl, [], rfl, by simp⟩, h.top, h.bot, h.row, le_refl _, zero_lt_width⟩
  have hstore := (Drawn.refl t b v).store h.row h.column (entry c v.terminalColor)
  have hmoved : Drawn t b v {v.store v.terminalRow v.terminalColumn (entry c v.terminalColor) with
      terminalColumn := v.terminalColumn + 1} :=
    ⟨hstore.outside, hstore.top, hstore.bot, hstore.stored⟩
  dsimp only
  split
  · have hline := newline_drawn (v := {v.store v.terminalRow v.terminalColumn (entry c v.terminalColor) with
      terminalColumn := v.terminalColumn + 1}) h.top h.bot h.row
    exact ⟨hmoved.trans hline.1, hline.2⟩
  · rename_i hend
    have hcolumn := h.column
    refine ⟨hmoved, h.top, h.bot, h.row, ?_⟩
    dsimp only [store] at hend ⊢
    omega

theorem backspace_keeps : Keeps t b backspace := by
  intro v h
  have hrow := h.row
  have hcolumn := h.column
  have htop := h.top
  unfold backspace
  split
  · exact ⟨.refl t b v, h⟩
  rename_i hstart
  -- the row above is still inside: the cursor was not at the start of the first row
  have hin : ∀ v' : Vga, Drawn t b v v' → Inside t b v' →
      Drawn t b v (v'.blank v'.terminalRow v'.terminalColumn) ∧
        Inside t b (v'.blank v'.terminalRow v'.terminalColumn) :=
    fun v' hd hi => ⟨hd.store hi.row hi.column _, hi.top, hi.bot, hi.row, hi.column⟩
  dsimp only
  split
  · refine hin _ ⟨fun _ _ => rfl, rfl, rfl, [], rfl, by simp⟩ ⟨h.top, h.bot, ?_, last_column⟩
    dsimp only
    omega
  · refine hin _ ⟨fun _ _ => rfl, rfl, rfl, [], rfl, by simp⟩ ⟨h.top, h.bot, h.row, ?_⟩
    dsimp only
    omega

/-- Clearing puts the cursor into the viewport, wherever it was. -/
theorem clear_drawn {v : Vga} (ht : v.vpTop = t) (hb : v.vpBot = b) (hle : t ≤ b) :
    Drawn t b v v.clear ∧ Inside t b v.clear := by
  have hrows : Drawn t b v (forUp blankRow v.vpTop (v.vpBot + 1) v) := by
    refine forUp_invariant (fun y s hlo hhi hs => hs.blankRow ?_) (.refl t b v)
    omega
  have htop := hrows.top.trans ht
  have hbot := hrows.bot.trans hb
  refine ⟨⟨hrows.outside, hrows.top, hrows.bot, hrows.stored⟩, htop, hbot, ?_, le_refl _, zero_lt_width⟩
  show t ≤ (forUp blankRow v.vpTop (v.vpBot + 1) v).vpTop ∧ (forUp blankRow v.vpTop (v.vpBot + 1) v).vpTop ≤ b
  omega

theorem clear_keeps : Keeps t b clear := fun _ h => clear_drawn h.top h.bot (h.row.1.trans h.row.2)

/-- Calls one after another. -/
theorem foldl_keeps {γ : Type} {f : γ → Vga → Vga} (hf : ∀ c, Keeps t b (f c)) (cs : List γ) :
    Keeps t b fun v => cs.foldl (fun v c => f c v) v := by
  induction cs with
  | nil => exact fun v h => ⟨.refl t b v, h⟩
  | cons c rest ih =>
    intro v h
    obtain ⟨hd, hi⟩ := hf c v h
    obtain ⟨hd', hi'⟩ := ih (f c v) hi
    exact ⟨hd.trans hd', hi'⟩

theorem call_keeps (c : Call) : Keeps t b (call c) := by
  cases c with
  | setColor fg bg => exact setColor_keeps fg bg
  | putchar c => exact putchar_keeps c
  | writeString str =>
    cases str with
    | none => exact fun v h => ⟨.refl t b v, h⟩
    | some s => exact foldl_keeps putchar_keeps s.chars
  | backspace => exact backspace_keeps
  | clear => exact clear_keeps

end Calls

/-- A viewport of the screen is taken as it is. -/
theorem setViewport_eq {t b : Int} (h : 0 ≤ t ∧ t ≤ b ∧ b ≤ 24) (v : Vga) : v.setViewport t b =
    let row := if v.terminalRow < t then t else v.terminalRow
    {v with vpTop := t, vpBot := b, terminalRow := if row > b then b else row} := by
  have htop : ¬ t < 0 := by omega
  have hbot : ¬ b ≥ height := by
    unfold height
    omega
  have hboth : ¬ t > b := by omega
  unfold setViewport
  dsimp only
  rw [if_neg htop, if_neg hbot, if_neg hboth]

/-- The cursor is moved into the viewport. -/
theorem setViewport_inside {t b : Int} (h : 0 ≤ t ∧ t ≤ b ∧ b ≤ 24) {v : Vga}
    (hcolumn : 0 ≤ v.terminalColumn ∧ v.terminalColumn < width) : Inside t b (v.setViewport t b) := by
  rw [setViewport_eq h]
  refine ⟨rfl, rfl, ?_, hcolumn⟩
  dsimp only
  split
  · omega
  · split <;> omega

/-- **The viewport confines text output.** After any calls, all that they have stored lies in rows
`t` to `b` of the screen, the cursor is in these rows, and the cells of other rows are as before. -/
theorem calls_confined (t b : Int) (h : 0 ≤ t ∧ t ≤ b ∧ b ≤ 24) (v : Vga)
    (hcolumn : 0 ≤ v.terminalColumn ∧ v.terminalColumn < width) (cs : List Call) :
    (∃ new, ((v.setViewport t b).calls cs).stored = new ++ v.stored ∧
      ∀ i ∈ new, t ≤ i / width ∧ i / width ≤ b ∧ 0 ≤ i ∧ i < 2000) ∧
    (t ≤ ((v.setViewport t b).calls cs).terminalRow ∧ ((v.setViewport t b).calls cs).terminalRow ≤ b) ∧
    (0 ≤ ((v.setViewport t b).calls cs).terminalColumn ∧ ((v.setViewport t b).calls cs).terminalColumn < width) ∧
    ∀ i, i / width < t ∨ b < i / width → ((v.setViewport t b).calls cs).memory i = v.memory i := by
  obtain ⟨hdrawn, hinside⟩ := foldl_keeps call_keeps cs _ (setViewport_inside h hcolumn)
  obtain ⟨new, hnew, hin⟩ := hdrawn.stored
  refine ⟨⟨new, hnew, fun i hi => ?_⟩, hinside.row, hinside.column, hdrawn.outside⟩
  obtain ⟨hlo, hhi⟩ := hin i hi
  refine ⟨hlo, hhi, ?_⟩
  unfold width at hlo hhi
  omega

/-- The variables as the kernel starts with them. -/
def initial : Vga :=
  { memory := fun _ => 0
    stored := []
    terminalRow := 0
    terminalColumn := 0
    terminalColor := 7
    vpTop := 0
    vpBot := 24 }

/-- The desktop's terminal cleared, with a line and a character taken back. -/
def terminal : Vga :=
  (initial.setViewport 1 22).calls [.clear, .writeString (some (.ofLit "ls\n")), .putchar 65, .backspace]

theorem calls_confined_terminal :
    (∃ new, terminal.stored = new ++ initial.stored ∧
      ∀ i ∈ new, 1 ≤ i / width ∧ i / width ≤ 22 ∧ 0 ≤ i ∧ i < 2000) ∧
    (1 ≤ terminal.terminalRow ∧ terminal.terminalRow ≤ 22) ∧
    (0 ≤ terminal.terminalColumn ∧ terminal.terminalColumn < width) ∧
    ∀ i, i / width < 1 ∨ 22 < i / width → terminal.memory i = initial.memory i := by
  unfold terminal
  exact calls_confined 1 22 (by decide) initial (by decide) _

end FurOS.Vga
