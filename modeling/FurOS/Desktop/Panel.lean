import FurOS.Desktop.Fileman
import FurOS.Desktop.Rendering
import FurOS.Installer.Drawing
import FurOS.Screen.Viewport
import FurOS.Shell.Echo

/-! The panel and the windows of the desktop (`draw_panel`, `open_window`, `run_terminal`).

The panel shows which desktop and which task are active by the color of their buttons. The terminal
leaves it alone, and the title of its window, whatever the shell writes (`terminal_chrome`); so do the
editor and the file manager, whatever they show (`window_chrome`). -/
namespace FurOS.Desktop
open Foundation (forUp forUp_count)
open Installer (appendBelow)
open Vga (OnScreen entry entryColor)

def titlerow : Int := 0
def panrow : Int := 24

/-- `spad`: `w` characters, with blanks where the text is shorter. -/
def spad (s : List UInt8) (w : Nat) : List UInt8 := (List.range w).map fun i => s.getD i 32

def appnames : List (List UInt8) := [lit "Konsole", lit "Dolphin", lit "KSysGuard"]

def taskFg (app i : Int) : UInt8 := if app = i then Vga.white else Vga.lightGrey
def taskBg (app i : Int) : UInt8 := if app = i then Vga.blue else Vga.darkGrey

/-- The button of a task. -/
def drawTask (app i : Int) (v : Vga) : Vga :=
  let bx := 10 + i * 11
  let fg := taskFg app i
  let bg := taskBg app i
  let v := v.putAt bx panrow 91 fg bg
  let v := v.writeStrAt (bx + 1) panrow (some (.ofChars (spad (appnames.getD i.toNat []) 9))) fg bg
  v.putAt (bx + 10) panrow 93 fg bg

def pagerFg (ws i : Int) : UInt8 := if ws = i then Vga.white else Vga.darkGrey
def pagerBg (ws i : Int) : UInt8 := if ws = i then Vga.lightGrey else Vga.darkGrey

/-- The button of a desktop. -/
def drawPager (ws i : Int) (v : Vga) : Vga :=
  let px := 44 + i * 3
  let fg := pagerFg ws i
  let bg := pagerBg ws i
  let v := v.putAt px panrow 91 fg bg
  let v := v.putAt (px + 1) panrow (49 + UInt8.ofNat i.toNat) fg bg
  v.putAt (px + 2) panrow 93 fg bg

def drawPanel (ws app : Int) (v : Vga) : Vga :=
  let v := v.fillRect 0 panrow Vga.width 1 32 Vga.white Vga.darkGrey
  let v := v.writeStrAt 0 panrow (some (.ofLit " \x10 FurOS ")) Vga.white Vga.magenta
  let v := v.putAt 9 panrow 0xB3 Vga.white Vga.darkGrey
  let v := forUp (drawTask app) 0 3 v
  let v := v.putAt 43 panrow 0xB3 Vga.white Vga.darkGrey
  let v := forUp (drawPager ws) 0 4 v
  let v := v.putAt 56 panrow 0xB3 Vga.white Vga.darkGrey
  let v := v.writeStrAt 57 panrow (some (.ofLit " FurOS 1.0 ")) Vga.lightCyan Vga.darkGrey
  let v := v.putAt 68 panrow 4 Vga.lightCyan Vga.darkGrey
  let v := v.writeStrAt 69 panrow (some (.ofLit "     ")) Vga.lightCyan Vga.darkGrey
  let v := v.putAt 74 panrow 0xB3 Vga.white Vga.darkGrey
  v.writeStrAt 75 panrow (some (.ofLit "[OFF]")) Vga.lightRed Vga.darkGrey

/-- `title` of `open_window`, an array of 72 characters. -/
def windowTitle (appname sub : List UInt8) : List UInt8 :=
  let title := appendBelow 66 [32, 4, 32] appname
  let title :=
    if sub ≠ [] then appendBelow 66 (if title.length < 65 then title ++ [32, 0xB3, 32] else title) sub else title
  title ++ List.replicate (68 - title.length) 32

def openWindow (appname sub : List UInt8) (v : Vga) : Vga :=
  let v := v.fillRect 0 titlerow 68 1 32 Vga.white Vga.magenta
  let v := v.writeStrAt 0 titlerow (some (.ofChars (windowTitle appname sub))) Vga.white Vga.magenta
  let v := v.putAt 68 titlerow 0xB3 Vga.lightGrey Vga.darkGrey
  let v := v.writeStrAt 69 titlerow (some (.ofLit "[^]")) Vga.lightGrey Vga.darkGrey
  let v := v.writeStrAt 72 titlerow (some (.ofLit "[O]")) Vga.lightGrey Vga.darkGrey
  let v := v.putAt 75 titlerow 0xB3 Vga.lightGrey Vga.darkGrey
  let v := v.writeStrAt 76 titlerow (some (.ofLit "[X]")) Vga.white Vga.red
  let v := v.putAt 79 titlerow 32 Vga.white Vga.red
  let v := v.fillRect 0 statrow Vga.width 1 32 Vga.lightGrey Vga.darkGrey
  let v := v.writeStrAt 1 statrow (some (.ofLit " FurOS Plasma Edition")) Vga.lightGrey Vga.darkGrey
  v.writeStrAt (Vga.width - 13) statrow (some (.ofLit " ESC: Close ")) Vga.lightGrey Vga.darkGrey

/-- `run_terminal` up to `shell_run`. -/
def openTerminal (ws : Int) (v : Vga) : Vga :=
  let v := openWindow (lit "Konsole") (lit "FurOS Terminal") v
  let v := drawPanel ws 0 v
  let v := v.setViewport ctop cbot
  (v.setColor Vga.lightGrey Vga.black).clear

/-! ### The title -/

theorem appendBelow_length {limit : Nat} {line : List UInt8} (h : line.length ≤ limit) (src : List UInt8) :
    (appendBelow limit line src).length ≤ limit := by
  unfold appendBelow
  rw [List.length_append, List.length_take]
  omega

/-- **The array is never overrun**: a title fills the bar, and its terminator is the 69th of 72 characters. -/
theorem windowTitle_length (appname sub : List UInt8) : (windowTitle appname sub).length = 68 := by
  have happ : (appendBelow 66 [32, 4, 32] appname).length ≤ 66 := appendBelow_length (by decide) appname
  have htitle (title : List UInt8) (h : title.length ≤ 68) :
      (title ++ List.replicate (68 - title.length) 32).length = 68 := by
    rw [List.length_append, List.length_replicate]
    omega
  unfold windowTitle
  dsimp only
  refine htitle _ ?_
  split_ifs with hsub hroom
  · have hbar : (appendBelow 66 [32, 4, 32] appname ++ [32, 0xB3, 32]).length =
        (appendBelow 66 [32, 4, 32] appname).length + 3 := List.length_append
    unfold appendBelow at hbar hroom ⊢
    rw [List.length_append, List.length_take, hbar]
    omega
  · exact Nat.le_trans (appendBelow_length happ sub) (by decide)
  · omega

/-- No terminator in it. -/
theorem zero_not_mem_windowTitle {appname sub : List UInt8} (happ : 0 ∉ appname) (hsub : 0 ∉ sub) :
    0 ∉ windowTitle appname sub := by
  have hbelow {limit : Nat} {line src : List UInt8} (hline : 0 ∉ line) (hsrc : 0 ∉ src) :
      0 ∉ appendBelow limit line src := by
    unfold appendBelow
    rw [List.mem_append, not_or]
    exact ⟨hline, fun h => hsrc (List.mem_of_mem_take h)⟩
  have hfirst : 0 ∉ appendBelow 66 [32, 4, 32] appname := hbelow (by decide) happ
  have hblanks (n : Nat) : (0 : UInt8) ∉ List.replicate n 32 :=
    fun h => absurd (List.eq_of_mem_replicate h) (by decide)
  unfold windowTitle
  dsimp only
  rw [List.mem_append, not_or]
  refine ⟨?_, hblanks _⟩
  split_ifs
  · refine hbelow ?_ hsub
    rw [List.mem_append, not_or]
    exact ⟨hfirst, by decide⟩
  · exact hbelow hfirst hsub
  · exact hfirst

/-! ### The panel -/

theorem taskName_length {i : Int} (hi : 0 ≤ i ∧ i < 3) :
    (CStr.ofChars (spad (appnames.getD i.toNat []) 9)).chars.length = 9 := by
  obtain rfl | rfl | rfl : i = 0 ∨ i = 1 ∨ i = 2 := by omega
  · decide
  · decide
  · decide

section Panel
variable {x y : Int} (h : OnScreen x y)
include h

theorem drawPager_cell (ws i : Int) (v : Vga) : (drawPager ws i v).cell x y =
    if y = panrow ∧ 44 + i * 3 ≤ x ∧ x < 44 + i * 3 + 3 then
      entry (if x = 44 + i * 3 then 91 else if x = 44 + i * 3 + 1 then 49 + UInt8.ofNat i.toNat else 93)
        (entryColor (pagerFg ws i) (pagerBg ws i))
    else v.cell x y := by
  unfold drawPager
  dsimp only
  rw [Vga.putAt_cell _ h, Vga.putAt_cell _ h, Vga.putAt_cell _ h]
  split_ifs <;> first | rfl | omega

theorem drawTask_color (app : Int) {i : Int} (hi : 0 ≤ i ∧ i < 3) (v : Vga) :
    Vga.color ((drawTask app i v).cell x y) =
      if y = panrow ∧ 10 + i * 11 ≤ x ∧ x < 10 + i * 11 + 11 then entryColor (taskFg app i) (taskBg app i)
      else Vga.color (v.cell x y) := by
  have hname := taskName_length hi
  unfold drawTask
  dsimp only
  generalize CStr.ofChars (spad (appnames.getD i.toNat []) 9) = name at hname ⊢
  rw [Vga.putAt_cell _ h, Vga.writeStrAt_cell _ h, Vga.putAt_cell _ h, hname]
  rw [apply_ite Vga.color, apply_ite Vga.color, apply_ite Vga.color, Vga.color_entry, Vga.color_entry,
    Vga.color_entry]
  -- the terms of the cells are large, and only the positions matter
  generalize entryColor (taskFg app i) (taskBg app i) = color
  generalize Vga.color (v.cell x y) = before
  split_ifs <;> first | omega | rfl

/-- The button of a task has its color, whichever is drawn after it. -/
theorem tasks_color (app : Int) {i : Int} (hi : 0 ≤ i ∧ i < 3) (hy : y = panrow)
    (hx : 10 + i * 11 ≤ x ∧ x < 10 + i * 11 + 11) (v : Vga) :
    Vga.color ((forUp (drawTask app) 0 3 v).cell x y) = entryColor (taskFg app i) (taskBg app i) := by
  have hall : i < 3 →
      Vga.color ((forUp (drawTask app) 0 3 v).cell x y) = entryColor (taskFg app i) (taskBg app i) := by
    refine forUp_count (P := fun k (s : Vga) =>
      i < k → Vga.color (s.cell x y) = entryColor (taskFg app i) (taskBg app i)) (by decide) ?_ ?_
    · intro k s hlo hhi hs hk
      rw [drawTask_color h app ⟨hlo, hhi⟩]
      split_ifs with hbutton
      · have hik : i = k := by omega
        rw [hik]
      · exact hs (by omega)
    · intro hneg
      omega
  exact hall hi.2

theorem pagers_color (ws : Int) {i : Int} (hi : 0 ≤ i ∧ i < 4) (hy : y = panrow)
    (hx : 44 + i * 3 ≤ x ∧ x < 44 + i * 3 + 3) (v : Vga) :
    Vga.color ((forUp (drawPager ws) 0 4 v).cell x y) = entryColor (pagerFg ws i) (pagerBg ws i) := by
  have hall : i < 4 →
      Vga.color ((forUp (drawPager ws) 0 4 v).cell x y) = entryColor (pagerFg ws i) (pagerBg ws i) := by
    refine forUp_count (P := fun k (s : Vga) =>
      i < k → Vga.color (s.cell x y) = entryColor (pagerFg ws i) (pagerBg ws i)) (by decide) ?_ ?_
    · intro k s hlo hhi hs hk
      rw [drawPager_cell h]
      by_cases hbutton : y = panrow ∧ 44 + k * 3 ≤ x ∧ x < 44 + k * 3 + 3
      · have hik : i = k := by omega
        rw [if_pos hbutton, hik, Vga.color_entry]
      · rw [if_neg hbutton]
        exact hs (by omega)
    · intro hneg
      omega
  exact hall hi.2

theorem tasks_outside (app : Int) (hout : y ≠ panrow) (v : Vga) :
    (forUp (drawTask app) 0 3 v).cell x y = v.cell x y := by
  refine Foundation.forUp_invariant (P := fun (s : Vga) => s.cell x y = v.cell x y) (fun i s _ _ hs => ?_) rfl
  unfold drawTask
  dsimp only
  rw [Vga.putAt_cell _ h, Vga.writeStrAt_cell _ h, Vga.putAt_cell _ h, if_neg (by omega), if_neg (by omega),
    if_neg (by omega)]
  exact hs

theorem pagers_outside (ws : Int) (hout : y ≠ panrow ∨ x < 44) (v : Vga) :
    (forUp (drawPager ws) 0 4 v).cell x y = v.cell x y := by
  refine Foundation.forUp_invariant (P := fun (s : Vga) => s.cell x y = v.cell x y) (fun i s hlo _ hs => ?_) rfl
  rw [drawPager_cell h, if_neg (by omega)]
  exact hs

/-- Only the last row is drawn in. -/
theorem drawPanel_outside (ws app : Int) (hout : y ≠ panrow) (v : Vga) :
    (drawPanel ws app v).cell x y = v.cell x y := by
  unfold drawPanel
  dsimp only
  rw [Vga.writeStrAt_cell _ h, if_neg (by omega), Vga.putAt_cell _ h, if_neg (by omega), Vga.writeStrAt_cell _ h,
    if_neg (by omega), Vga.putAt_cell _ h, if_neg (by omega), Vga.writeStrAt_cell _ h, if_neg (by omega),
    Vga.putAt_cell _ h, if_neg (by omega), pagers_outside h ws (.inl hout), Vga.putAt_cell _ h, if_neg (by omega),
    tasks_outside h app hout, Vga.putAt_cell _ h, if_neg (by omega), Vga.writeStrAt_cell _ h, if_neg (by omega),
    Vga.fillRect_cell _ h _ _ (by decide) (by decide), if_neg (by omega)]

/-- What is drawn right of the buttons. -/
theorem drawPanel_buttons (ws app : Int) (hx : x < 56) (v : Vga) : (drawPanel ws app v).cell x y =
    (forUp (drawPager ws) 0 4 ((forUp (drawTask app) 0 3
      (((v.fillRect 0 panrow Vga.width 1 32 Vga.white Vga.darkGrey).writeStrAt 0 panrow
        (some (.ofLit " \x10 FurOS ")) Vga.white Vga.magenta).putAt 9 panrow 0xB3 Vga.white Vga.darkGrey)).putAt
          43 panrow 0xB3 Vga.white Vga.darkGrey)).cell x y := by
  unfold drawPanel
  dsimp only
  rw [Vga.writeStrAt_cell _ h, if_neg (by omega), Vga.putAt_cell _ h, if_neg (by omega), Vga.writeStrAt_cell _ h,
    if_neg (by omega), Vga.putAt_cell _ h, if_neg (by omega), Vga.writeStrAt_cell _ h, if_neg (by omega),
    Vga.putAt_cell _ h, if_neg (by omega)]

theorem openWindow_title {appname sub : List UInt8} (happ : 0 ∉ appname) (hsub : 0 ∉ sub) (hy : y = titlerow)
    (hx : x < 68) (v : Vga) : (openWindow appname sub v).cell x y =
      entry ((windowTitle appname sub).getD x.toNat 0) (entryColor Vga.white Vga.magenta) := by
  have hchars : (CStr.ofChars (windowTitle appname sub)).chars = windowTitle appname sub :=
    List.takeWhile_eq_self_iff.mpr fun c hc => decide_eq_true fun hzero =>
      zero_not_mem_windowTitle happ hsub (hzero ▸ hc)
  have hlength := windowTitle_length appname sub
  have hrow : y ≠ statrow := by
    rw [hy]
    decide
  unfold openWindow
  dsimp only
  generalize CStr.ofChars (windowTitle appname sub) = title at hchars ⊢
  rw [Vga.writeStrAt_cell _ h, if_neg (by omega), Vga.writeStrAt_cell _ h, if_neg (by omega),
    Vga.fillRect_cell _ h _ _ (by decide) (by decide), if_neg (by omega), Vga.putAt_cell _ h, if_neg (by omega),
    Vga.writeStrAt_cell _ h, if_neg (by omega), Vga.putAt_cell _ h, if_neg (by omega), Vga.writeStrAt_cell _ h,
    if_neg (by omega), Vga.writeStrAt_cell _ h, if_neg (by omega), Vga.putAt_cell _ h, if_neg (by omega),
    Vga.writeStrAt_cell _ h, hchars, if_pos (by
      rw [hlength]
      exact ⟨hy, h.1.1, by omega⟩), Int.sub_zero]

end Panel

/-! ### The terminal's window -/

/-- The title bar has the title, and the panel the colors of its buttons. -/
structure Framed (ws app : Int) (title : List UInt8) (v : Vga) : Prop where
  title : ∀ x, 0 ≤ x → x < 68 → v.cell x titlerow = entry (title.getD x.toNat 0) (entryColor Vga.white Vga.magenta)
  task : ∀ i, 0 ≤ i → i < 3 → ∀ x, 10 + i * 11 ≤ x → x < 10 + i * 11 + 11 →
    Vga.color (v.cell x panrow) = entryColor (taskFg app i) (taskBg app i)
  pager : ∀ i, 0 ≤ i → i < 4 → ∀ x, 44 + i * 3 ≤ x → x < 44 + i * 3 + 3 →
    Vga.color (v.cell x panrow) = entryColor (pagerFg ws i) (pagerBg ws i)

/-- The colors tell which task and which desktop are active. -/
structure Marks (ws app : Int) (v : Vga) : Prop where
  task : ∀ i, 0 ≤ i → i < 3 → ∀ x, 10 + i * 11 ≤ x → x < 10 + i * 11 + 11 →
    (Vga.color (v.cell x panrow) = entryColor Vga.white Vga.blue ↔ i = app)
  desktop : ∀ i, 0 ≤ i → i < 4 → ∀ x, 44 + i * 3 ≤ x → x < 44 + i * 3 + 3 →
    (Vga.color (v.cell x panrow) = entryColor Vga.white Vga.lightGrey ↔ i = ws)

theorem task_active (app i : Int) :
    entryColor (taskFg app i) (taskBg app i) = entryColor Vga.white Vga.blue ↔ i = app := by
  unfold taskFg taskBg
  rw [eq_comm (a := i)]
  split_ifs with h
  · exact iff_of_true rfl h
  · exact iff_of_false (by decide) h

theorem pager_active (ws i : Int) :
    entryColor (pagerFg ws i) (pagerBg ws i) = entryColor Vga.white Vga.lightGrey ↔ i = ws := by
  unfold pagerFg pagerBg
  rw [eq_comm (a := i)]
  split_ifs with h
  · exact iff_of_true rfl h
  · exact iff_of_false (by decide) h

theorem Framed.marks {ws app : Int} {title : List UInt8} {v : Vga} (h : Framed ws app title v) :
    Marks ws app v := by
  refine ⟨fun i hi hi' x hlo hhi => ?_, fun i hi hi' x hlo hhi => ?_⟩
  · rw [h.task i hi hi' x hlo hhi]
    exact task_active app i
  · rw [h.pager i hi hi' x hlo hhi]
    exact pager_active ws i

theorem drawPanel_framed (ws app : Int) {appname sub : List UInt8} (happ : 0 ∉ appname) (hsub : 0 ∉ sub)
    (v : Vga) :
    Framed ws app (windowTitle appname sub) (drawPanel ws app (openWindow appname sub v)) := by
  have hpanel {x : Int} (hlo : 0 ≤ x) (hhi : x < 80) : OnScreen x panrow := ⟨⟨hlo, hhi⟩, by decide, by decide⟩
  refine ⟨fun x hlo hhi => ?_, fun i hi hi' x hlo hhi => ?_, fun i hi hi' x hlo hhi => ?_⟩
  · have hx : OnScreen x titlerow := ⟨⟨hlo, hhi.trans (by decide)⟩, by decide, by decide⟩
    rw [drawPanel_outside hx ws app (by decide)]
    exact openWindow_title hx happ hsub rfl hhi v
  · have hx := hpanel (x := x) (by omega) (by omega)
    rw [drawPanel_buttons hx ws app (by omega), pagers_outside hx ws (.inr (by omega)), Vga.putAt_cell _ hx,
      if_neg (by omega)]
    exact tasks_color hx app ⟨hi, hi'⟩ rfl ⟨hlo, hhi⟩ _
  · have hx := hpanel (x := x) (by omega) (by omega)
    rw [drawPanel_buttons hx ws app (by omega)]
    exact pagers_color hx ws ⟨hi, hi'⟩ rfl ⟨hlo, hhi⟩ _

/-- Neither the title bar nor the panel has been drawn in since `v`. -/
def FrameKept (v v' : Vga) : Prop := ∀ x y, OnScreen x y → y = titlerow ∨ y = panrow → v'.cell x y = v.cell x y

theorem Framed.kept {ws app : Int} {title : List UInt8} {v v' : Vga} (h : Framed ws app title v)
    (hkept : FrameKept v v') : Framed ws app title v' := by
  have hrow {x y : Int} (hlo : 0 ≤ x) (hhi : x < 80) (hy : y = titlerow ∨ y = panrow) :
      v'.cell x y = v.cell x y := by
    refine hkept x y ⟨⟨hlo, hhi⟩, ?_⟩ hy
    rcases hy with rfl | rfl <;> decide
  refine ⟨fun x hlo hhi => ?_, fun i hi hi' x hlo hhi => ?_, fun i hi hi' x hlo hhi => ?_⟩
  · rw [hrow hlo (by omega) (.inl rfl)]
    exact h.title x hlo hhi
  · rw [hrow (by omega) (by omega) (.inr rfl)]
    exact h.task i hi hi' x hlo hhi
  · rw [hrow (by omega) (by omega) (.inr rfl)]
    exact h.pager i hi hi' x hlo hhi

/-! ### Drawing in a window -/

namespace FrameKept
variable {v v' : Vga} {y' : Int}

theorem refl (v : Vga) : FrameKept v v := fun _ _ _ _ => rfl

theorem of_drawn (h : Vga.Drawn ctop cbot v v') : FrameKept v v' := by
  intro x y hx hy
  refine h.outside _ ?_
  rw [Vga.Drawn.row_of_cell hx.1]
  rcases hy with rfl | rfl <;> decide

theorem ne_row (hrow : ctop ≤ y' ∧ y' ≤ statrow) {y : Int} (hy : y = titlerow ∨ y = panrow) : y ≠ y' := by
  unfold ctop statrow at hrow
  unfold titlerow panrow at hy
  omega

theorem putAt (h : FrameKept v v') (hrow : ctop ≤ y' ∧ y' ≤ statrow) (x' : Int) (c fg bg : UInt8) :
    FrameKept v (v'.putAt x' y' c fg bg) := by
  intro x y hx hy
  rw [Vga.putAt_cell _ hx, if_neg fun hat => ne_row hrow hy hat.2]
  exact h x y hx hy

theorem writeStrAt (h : FrameKept v v') (hrow : ctop ≤ y' ∧ y' ≤ statrow) (x' : Int) (s : CStr) (fg bg : UInt8) :
    FrameKept v (v'.writeStrAt x' y' (some s) fg bg) := by
  intro x y hx hy
  rw [Vga.writeStrAt_cell _ hx, if_neg fun hat => ne_row hrow hy hat.1]
  exact h x y hx hy

theorem fillRect (h : FrameKept v v') {w h' : Int} (hrow : ctop ≤ y' ∧ y' + h' ≤ panrow) (hw : 0 ≤ w) (hh : 0 ≤ h')
    (x' : Int) (c fg bg : UInt8) : FrameKept v (v'.fillRect x' y' w h' c fg bg) := by
  intro x y hx hy
  rw [Vga.fillRect_cell _ hx _ _ hw hh, if_neg ?_]
  · exact h x y hx hy
  · unfold ctop at hrow
    unfold titlerow at hy
    omega

theorem hline (h : FrameKept v v') (hrow : ctop ≤ y' ∧ y' ≤ statrow) (x' w : Int) (fg bg : UInt8) :
    FrameKept v (hline x' y' w fg bg v') :=
  Foundation.forUp_invariant (P := FrameKept v) (fun _ _ _ _ hs => hs.putAt hrow _ _ _ _) h

theorem bbox (h : FrameKept v v') {h' : Int} (hrow : ctop ≤ y' ∧ y' + h' ≤ panrow) (hh : 0 < h') (x' : Int)
    {w : Int} (hw : 2 ≤ w) (fg bg : UInt8) : FrameKept v (bbox x' y' w h' fg bg v') := by
  have hstat : statrow + 1 = panrow := rfl
  have htop : ctop ≤ y' ∧ y' ≤ statrow := by omega
  have hbottom : ctop ≤ y' + h' - 1 ∧ y' + h' - 1 ≤ statrow := by omega
  have hcorners := (((h.putAt htop x' 0xDA fg bg).putAt htop (x' + w - 1) 0xBF fg bg).putAt hbottom
    x' 0xC0 fg bg).putAt hbottom (x' + w - 1) 0xD9 fg bg
  refine Foundation.forUp_invariant (P := FrameKept v) (fun j s hlo hhi hs => ?_)
    (Foundation.forUp_invariant (P := FrameKept v) (fun i s _ _ hs => ?_) hcorners)
  · have hside : ctop ≤ y' + j ∧ y' + j ≤ statrow := by omega
    exact ((hs.putAt hside _ _ _ _).putAt hside _ _ _ _).fillRect (by omega) (by omega) (by decide) _ _ _ _
  · exact (FrameKept.putAt hs htop _ _ _ _).putAt hbottom _ _ _ _

theorem titbox (h : FrameKept v v') {h' : Int} (hrow : ctop ≤ y' ∧ y' + h' ≤ panrow) (hh : 0 < h') (x' : Int)
    {w : Int} (hw : 2 ≤ w) (title : CStr) (fg bg : UInt8) : FrameKept v (titbox x' y' w h' title fg bg v') := by
  have hstat : statrow + 1 = panrow := rfl
  have htop : ctop ≤ y' ∧ y' ≤ statrow := by omega
  exact (((h.bbox hrow hh x' hw fg bg).putAt htop _ _ _ _).writeStrAt htop _ _ _ _).putAt htop _ _ _ _

end FrameKept

/-! ### The terminal -/

theorem out_keeps {t b : Int} (o : Out) : Vga.Keeps t b o.draw := by
  cases o with
  | putchar c => exact Vga.putchar_keeps c
  | backspace => exact Vga.backspace_keeps
  | clear => exact Vga.clear_keeps
  | setColor fg bg => exact Vga.setColor_keeps fg bg

/-- The viewport is taken with the window drawn; clearing it leaves the frame and puts the cursor inside. -/
theorem openTerminal_framed (ws : Int) (v : Vga) :
    Framed ws 0 (windowTitle (lit "Konsole") (lit "FurOS Terminal")) (openTerminal ws v) ∧
      Vga.Inside ctop cbot (openTerminal ws v) := by
  have hrange : 0 ≤ ctop ∧ ctop ≤ cbot ∧ cbot ≤ 24 := by decide
  have happ : 0 ∉ lit "Konsole" := by decide
  have hsub : 0 ∉ lit "FurOS Terminal" := by decide
  have hframed := drawPanel_framed ws 0 happ hsub v
  unfold openTerminal
  dsimp only
  generalize drawPanel ws 0 (openWindow (lit "Konsole") (lit "FurOS Terminal") v) = s at hframed ⊢
  have htop : ((s.setViewport ctop cbot).setColor Vga.lightGrey Vga.black).vpTop = ctop := by
    rw [Vga.setViewport_eq hrange]
    rfl
  have hbot : ((s.setViewport ctop cbot).setColor Vga.lightGrey Vga.black).vpBot = cbot := by
    rw [Vga.setViewport_eq hrange]
    rfl
  have hview : Framed ws 0 (windowTitle (lit "Konsole") (lit "FurOS Terminal"))
      ((s.setViewport ctop cbot).setColor Vga.lightGrey Vga.black) := by
    rw [Vga.setViewport_eq hrange]
    exact ⟨hframed.title, hframed.task, hframed.pager⟩
  obtain ⟨hcleared, hinside⟩ := Vga.clear_drawn htop hbot hrange.2.1
  exact ⟨hview.kept (.of_drawn hcleared), hinside⟩

/-- **The terminal keeps to its window.** Whatever the shell writes, the bar still has the title, the
panel still shows which desktop and which task are active, and the cursor is between the two. -/
theorem terminal_chrome (ws : Int) (v : Vga) (text : Text) :
    Framed ws 0 (windowTitle (lit "Konsole") (lit "FurOS Terminal")) (draw text (openTerminal ws v)) ∧
      Marks ws 0 (draw text (openTerminal ws v)) ∧
      ctop ≤ (draw text (openTerminal ws v)).terminalRow ∧ (draw text (openTerminal ws v)).terminalRow ≤ cbot := by
  obtain ⟨hframed, hinside⟩ := openTerminal_framed ws v
  obtain ⟨hdrawn, hin⟩ := Vga.foldl_keeps out_keeps text _ hinside
  have hframe := hframed.kept (.of_drawn hdrawn)
  exact ⟨hframe, hframe.marks, hin.row⟩

/-! ### The editor -/

theorem kateRow_kept {v : Vga} (vscroll : Int) {row : Int} (hrow : 0 ≤ row ∧ row < kateVrows) {s : KateRows}
    (h : FrameKept v s.screen) : FrameKept v (kateRow vscroll row s).screen := by
  have hy : ctop ≤ ctop + 1 + row ∧ ctop + 1 + row ≤ statrow := by
    unfold kateVrows at hrow
    unfold ctop statrow
    omega
  have hfill : ctop ≤ ctop + 1 + row ∧ ctop + 1 + row + 1 ≤ panrow := ⟨hy.1, Int.add_le_add_right hy.2 1⟩
  exact ((h.fillRect hfill (by decide) (by decide) _ _ _ _).writeStrAt hy _ _ _ _).writeStrAt hy _ _ _ _

theorem kateTabBar_kept {v v' : Vga} (h : FrameKept v v') (k : Kate) : FrameKept v (kateTabBar k v') := by
  have hrow : ctop ≤ ctop ∧ ctop ≤ statrow := by decide
  have hcleared : FrameKept v (v'.fillRect 0 ctop Vga.width 1 32 Vga.white Vga.darkGrey) :=
    h.fillRect (by decide) (by decide) (by decide) _ _ _ _
  have hname := (hcleared.writeStrAt hrow 1 (.ofLit " [") Vga.white Vga.black).writeStrAt hrow 3 k.fname
    Vga.lightCyan Vga.black
  unfold kateTabBar
  dsimp only
  refine (FrameKept.writeStrAt ?_ hrow _ _ _ _).writeStrAt hrow _ _ _ _
  split_ifs
  · exact hname.putAt hrow _ _ _ _
  · exact hname

theorem kateStatusBar_kept {v v' : Vga} (h : FrameKept v v') (ln col : Nat) (lnb clb : Fin 16 → UInt8) :
    FrameKept v (kateStatusBar ln col lnb clb v') := by
  have hrow : ctop ≤ ctop + 1 + kateVrows + 1 ∧ ctop + 1 + kateVrows + 1 ≤ statrow := by decide
  exact ((h.fillRect (by decide) (by decide) (by decide) _ _ _ _).writeStrAt hrow _ _ _ _).writeStrAt hrow _ _ _ _

theorem kateCursor_kept {v v' : Vga} (h : FrameKept v v') (ln col vscroll : Int) :
    FrameKept v (kateCursor ln col vscroll v') := fun x y hx hy => h x y hx hy

theorem kateDraw_kept (k : Kate) (vscroll : Int) (nb lnb clb : Fin 16 → UInt8) (v : Vga) :
    FrameKept v (kateDraw k vscroll nb lnb clb v).2 := by
  have hline : ctop ≤ ctop + 1 + kateVrows ∧ ctop + 1 + kateVrows ≤ statrow := by decide
  have hcleared : FrameKept v
      ((kateTabBar k v).fillRect 0 (ctop + 1) Vga.width kateVrows 32 Vga.lightGrey Vga.black) :=
    (kateTabBar_kept (.refl v) k).fillRect (by decide) (by decide) (by decide) _ _ _ _
  unfold kateDraw
  dsimp only
  refine kateCursor_kept (kateStatusBar_kept (FrameKept.hline ?_ hline _ _ _ _) _ _ _ _) _ _ _
  refine Foundation.forUp_invariant (P := fun (s : KateRows) => FrameKept v s.screen)
    (fun row s hlo hhi hs => kateRow_kept _ ⟨hlo, hhi⟩ hs) ?_
  dsimp only
  exact hcleared

/-! ### The file manager -/

theorem fmRowsFrom_kept {v : Vga} (t : Nodes) (m : FmVars) (rounds : Nat) {i : Int}
    (hi : 0 ≤ i ∧ i + rounds ≤ fmRows) {s s' : Vga} (h : FrameKept v s)
    (hok : fmRowsFrom t m rounds i s = .ok s') : FrameKept v s' := by
  induction rounds generalizing i s with
  | zero =>
    cases hok
    exact h
  | succ rounds ih =>
    rw [fmRowsFrom] at hok
    split at hok
    · cases hok
      exact h
    · obtain ⟨s₁, hrow, hrest⟩ := Foundation.bind_eq_ok.mp hok
      have hy : ctop ≤ ctop + 2 + i ∧ ctop + 2 + i ≤ statrow := by
        unfold fmRows at hi
        unfold ctop statrow
        omega
      refine ih (by omega) ?_ hrest
      unfold fmRow at hrow
      obtain ⟨node, -, hrow⟩ := Foundation.bind_eq_ok.mp hrow
      obtain ⟨name, -, hrow⟩ := Foundation.bind_eq_ok.mp hrow
      cases hrow
      exact h.writeStrAt hy _ _ _ _

theorem fmHeader_kept {v v' : Vga} (h : FrameKept v v') (path : CStr) : FrameKept v (fmHeader path v') := by
  have hrow : ctop ≤ ctop ∧ ctop ≤ statrow := by decide
  exact (((h.fillRect (by decide) (by decide) (by decide) _ _ _ _).writeStrAt hrow _ _ _ _).writeStrAt hrow _ _ _
    _).hline (by decide) _ _ _ _

theorem fmStatus_kept {v v' : Vga} (h : FrameKept v v') (nent : Int) (stbuf : Fin 16 → UInt8) :
    FrameKept v (fmStatus nent stbuf v') := by
  have hrow : ctop ≤ ctop + 2 + fmRows + 1 ∧ ctop + 2 + fmRows + 1 ≤ statrow := by decide
  have hline : ctop ≤ ctop + 2 + fmRows ∧ ctop + 2 + fmRows ≤ statrow := by decide
  exact (((h.hline hline _ _ _ _).fillRect (by decide) (by decide) (by decide) _ _ _ _).writeStrAt hrow _ _ _
    _).writeStrAt hrow _ _ _ _

theorem fmDraw_kept {t : Nodes} {m : FmVars} {pathbuf : Fin 80 → UInt8} {stbuf : Fin 16 → UInt8} {v v' : Vga}
    (hok : fmDraw t m pathbuf stbuf v = .ok v') : FrameKept v v' := by
  unfold fmDraw at hok
  obtain ⟨⟨r, out⟩, -, hok⟩ := Foundation.bind_eq_ok.mp hok
  obtain ⟨s, hrows, hok⟩ := Foundation.bind_eq_ok.mp hok
  cases hok
  have hheader := fmHeader_kept (.refl v) (.ofChars (List.ofFn (storedInto pathbuf out)))
  exact fmStatus_kept (fmRowsFrom_kept t m _ (by decide)
    (hheader.fillRect (by decide) (by decide) (by decide) _ _ _ _) hrows) _ _

theorem fmText_kept {v : Vga} (data : Fin 4096 → UInt8) (rounds : Nat) {ci row col : Int} (hrow : 0 ≤ row)
    {s s' : Vga} (h : FrameKept v s) (hok : fmText data rounds ci row col s = .ok s') : FrameKept v s' := by
  induction rounds generalizing ci row col s with
  | zero =>
    cases hok
    exact h
  | succ rounds ih =>
    rw [fmText] at hok
    split at hok
    · rename_i hfull
      obtain ⟨ch, -, hok⟩ := Foundation.bind_eq_ok.mp hok
      split at hok
      · exact ih (by omega) h hok
      split at hok
      · have hy : ctop ≤ ctop + 1 + row ∧ ctop + 1 + row ≤ statrow := by
          unfold ctop statrow
          omega
        exact ih hrow (h.putAt hy _ _ _ _) hok
      · exact ih hrow h hok
    · cases hok
      exact h

theorem fmView_kept {w : FmView} {v v' : Vga} (hok : w.draw v = .ok v') : FrameKept v v' := by
  have hbox : FrameKept v (titbox 4 ctop (Vga.width - 8) (cbot - ctop + 1) w.name Vga.lightGrey Vga.black v) :=
    (FrameKept.refl v).titbox (by decide) (by decide) _ (by decide) _ _ _
  have hcleared : FrameKept v ((titbox 4 ctop (Vga.width - 8) (cbot - ctop + 1) w.name Vga.lightGrey Vga.black
      v).fillRect (4 + 1) (ctop + 1) (Vga.width - 8 - 2) (cbot - ctop + 1 - 2) 32 Vga.lightGrey Vga.black) :=
    hbox.fillRect (by decide) (by decide) (by decide) _ _ _ _
  unfold FmView.draw at hok
  dsimp only at hok
  split at hok
  · cases hok
    exact hcleared.writeStrAt (by decide) _ _ _ _
  · obtain ⟨ci, -, hok⟩ := Foundation.bind_eq_ok.mp hok
    exact fmText_kept _ _ (by decide) hcleared hok

/-! ### The windows -/

/-- What the editor and the file manager draw in a round of their loops. -/
inductive WindowDraw (v : Vga) : Vga → Prop
  | kate (k : Kate) (vscroll : Int) (nb lnb clb : Fin 16 → UInt8) :
      WindowDraw v (kateDraw k vscroll nb lnb clb v).2
  | browse {t : Nodes} {m : FmVars} {pathbuf : Fin 80 → UInt8} {stbuf : Fin 16 → UInt8} {v' : Vga}
      (h : fmDraw t m pathbuf stbuf v = .ok v') : WindowDraw v v'
  | view {w : FmView} {v' : Vga} (h : w.draw v = .ok v') : WindowDraw v v'

theorem WindowDraw.kept {v v' : Vga} (h : WindowDraw v v') : FrameKept v v' := by
  cases h with
  | kate k vscroll nb lnb clb => exact kateDraw_kept k vscroll nb lnb clb v
  | browse h => exact fmDraw_kept h
  | view h => exact fmView_kept h

/-- **The editor and the file manager keep to their windows.** Whatever they show, one round after
another, the bar still has the title and the panel still shows which desktop and which task are active. -/
theorem window_chrome (ws app : Int) {appname sub : List UInt8} (happ : 0 ∉ appname) (hsub : 0 ∉ sub) (v v' : Vga)
    (h : Relation.ReflTransGen WindowDraw (drawPanel ws app (openWindow appname sub v)) v') :
    Framed ws app (windowTitle appname sub) v' ∧ Marks ws app v' := by
  have hframed : Framed ws app (windowTitle appname sub) v' := by
    induction h with
    | refl => exact drawPanel_framed ws app happ hsub v
    | tail _ hdraw ih => exact ih.kept hdraw.kept
  exact ⟨hframed, hframed.marks⟩

theorem window_chrome_opened : Marks 2 (-1) (kateDraw (Kate.opened 0) 0 (fun _ => 0) (fun _ => 0) (fun _ => 0)
    (drawPanel 2 (-1) (openWindow (lit "Kate") (lit "untitled.txt") Vga.initial))).2 :=
  (window_chrome 2 (-1) (by decide) (by decide) Vga.initial _
    (.single (.kate (Kate.opened 0) 0 (fun _ => 0) (fun _ => 0) fun _ => 0))).2

end FurOS.Desktop
