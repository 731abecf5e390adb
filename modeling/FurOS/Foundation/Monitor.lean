import FurOS.Foundation.Metered

/-! Watching what a computation asks for.

A monitor sees the requests of a computation, one after the other, and keeps what it needs to say
of each whether it may be made. `Watched` is a triple: from a state of the monitor with the one
property, whatever is answered, only such requests are made, and the other property holds of the result and
of the monitor's state in the end. There is one rule for each way to put computations together.
A monitor that sees nothing leaves a property of the results alone (`Gives`). -/
namespace Foundation

structure Monitor (R A M : Type) where
  next : M → Event R A → M
  allows : M → Event R A → Prop

namespace Monitor
variable {R A M α β : Type} {mon : Monitor R A M} {m : M} {log log' : List (Event R A)}

/-- The state after these requests. -/
def after (mon : Monitor R A M) (m : M) (log : List (Event R A)) : M := log.foldl mon.next m

/-- Each of the requests may be made when it is. -/
def Accepts (mon : Monitor R A M) : M → List (Event R A) → Prop
  | _, [] => True
  | m, e :: log => mon.allows m e ∧ Accepts mon (mon.next m e) log

theorem after_append : mon.after m (log ++ log') = mon.after (mon.after m log) log' := List.foldl_append

theorem accepts_append : mon.Accepts m (log ++ log') ↔ mon.Accepts m log ∧ mon.Accepts (mon.after m log) log' := by
  induction log generalizing m with
  | nil => simp [Accepts, after]
  | cons e log ih =>
    rw [List.cons_append, Accepts, Accepts, ih, and_assoc]
    rfl

/-- From `P` only requests that may be made, and then `Q`. -/
def Watched (mon : Monitor R A M) (P : M → Prop) (p : Metered R A α) (Q : α → M → Prop) : Prop :=
  ∀ σ a log m, p.Runs σ a log → P m → mon.Accepts m log ∧ Q a (mon.after m log)

namespace Watched
variable {P P' : M → Prop} {p q : Metered R A α} {f : α → Metered R A β} {Q Q' : α → M → Prop}
  {L : β → M → Prop}

theorem pure {a : α} (h : ∀ m, P m → Q a m) : mon.Watched P (Pure.pure a) Q := by
  intro σ b log m hrun hpre
  obtain ⟨rfl, rfl⟩ := Metered.runs_pure.mp hrun
  exact ⟨trivial, h m hpre⟩

theorem tell {r : R} {Q : Unit → M → Prop}
    (h : ∀ m, P m → mon.allows m (.told r) ∧ Q () (mon.next m (.told r))) :
    mon.Watched P (Metered.tell r) Q := by
  intro σ u log m hrun hpre
  rw [Metered.runs_tell.mp hrun]
  exact ⟨⟨(h m hpre).1, trivial⟩, (h m hpre).2⟩

theorem ask {r : R} {Q : A → M → Prop}
    (h : ∀ m a, P m → mon.allows m (.asked r a) ∧ Q a (mon.next m (.asked r a))) :
    mon.Watched P (Metered.ask r) Q := by
  intro σ b log m hrun hpre
  obtain ⟨rfl, rfl⟩ := Metered.runs_ask.mp hrun
  exact ⟨⟨(h m _ hpre).1, trivial⟩, (h m _ hpre).2⟩

/-- One after the other. -/
theorem bind (h : mon.Watched P p Q) (hf : ∀ a, mon.Watched (Q a) (f a) L) :
    mon.Watched P (p >>= f) L := by
  intro σ b log m hrun hpre
  obtain ⟨a, front, back, hp, hback, rfl⟩ := Metered.runs_bind.mp hrun
  obtain ⟨hfront, hpost⟩ := h σ a front m hp hpre
  obtain ⟨hrest, hlast⟩ := hf a _ b back _ hback hpost
  refine ⟨accepts_append.mpr ⟨hfront, hrest⟩, ?_⟩
  rw [after_append]
  exact hlast

/-- A request whose answer is passed on in part. -/
theorem ask_pure {r : R} {g : A → α} (h : ∀ m a, P m →
    mon.allows m (.asked r a) ∧ Q (g a) (mon.next m (.asked r a))) :
    mon.Watched P (Metered.ask r >>= fun a => Pure.pure (g a)) Q :=
  bind (ask (Q := fun a m => Q (g a) m) h) fun _ => pure fun _ hpost => hpost

theorem mono (h : mon.Watched P p Q) (hpre : ∀ m, P' m → P m) (hpost : ∀ a m, Q a m → Q' a m) :
    mon.Watched P' p Q' := by
  intro σ a log m hrun hm
  obtain ⟨haccepts, hend⟩ := h σ a log m hrun (hpre m hm)
  exact ⟨haccepts, hpost a _ hend⟩

theorem imp (h : mon.Watched P p Q) (hpost : ∀ a m, Q a m → Q' a m) : mon.Watched P p Q' :=
  h.mono (fun _ hm => hm) hpost

/-- It is enough to start from one state at a time. -/
theorem of_point (h : ∀ m, P m → mon.Watched (fun m' => m' = m) p Q) : mon.Watched P p Q :=
  fun σ a log m hrun hm => h m hm σ a log m hrun rfl

theorem ite {c : Prop} [Decidable c] (hp : c → mon.Watched P p Q) (hq : ¬ c → mon.Watched P q Q) :
    mon.Watched P (if c then p else q) Q := by
  split
  · exact hp ‹_›
  · exact hq ‹_›

/-- A loop over a list with an invariant. -/
theorem foldlM {ι : Type} {body : α → ι → Metered R A α} {inv : α → M → Prop}
    (h : ∀ a i, mon.Watched (inv a) (body a i) inv) (l : List ι) (a : α) :
    mon.Watched (inv a) (l.foldlM body a) inv := by
  induction l generalizing a with
  | nil => exact pure fun _ hm => hm
  | cons i l ih => exact (h a i).bind ih

/-- Requests that all may be made, and that the monitor takes no notice of. -/
theorem quiet {E : Event R A → Prop} {inv : M → Prop} (hp : Metered.Emits E p)
    (h : ∀ m e, E e → inv m → mon.allows m e ∧ inv (mon.next m e)) : mon.Watched inv p fun _ => inv := by
  intro σ a log m hrun hm
  have hall := hp σ a log hrun
  clear hrun
  induction log generalizing m with
  | nil => exact ⟨trivial, hm⟩
  | cons e log ih =>
    obtain ⟨hallows, hnext⟩ := h m e (hall e List.mem_cons_self) hm
    obtain ⟨haccepts, hend⟩ := ih _ hnext fun e' he' => hall e' (List.mem_cons_of_mem e he')
    exact ⟨⟨hallows, haccepts⟩, hend⟩

end Watched

end Monitor

/-- Whatever is answered, the result has the property. -/
def Gives {R A α : Type} (p : Metered R A α) (Q : α → Prop) : Prop := ∀ σ a log, p.Runs σ a log → Q a

theorem Monitor.Watched.gives {R A M α : Type} {mon : Monitor R A M} {P : M → Prop} {p : Metered R A α}
    {Q : α → M → Prop} {G : α → Prop} (h : mon.Watched P p Q) (hg : Gives p G) :
    mon.Watched P p fun a m => G a ∧ Q a m := by
  intro σ a log m hrun hm
  obtain ⟨haccepts, hpost⟩ := h σ a log m hrun hm
  exact ⟨haccepts, hg σ a log hrun, hpost⟩

namespace Gives
variable {R A α β : Type} {p q : Metered R A α} {f : α → Metered R A β} {Q Q' : α → Prop} {L : β → Prop}

theorem pure {a : α} (h : Q a) : Gives (R := R) (A := A) (Pure.pure a) Q := by
  intro σ b log hrun
  rwa [(Metered.runs_pure.mp hrun).1]

theorem any (p : Metered R A α) : Gives p fun _ => True := fun _ _ _ _ => trivial

theorem bind (h : Gives p Q) (hf : ∀ a, Q a → Gives (f a) L) : Gives (p >>= f) L := by
  intro σ b log hrun
  obtain ⟨a, front, back, hp, hback, rfl⟩ := Metered.runs_bind.mp hrun
  exact hf a (h σ a front hp) _ b back hback

/-- A first computation of whose result nothing is needed. -/
theorem then_ (hf : ∀ a, Gives (f a) L) : Gives (p >>= f) L := (any p).bind fun a _ => hf a

theorem imp (h : Gives p Q) (hpost : ∀ a, Q a → Q' a) : Gives p Q' :=
  fun σ a log hrun => hpost a (h σ a log hrun)

theorem ite {c : Prop} [Decidable c] (hp : c → Gives p Q) (hq : ¬ c → Gives q Q) :
    Gives (if c then p else q) Q := by
  split
  · exact hp ‹_›
  · exact hq ‹_›

/-- Requests of one kind, where the second computation makes them only after such a result. -/
theorem emits_bind {E : Event R A → Prop} (h : Gives p Q) (hp : Metered.Emits E p)
    (hf : ∀ a, Q a → Metered.Emits E (f a)) : Metered.Emits E (p >>= f) := by
  intro σ b log hrun e he
  obtain ⟨a, front, back, hfront, hback, rfl⟩ := Metered.runs_bind.mp hrun
  rcases List.mem_append.mp he with he | he
  · exact hp σ a front hfront e he
  · exact hf a (h σ a front hfront) _ b back hback e he

/-- A bound for the second computation that is one after such a result. -/
theorem bounded_bind {n m : Nat} (h : Gives p Q) (hp : p.Bounded n) (hf : ∀ a, Q a → (f a).Bounded m) :
    (p >>= f).Bounded (n + m) := fun σ => (hp σ).bind fun a log hrun => hf a (h σ a log hrun) _

theorem within {R' : Type} (g : R → R') (h : Gives p Q) : Gives (p.within g) Q := by
  intro σ a log hrun
  obtain ⟨log', hp, _⟩ := (Metered.runs_within g).mp hrun
  exact h σ a log' hp

theorem foldlM {ι : Type} {body : α → ι → Metered R A α} (h : ∀ a i, Q a → Gives (body a i) Q) (l : List ι)
    (a : α) (ha : Q a) : Gives (l.foldlM body a) Q := by
  induction l generalizing a with
  | nil => exact pure ha
  | cons i l ih => exact (h a i ha).bind ih

/-- A loop over a list with an invariant that says how far it is. -/
theorem foldlM_split {ι : Type} {body : α → ι → Metered R A α} {inv : List ι → α → Prop} (l : List ι)
    (h : ∀ front i back, l = front ++ i :: back → ∀ a, inv front a → Gives (body a i) (inv (front ++ [i])))
    (a : α) (ha : inv [] a) : Gives (l.foldlM body a) (inv l) := by
  have hrest : ∀ back front a, l = front ++ back → inv front a → Gives (back.foldlM body a) (inv l) := by
    intro back
    induction back with
    | nil =>
      intro front a hl hinv
      rw [hl, List.append_nil]
      exact pure hinv
    | cons i back ih =>
      intro front a hl hinv
      rw [List.foldlM_cons]
      exact (h front i back hl a hinv).bind fun a ha => ih (front ++ [i]) a (by simpa using hl) ha
  exact hrest l [] a rfl ha

end Gives

end Foundation
