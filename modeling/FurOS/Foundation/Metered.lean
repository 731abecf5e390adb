import Mathlib.Data.List.Basic

/-! Computations that put requests to an environment.

A request is told, or it is asked and answered; the answers are a sequence that is given from outside, the
next of them for each request that is asked. `run` is given a budget, and has no result where more requests
are made: a computation that never ends has none with any budget. `Runs` says what it returns and the
requests it makes until then, and has one rule for each way to put computations together. -/
namespace Foundation

/-- A request as it was made. -/
inductive Event (R A : Type) where
  | told (r : R)
  | asked (r : R) (a : A)

namespace Event
variable {R A : Type}

def isAsked : Event R A → Bool
  | told _ => false
  | asked _ _ => true

/-- The answers that are left after these requests. -/
def rest (σ : Nat → A) (log : List (Event R A)) : Nat → A := fun n => σ (log.countP isAsked + n)

@[simp] theorem rest_nil (σ : Nat → A) : rest (R := R) σ [] = σ := by
  funext n
  simp [rest]

@[simp] theorem rest_told (σ : Nat → A) (r : R) : rest σ [told r] = σ := by
  funext n
  simp [rest, isAsked]

@[simp] theorem rest_asked (σ : Nat → A) (r : R) (a : A) : rest σ [asked r a] = fun n => σ (n + 1) := by
  funext n
  simp [rest, isAsked, Nat.add_comm]

theorem rest_append (σ : Nat → A) (log log' : List (Event R A)) :
    rest σ (log ++ log') = rest (rest σ log) log' := by
  funext n
  simp [rest, Nat.add_assoc]

/-- A request of a part, as one of the whole. -/
def map {R' : Type} (g : R → R') : Event R A → Event R' A
  | told r => told (g r)
  | asked r a => asked (g r) a

end Event

/-- A computation with a budget of requests: it has a result for every budget that covers the requests it
makes, and for no other. -/
structure Metered (R A α : Type) where
  run : (Nat → A) → Nat → Option (α × List (Event R A))
  exact : ∀ {σ n x}, run σ n = some x → x.2.length ≤ n ∧ ∀ m, x.2.length ≤ m → run σ m = some x

namespace Metered
variable {R A α β : Type}

protected def pure (a : α) : Metered R A α where
  run _ _ := some (a, [])
  exact h := by
    cases h
    exact ⟨Nat.zero_le _, fun _ _ => rfl⟩

def tell (r : R) : Metered R A Unit where
  run _ n := if n = 0 then none else some ((), [.told r])
  exact {σ n x} h := by
    split at h
    · cases h
    · cases h
      exact ⟨Nat.one_le_iff_ne_zero.mpr ‹_›, fun m hm => if_neg (Nat.one_le_iff_ne_zero.mp hm)⟩

def ask (r : R) : Metered R A A where
  run σ n := if n = 0 then none else some (σ 0, [.asked r (σ 0)])
  exact {σ n x} h := by
    split at h
    · cases h
    · cases h
      exact ⟨Nat.one_le_iff_ne_zero.mpr ‹_›, fun m hm => if_neg (Nat.one_le_iff_ne_zero.mp hm)⟩

/-- The second computation has what the first leaves of the budget and of the answers. -/
protected def bind (p : Metered R A α) (f : α → Metered R A β) : Metered R A β where
  run σ n :=
    (p.run σ n).bind fun x =>
      ((f x.1).run (Event.rest σ x.2) (n - x.2.length)).map fun y => (y.1, x.2 ++ y.2)
  exact {σ n z} h := by
    obtain ⟨x, hx, h⟩ := Option.bind_eq_some_iff.mp h
    obtain ⟨y, hy, rfl⟩ := Option.map_eq_some_iff.mp h
    obtain ⟨hle, hrun⟩ := p.exact hx
    obtain ⟨hle', hrun'⟩ := (f x.1).exact hy
    simp only [List.length_append]
    refine ⟨by omega, fun m hm => ?_⟩
    rw [hrun m (by omega), Option.bind_some, hrun' (m - x.2.length) (by omega)]
    rfl

instance : Monad (Metered R A) where
  pure := Metered.pure
  bind := Metered.bind

protected theorem ext {p q : Metered R A α} (h : ∀ σ n, p.run σ n = q.run σ n) : p = q := by
  cases p
  cases q
  congr
  funext σ n
  exact h σ n

theorem id_map_eq (p : Metered R A α) : id <$> p = p := by
  refine Metered.ext fun σ n => ?_
  show (p.run σ n).bind (fun x => some (x.1, x.2 ++ [])) = _
  cases p.run σ n with
  | none => rfl
  | some x => simp

theorem pure_bind_eq (a : α) (f : α → Metered R A β) : pure a >>= f = f a := by
  refine Metered.ext fun σ n => ?_
  show ((f a).run (Event.rest σ []) n).map (fun y => (y.1, [] ++ y.2)) = _
  simp

theorem bind_assoc_eq {γ : Type} (p : Metered R A α) (f : α → Metered R A β) (g : β → Metered R A γ) :
    p >>= f >>= g = p >>= fun a => f a >>= g := by
  refine Metered.ext fun σ n => ?_
  show ((p.run σ n).bind fun x => ((f x.1).run _ (n - x.2.length)).map fun y => (y.1, x.2 ++ y.2)).bind _ =
    (p.run σ n).bind fun x => (((f x.1).run _ (n - x.2.length)).bind _).map _
  rw [Option.bind_assoc]
  refine congrArg _ (funext fun x => ?_)
  rw [Option.bind_map, Option.map_bind]
  refine congrArg _ (funext fun y => ?_)
  simp [Event.rest_append, Nat.sub_sub, Function.comp_def]

instance : LawfulMonad (Metered R A) := .mk' _ id_map_eq pure_bind_eq bind_assoc_eq

/-- `while (cond(a)) a = ask(r)`. -/
def askWhileRun (r : R) (cond : A → Bool) (σ : Nat → A) : A → Nat → Option (A × List (Event R A))
  | a, 0 => if cond a then none else some (a, [])
  | a, n + 1 =>
    if cond a then
      (askWhileRun r cond (fun i => σ (i + 1)) (σ 0) n).map fun x => (x.1, .asked r (σ 0) :: x.2)
    else some (a, [])

theorem askWhileRun_stop {r : R} {cond : A → Bool} {σ : Nat → A} {a : A} (h : cond a = false) (n : Nat) :
    askWhileRun r cond σ a n = some (a, []) := by
  cases n with
  | zero => simp [askWhileRun, h]
  | succ n => simp [askWhileRun, h]

def askWhile (r : R) (cond : A → Bool) (a : A) : Metered R A A where
  run σ n := askWhileRun r cond σ a n
  exact {σ n x} h := by
    induction n generalizing σ a x with
    | zero =>
      rw [askWhileRun] at h
      split at h
      · cases h
      · rename_i hstop
        cases h
        exact ⟨Nat.le_refl _, fun m _ => askWhileRun_stop (by simpa using hstop) m⟩
    | succ n ih =>
      rw [askWhileRun] at h
      split at h
      · rename_i hgo
        obtain ⟨y, hy, rfl⟩ := Option.map_eq_some_iff.mp h
        obtain ⟨hle, hrun⟩ := ih _ hy
        refine ⟨Nat.succ_le_succ hle, fun m hm => ?_⟩
        obtain ⟨m, rfl⟩ : ∃ k, m = k + 1 := ⟨m - 1, by simp at hm; omega⟩
        rw [askWhileRun, if_pos hgo, hrun m (by simpa using hm)]
        rfl
      · rename_i hstop
        cases h
        exact ⟨Nat.zero_le _, fun m _ => askWhileRun_stop (by simpa using hstop) m⟩

/-- One round of the loop. -/
theorem askWhile_eq (r : R) (cond : A → Bool) (a : A) :
    askWhile r cond a = if cond a then ask r >>= askWhile r cond else pure a := by
  refine Metered.ext fun σ n => ?_
  split
  · rename_i hgo
    cases n with
    | zero =>
      show askWhileRun r cond σ a 0 = none
      rw [askWhileRun, if_pos hgo]
    | succ n =>
      show askWhileRun r cond σ a (n + 1) = (askWhileRun r cond (Event.rest σ [.asked r (σ 0)]) (σ 0) n).map _
      rw [askWhileRun, if_pos hgo, Event.rest_asked]
      rfl
  · rename_i hstop
    exact askWhileRun_stop (by simpa using hstop) n

/-! ### What a computation returns -/

/-- On the answers `σ` it returns `a`, after these requests. -/
def Runs (p : Metered R A α) (σ : Nat → A) (a : α) (log : List (Event R A)) : Prop :=
  p.run σ log.length = some (a, log)

variable {p : Metered R A α} {f : α → Metered R A β} {σ : Nat → A} {a : α} {log : List (Event R A)}

theorem run_eq_some {n : Nat} : p.run σ n = some (a, log) ↔ p.Runs σ a log ∧ log.length ≤ n :=
  ⟨fun h => ⟨(p.exact h).2 _ (Nat.le_refl _), (p.exact h).1⟩, fun h => (p.exact h.1).2 n h.2⟩

/-- There is one result. -/
theorem Runs.unique {a' : α} {log' : List (Event R A)} (h : p.Runs σ a log) (h' : p.Runs σ a' log') :
    a = a' ∧ log = log' := by
  have hmax : p.run σ (max log.length log'.length) = some (a, log) := run_eq_some.mpr ⟨h, Nat.le_max_left _ _⟩
  have hmax' : p.run σ (max log.length log'.length) = some (a', log') :=
    run_eq_some.mpr ⟨h', Nat.le_max_right _ _⟩
  rw [hmax] at hmax'
  cases hmax'
  exact ⟨rfl, rfl⟩

@[simp] theorem runs_pure {b : α} : (pure b : Metered R A α).Runs σ a log ↔ a = b ∧ log = [] := by
  show some (b, []) = some (a, log) ↔ _
  simp [eq_comm]

@[simp] theorem runs_tell {r : R} {u : Unit} : (tell r).Runs σ u log ↔ log = [.told r] := by
  constructor
  · intro h
    unfold Runs tell at h
    dsimp only at h
    split at h
    · cases h
    · cases h
      rfl
  · rintro rfl
    rfl

@[simp] theorem runs_ask {r : R} {b : A} : (ask r).Runs σ b log ↔ b = σ 0 ∧ log = [.asked r (σ 0)] := by
  constructor
  · intro h
    unfold Runs ask at h
    dsimp only at h
    split at h
    · cases h
    · cases h
      exact ⟨rfl, rfl⟩
  · rintro ⟨rfl, rfl⟩
    rfl

/-- One after the other. -/
theorem runs_bind {b : β} : (p >>= f).Runs σ b log ↔
    ∃ a front back, p.Runs σ a front ∧ (f a).Runs (Event.rest σ front) b back ∧ log = front ++ back := by
  constructor
  · intro h
    obtain ⟨⟨a, front⟩, hx, h⟩ := Option.bind_eq_some_iff.mp h
    obtain ⟨⟨b', back⟩, hy, h⟩ := Option.map_eq_some_iff.mp h
    cases h
    exact ⟨a, front, back, (run_eq_some.mp hx).1, (run_eq_some.mp hy).1, rfl⟩
  · rintro ⟨a, front, back, hp, hf, rfl⟩
    have hlen : (front ++ back).length = front.length + back.length := List.length_append
    have hrun : p.run σ (front ++ back).length = some (a, front) := run_eq_some.mpr ⟨hp, by omega⟩
    have hrun' : (f a).run (Event.rest σ front) ((front ++ back).length - front.length) = some (b, back) :=
      run_eq_some.mpr ⟨hf, by omega⟩
    show (p.run σ _).bind _ = _
    rw [hrun, Option.bind_some, hrun']
    rfl

theorem Runs.bind {b : β} {back : List (Event R A)} (h : p.Runs σ a log)
    (hf : (f a).Runs (Event.rest σ log) b back) : (p >>= f).Runs σ b (log ++ back) :=
  runs_bind.mpr ⟨a, log, back, h, hf, rfl⟩

/-- A request told, and the rest. -/
theorem runs_tell_bind {r : R} {g : Unit → Metered R A β} {b : β} : (tell r >>= g).Runs σ b log ↔
    ∃ back, (g ()).Runs σ b back ∧ log = .told r :: back := by
  rw [runs_bind]
  constructor
  · rintro ⟨_, _, back, hr, hg, rfl⟩
    rw [runs_tell.mp hr] at hg ⊢
    rw [Event.rest_told] at hg
    exact ⟨back, hg, rfl⟩
  · rintro ⟨back, hg, rfl⟩
    exact ⟨(), _, back, runs_tell.mpr rfl, by rwa [Event.rest_told], rfl⟩

/-- A request asked, and the rest. -/
theorem runs_ask_bind {r : R} {g : A → Metered R A β} {b : β} : (ask r >>= g).Runs σ b log ↔
    ∃ back, (g (σ 0)).Runs (fun n => σ (n + 1)) b back ∧ log = .asked r (σ 0) :: back := by
  rw [runs_bind]
  constructor
  · rintro ⟨_, _, back, hr, hg, rfl⟩
    obtain ⟨rfl, rfl⟩ := runs_ask.mp hr
    rw [Event.rest_asked] at hg
    exact ⟨back, hg, rfl⟩
  · rintro ⟨back, hg, rfl⟩
    exact ⟨σ 0, _, back, runs_ask.mpr ⟨rfl, rfl⟩, by rwa [Event.rest_asked], rfl⟩

/-! ### Requests of one kind -/

/-- Every request that is made is one of these. -/
def Emits (P : Event R A → Prop) (p : Metered R A α) : Prop := ∀ σ a log, p.Runs σ a log → ∀ e ∈ log, P e

namespace Emits
variable {P : Event R A → Prop}

theorem pure (a : α) : Emits P (Pure.pure a : Metered R A α) := by
  intro σ b log h e he
  rw [(runs_pure.mp h).2] at he
  cases he

theorem tell {r : R} (hr : P (.told r)) : Emits P (Metered.tell r : Metered R A Unit) := by
  intro σ u log h e he
  rw [runs_tell.mp h] at he
  rwa [List.mem_singleton.mp he]

theorem ask {r : R} (hr : ∀ a, P (.asked r a)) : Emits P (Metered.ask r : Metered R A A) := by
  intro σ b log h e he
  rw [(runs_ask.mp h).2] at he
  rw [List.mem_singleton.mp he]
  exact hr _

theorem bind (h : Emits P p) (hf : ∀ a, Emits P (f a)) : Emits P (p >>= f) := by
  intro σ b log hrun e he
  obtain ⟨a, front, back, hp, hback, rfl⟩ := runs_bind.mp hrun
  rcases List.mem_append.mp he with he | he
  · exact h σ a front hp e he
  · exact hf a _ b back hback e he

theorem imp {Q : Event R A → Prop} (h : Emits P p) (hpq : ∀ e, P e → Q e) : Emits Q p :=
  fun σ a log hrun e he => hpq e (h σ a log hrun e he)

theorem ite {c : Prop} [Decidable c] {q : Metered R A α} (hp : c → Emits P p) (hq : ¬ c → Emits P q) :
    Emits P (if c then p else q) := by
  split
  · exact hp ‹_›
  · exact hq ‹_›

theorem foldlM {ι : Type} {body : α → ι → Metered R A α} (h : ∀ a i, Emits P (body a i)) (l : List ι) (a : α) :
    Emits P (l.foldlM body a) := by
  induction l generalizing a with
  | nil => exact pure a
  | cons i l ih => exact (h a i).bind ih

/-- The requests of a loop that are made in each round of it. -/
theorem askWhile {r : R} (hr : ∀ a, P (.asked r a)) (cond : A → Bool) (c : A) : Emits P (Metered.askWhile r cond c) := by
  intro σ a log hrun
  have hloop : askWhileRun r cond σ c log.length = some (a, log) := hrun
  clear hrun
  generalize log.length = n at hloop
  induction n generalizing σ c log with
  | zero =>
    rw [askWhileRun] at hloop
    split at hloop
    · cases hloop
    · cases hloop
      simp
  | succ n ih =>
    rw [askWhileRun] at hloop
    split at hloop
    · obtain ⟨⟨b, log'⟩, hrest, h⟩ := Option.map_eq_some_iff.mp hloop
      cases h
      intro e he
      rcases List.mem_cons.mp he with rfl | he
      · exact hr _
      · exact ih _ _ log' hrest e he
    · cases hloop
      simp

end Emits

/-! ### Requests to a part -/

section Within
variable {R' : Type} (g : R → R')

/-- A computation that puts its requests to a part of an environment. -/
def within (p : Metered R A α) : Metered R' A α where
  run σ n := (p.run σ n).map fun x => (x.1, x.2.map (Event.map g))
  exact h := by
    obtain ⟨x, hx, rfl⟩ := Option.map_eq_some_iff.mp h
    simp only [List.length_map]
    exact ⟨(p.exact hx).1, fun m hm => by rw [(p.exact hx).2 m hm]; rfl⟩

theorem runs_within {log : List (Event R' A)} :
    (p.within g).Runs σ a log ↔ ∃ log', p.Runs σ a log' ∧ log = log'.map (Event.map g) := by
  constructor
  · intro h
    obtain ⟨⟨b, log'⟩, hx, h⟩ := Option.map_eq_some_iff.mp h
    cases h
    exact ⟨log', (run_eq_some.mp hx).1, rfl⟩
  · rintro ⟨log', hp, rfl⟩
    have hrun : p.run σ (log'.map (Event.map g)).length = some (a, log') :=
      run_eq_some.mpr ⟨hp, by simp⟩
    show (p.run σ _).map _ = _
    rw [hrun]
    rfl

/-- Requests of a part that are of one kind. -/
theorem Emits.within {P : Event R' A → Prop} (h : Emits (fun e => P (e.map g)) p) : Emits P (p.within g) := by
  intro σ a log hrun e he
  obtain ⟨log', hp, rfl⟩ := (runs_within g).mp hrun
  obtain ⟨e', he', rfl⟩ := List.mem_map.mp he
  exact h σ a log' hp e' he'

theorem within_pure (a : α) : (pure a : Metered R A α).within g = pure a := Metered.ext fun _ _ => rfl

end Within

/-! ### Budgets -/

/-- Through after at most `n` requests. -/
def Finishes (p : Metered R A α) (σ : Nat → A) (n : Nat) : Prop := (p.run σ n).isSome

instance (p : Metered R A α) (σ : Nat → A) (n : Nat) : Decidable (p.Finishes σ n) :=
  inferInstanceAs (Decidable (_ = true))

theorem finishes_iff {n : Nat} : p.Finishes σ n ↔ ∃ a log, p.Runs σ a log ∧ log.length ≤ n := by
  unfold Finishes
  rw [Option.isSome_iff_exists]
  constructor
  · rintro ⟨x, hx⟩
    exact ⟨x.1, x.2, run_eq_some.mp hx⟩
  · rintro ⟨a, log, h⟩
    exact ⟨(a, log), run_eq_some.mpr h⟩

theorem Runs.finishes {n : Nat} (h : p.Runs σ a log) (hle : log.length ≤ n) : p.Finishes σ n :=
  finishes_iff.mpr ⟨a, log, h, hle⟩

theorem Finishes.mono {n m : Nat} (h : p.Finishes σ n) (hle : n ≤ m) : p.Finishes σ m := by
  obtain ⟨a, log, hrun, hlen⟩ := finishes_iff.mp h
  exact hrun.finishes (Nat.le_trans hlen hle)

theorem finishes_bind {n : Nat} : (p >>= f).Finishes σ n ↔
    ∃ a log, p.Runs σ a log ∧ log.length ≤ n ∧ (f a).Finishes (Event.rest σ log) (n - log.length) := by
  constructor
  · intro h
    obtain ⟨b, log, hrun, hlen⟩ := finishes_iff.mp h
    obtain ⟨a, front, back, hp, hf, rfl⟩ := runs_bind.mp hrun
    rw [List.length_append] at hlen
    exact ⟨a, front, hp, by omega, hf.finishes (by omega)⟩
  · rintro ⟨a, front, hp, hlen, hf⟩
    obtain ⟨b, back, hf, hlen'⟩ := finishes_iff.mp hf
    refine (hp.bind hf).finishes ?_
    rw [List.length_append]
    omega

theorem Finishes.bind {n m : Nat} (h : p.Finishes σ n)
    (hf : ∀ a log, p.Runs σ a log → (f a).Finishes (Event.rest σ log) m) : (p >>= f).Finishes σ (n + m) := by
  obtain ⟨a, log, hrun, hlen⟩ := finishes_iff.mp h
  exact finishes_bind.mpr ⟨a, log, hrun, by omega, (hf a log hrun).mono (by omega)⟩

theorem finishes_pure (a : α) (n : Nat) : (pure a : Metered R A α).Finishes σ n :=
  (runs_pure.mpr ⟨rfl, rfl⟩).finishes (Nat.zero_le n)

@[simp] theorem finishes_tell_bind {r : R} {g : Unit → Metered R A β} {n : Nat} :
    (tell r >>= g).Finishes σ (n + 1) ↔ (g ()).Finishes σ n := by
  simp only [finishes_iff, runs_tell_bind]
  constructor
  · rintro ⟨b, _, ⟨back, hg, rfl⟩, hlen⟩
    exact ⟨b, back, hg, Nat.le_of_succ_le_succ hlen⟩
  · rintro ⟨b, back, hg, hlen⟩
    exact ⟨b, _, ⟨back, hg, rfl⟩, Nat.succ_le_succ hlen⟩

@[simp] theorem finishes_ask_bind {r : R} {g : A → Metered R A β} {n : Nat} :
    (ask r >>= g).Finishes σ (n + 1) ↔ (g (σ 0)).Finishes (fun n => σ (n + 1)) n := by
  simp only [finishes_iff, runs_ask_bind]
  constructor
  · rintro ⟨b, _, ⟨back, hg, rfl⟩, hlen⟩
    exact ⟨b, back, hg, Nat.le_of_succ_le_succ hlen⟩
  · rintro ⟨b, back, hg, hlen⟩
    exact ⟨b, _, ⟨back, hg, rfl⟩, Nat.succ_le_succ hlen⟩

/-- **A loop is over when an answer ends it**, and not before. -/
theorem finishes_askWhile {r : R} {cond : A → Bool} {c : A} {n : Nat} : (askWhile r cond c).Finishes σ n ↔
    cond c = false ∨ ∃ k < n, cond (σ k) = false := by
  induction n generalizing σ c with
  | zero =>
    show (askWhileRun r cond σ c 0).isSome ↔ _
    rw [askWhileRun]
    by_cases h : cond c <;> simp [h]
  | succ n ih =>
    show (askWhileRun r cond σ c (n + 1)).isSome ↔ _
    rw [askWhileRun]
    by_cases h : cond c
    · rw [if_pos h, Option.isSome_map]
      refine ih.trans ?_
      constructor
      · rintro (h0 | ⟨k, hk, hend⟩)
        · exact .inr ⟨0, Nat.succ_pos n, h0⟩
        · exact .inr ⟨k + 1, Nat.succ_lt_succ hk, hend⟩
      · rintro (h0 | ⟨k, hk, hend⟩)
        · rw [h] at h0
          cases h0
        · cases k with
          | zero => exact .inl hend
          | succ k => exact .inr ⟨k, Nat.lt_of_succ_lt_succ hk, hend⟩
    · simp [h]

theorem finishes_within {R' : Type} {g : R → R'} {n : Nat} : (p.within g).Finishes σ n ↔ p.Finishes σ n := by
  unfold Finishes within
  rw [Option.isSome_map]

/-- Through after at most `n` requests, whatever the answers are. -/
def Bounded (p : Metered R A α) (n : Nat) : Prop := ∀ σ, p.Finishes σ n

namespace Bounded
variable {n m : Nat}

theorem mono (h : p.Bounded n) (hle : n ≤ m) : p.Bounded m := fun σ => (h σ).mono hle

theorem pure (a : α) : (Pure.pure a : Metered R A α).Bounded 0 := fun _ => finishes_pure a 0

theorem tell (r : R) : (Metered.tell r : Metered R A Unit).Bounded 1 := fun _ => rfl

theorem ask (r : R) : (Metered.ask r : Metered R A A).Bounded 1 := fun _ => rfl

theorem bind (h : p.Bounded n) (hf : ∀ a, (f a).Bounded m) : (p >>= f).Bounded (n + m) :=
  fun σ => (h σ).bind fun a _ _ => hf a _

theorem ite {c : Prop} [Decidable c] {q : Metered R A α} (hp : c → p.Bounded n) (hq : ¬ c → q.Bounded n) :
    (if c then p else q).Bounded n := by
  split
  · exact hp ‹_›
  · exact hq ‹_›

theorem within {R' : Type} (g : R → R') (h : p.Bounded n) : (p.within g).Bounded n :=
  fun σ => finishes_within.mpr (h σ)

/-- A loop over a list, of rounds with a bound each. -/
theorem foldlM {ι : Type} {body : α → ι → Metered R A α} (h : ∀ a i, (body a i).Bounded n) (l : List ι) (a : α) :
    (l.foldlM body a).Bounded (l.length * n) := by
  induction l generalizing a with
  | nil => exact (Bounded.pure a).mono (Nat.zero_le _)
  | cons i l ih =>
    rw [List.foldlM_cons, List.length_cons, Nat.succ_mul, Nat.add_comm]
    exact (h a i).bind ih

end Bounded

end Metered

end Foundation
