import FurOS.Foundation.Monitor
import FurOS.Foundation.Served

/-! Programs over the operations of a layer below.

A program calls operations and goes on with what they answer. What they do is not part of it: `run` has
a machine for them; `runChoosing` has one that is free to choose how each ends; and `perform` puts a
computation in place of each, which has requests of its own. Computations that do what some choice of the
machine does, one operation at a time, do so over every program (`perform_follows`): a program
cannot tell the layer below from the machine. -/
namespace Foundation

inductive Program (Op : Type) (Ans : Op → Type) (α : Type) where
  | done (a : α)
  | call (op : Op) (rest : Ans op → Program Op Ans α)

namespace Program
variable {Op : Type} {Ans : Op → Type} {α β : Type}

protected def bind : Program Op Ans α → (α → Program Op Ans β) → Program Op Ans β
  | done a, f => f a
  | call op rest, f => call op fun a => (rest a).bind f

instance : Monad (Program Op Ans) where
  pure := done
  bind := Program.bind

@[simp] theorem pure_eq (a : α) : (pure a : Program Op Ans α) = done a := rfl

@[simp] theorem done_bind (a : α) (f : α → Program Op Ans β) : (done a >>= f) = f a := rfl

@[simp] theorem call_bind (op : Op) (rest : Ans op → Program Op Ans α) (f : α → Program Op Ans β) :
    (call op rest >>= f) = call op fun a => rest a >>= f := rfl

/-- One operation. -/
def op (o : Op) : Program Op Ans (Ans o) := call o done

@[simp] theorem op_bind (o : Op) (f : Ans o → Program Op Ans β) : (op o >>= f) = call o f := rfl

/-- Every operation that is called is one of these. -/
def Calls (P : Op → Prop) : Program Op Ans α → Prop
  | done _ => True
  | call op rest => P op ∧ ∀ a, Calls P (rest a)

theorem Calls.imp {P Q : Op → Prop} {p : Program Op Ans α} (h : p.Calls P) (himp : ∀ o, P o → Q o) : p.Calls Q := by
  induction p with
  | done a => trivial
  | call op rest ih => exact ⟨himp op h.1, fun a => ih a (h.2 a)⟩

theorem Calls.bind {P : Op → Prop} {p : Program Op Ans α} {f : α → Program Op Ans β} (h : p.Calls P)
    (hf : ∀ a, (f a).Calls P) : (p >>= f).Calls P := by
  induction p with
  | done a => exact hf a
  | call op rest ih => exact ⟨h.1, fun a => ih a (h.2 a)⟩

/-! ### On a machine -/

section Run
variable {X : Type} (step : ∀ o : Op, X → Ans o × X)

def run : Program Op Ans α → X → α × X
  | done a, x => (a, x)
  | call op rest, x => run (rest (step op x).1) (step op x).2

@[simp] theorem run_done (a : α) (x : X) : (done a : Program Op Ans α).run step x = (a, x) := rfl

@[simp] theorem run_call (o : Op) (rest : Ans o → Program Op Ans α) (x : X) :
    (call o rest).run step x = (rest (step o x).1).run step (step o x).2 := rfl

@[simp] theorem run_bind (p : Program Op Ans α) (f : α → Program Op Ans β) (x : X) :
    (p >>= f).run step x = (f (p.run step x).1).run step (p.run step x).2 := by
  induction p generalizing x with
  | done a => rfl
  | call op rest ih => exact ih _ _

end Run

/-! ### On a machine that is free to choose -/

section Choosing
variable {X C : Type} (step : C → ∀ o : Op, X → Ans o × X)

/-- The choices are made beforehand, one for each operation. -/
def runChoosing : Program Op Ans α → (Nat → C) → X → α × X
  | done a, _, x => (a, x)
  | call op rest, choices, x =>
    runChoosing (rest (step (choices 0) op x).1) (fun n => choices (n + 1)) (step (choices 0) op x).2

/-- A machine that has its choices in its state is one that makes them. -/
theorem run_eq_runChoosing {Y : Type} {stepY : ∀ o : Op, Y → Ans o × Y} (view : Y → X) (choice : Y → Nat → C)
    (hstep : ∀ o y, (stepY o y).1 = (step (choice y 0) o (view y)).1 ∧
      view (stepY o y).2 = (step (choice y 0) o (view y)).2 ∧ ∀ n, choice (stepY o y).2 n = choice y (n + 1))
    (p : Program Op Ans α) (y : Y) : (p.run stepY y).1 = (p.runChoosing step (choice y) (view y)).1 ∧
      view (p.run stepY y).2 = (p.runChoosing step (choice y) (view y)).2 := by
  induction p generalizing y with
  | done a => exact ⟨rfl, rfl⟩
  | call o rest ih =>
    obtain ⟨hans, hview, hchoice⟩ := hstep o y
    have hrest := ih (stepY o y).1 (stepY o y).2
    rw [hview, funext hchoice] at hrest
    rw [run_call, runChoosing, ← hans]
    exact hrest

end Choosing

/-! ### On a layer that makes requests -/

section Perform
variable {R A E S : Type}

def perform (io : ∀ o : Op, S → Metered R A (Ans o × S)) : Program Op Ans α → S → Metered R A (α × S)
  | done a, s => pure (a, s)
  | call op rest, s => do
    let x ← io op s
    perform io (rest x.1) x.2

/-- **A program cannot tell the layer from the machine**: where each operation of the layer does what a choice of
the machine does, a program of such operations does, and gets through. -/
theorem perform_follows {X C : Type} [Nonempty C] {step : C → ∀ o : Op, X → Ans o × X}
    {io : ∀ o : Op, S → Metered R A (Ans o × S)} {env : Responder R A E} {Rel : S → E → X → Prop} {ok : Op → Prop}
    (hstep : ∀ o, ok o → ∀ s e x, Rel s e x → ∃ c s' e',
      Follows env (io o s) e ((step c o x).1, s') e' ∧ Rel s' e' (step c o x).2)
    (p : Program Op Ans α) (hp : p.Calls ok) (s : S) (e : E) (x : X) (h : Rel s e x) : ∃ choices s' e',
      Follows env (p.perform io s) e ((p.runChoosing step choices x).1, s') e' ∧
        Rel s' e' (p.runChoosing step choices x).2 := by
  induction p generalizing s e x with
  | done a =>
    obtain ⟨c⟩ := ‹Nonempty C›
    exact ⟨fun _ => c, s, e, Follows.pure (a, s) e, h⟩
  | call o rest ih =>
    obtain ⟨c, s₁, e₁, hfollows, hrel⟩ := hstep o hp.1 s e x h
    obtain ⟨choices, s₂, e₂, hrest, hrel₂⟩ := ih _ (hp.2 _) s₁ e₁ _ hrel
    -- The choice for this operation comes before those for the rest.
    let all : Nat → C := fun n => Nat.rec c (fun k _ => choices k) n
    exact ⟨all, s₂, e₂, hfollows.bind hrest, hrel₂⟩

end Perform

end Program

/-- What whatever is answered has, the one result has that a computation comes to in its environment. -/
theorem Follows.gives {R A S α : Type} {env : Responder R A S} {p : Metered R A α} {s t : S} {a : α} {Q : α → Prop}
    (h : Follows env p s a t) (hg : Gives p Q) [Nonempty A] : Q a := by
  obtain ⟨b⟩ := ‹Nonempty A›
  obtain ⟨σ, log, hrun, _⟩ := h.run fun _ => b
  exact hg σ a log hrun

end Foundation
