import Nalang.Library.Transition

/-!
# Programs that call an environment

A program calls operations one after another and goes on with what they answer. What
an operation may answer, and what it does to the state, is a relation: the environment
chooses. So a program has many runs, and each of them ends.
-/

namespace Interaction
open Transition

/-- A program is a finite tree, in which the answers to an operation are the branches. -/
inductive Program {Op : Type} (Ans : Op → Type) (α : Type)
  | ret (a : α)
  | call (op : Op) (next : Ans op → Program Ans α)

structure Event {Op : Type} (Ans : Op → Type) where
  op : Op
  answer : Ans op

section
variable {Op : Type} {Ans : Op → Type} {α β : Type}

namespace Program

def bind : Program Ans α → (α → Program Ans β) → Program Ans β
  | .ret a, f => f a
  | .call op next, f => .call op fun answer => (next answer).bind f

instance : Monad (Program Ans) where
  pure := .ret
  bind := .bind

def perform (op : Op) : Program Ans (Ans op) := .call op .ret

@[simp] theorem pure_eq_ret (a : α) : (pure a : Program Ans α) = .ret a := rfl

@[simp] theorem bind_eq (p : Program Ans α) (f : α → Program Ans β) : p >>= f = p.bind f := rfl

@[simp] theorem ret_bind (a : α) (f : α → Program Ans β) : (ret a).bind f = f a := rfl

@[simp] theorem call_bind (op : Op) (next : Ans op → Program Ans α) (f : α → Program Ans β) :
    (call op next).bind f = .call op fun answer => (next answer).bind f := rfl

@[simp] theorem perform_bind (op : Op) (f : Ans op → Program Ans β) :
    (perform op).bind f = .call op f := rfl

end Program

/-- What an operation may answer in a state, and the state it leaves. -/
abbrev Semantics (σ : Type*) {Op : Type} (Ans : Op → Type) := (op : Op) → σ → Ans op → σ → Prop

variable {σ : Type*} {sem : Semantics σ Ans} {p : Program Ans α} {f : α → Program Ans β}
  {s s' : σ} {es : List (Event Ans)} {a : α} {b : β}

/-- The program, started in the first state, ends in the second one with a result. -/
inductive Ends (sem : Semantics σ Ans) :
    Program Ans α → σ → List (Event Ans) → σ → α → Prop where
  | ret (a : α) (s : σ) : Ends sem (.ret a) s [] s a
  | call {op : Op} {next : Ans op → Program Ans α} {s s₁ s' : σ} {answer : Ans op}
      {es : List (Event Ans)} {a : α} (h : sem op s answer s₁)
      (hnext : Ends sem (next answer) s₁ es s' a) :
      Ends sem (.call op next) s (⟨op, answer⟩ :: es) s' a

@[simp] theorem ends_ret {a' : α} : Ends sem (.ret a) s es s' a' ↔ es = [] ∧ s' = s ∧ a' = a := by
  constructor
  · intro h
    cases h
    exact ⟨rfl, rfl, rfl⟩
  · rintro ⟨rfl, rfl, rfl⟩
    exact .ret a' s'

@[simp] theorem ends_call {op : Op} {next : Ans op → Program Ans α} :
    Ends sem (.call op next) s es s' a ↔ ∃ answer s₁ es', es = ⟨op, answer⟩ :: es' ∧
      sem op s answer s₁ ∧ Ends sem (next answer) s₁ es' s' a := by
  constructor
  · intro h
    cases h with
    | call h hnext => exact ⟨_, _, _, rfl, h, hnext⟩
  · rintro ⟨answer, s₁, es', rfl, h, hnext⟩
    exact .call h hnext

theorem ends_bind : Ends sem (p.bind f) s es s' b ↔ ∃ es₁ s₁ a es₂, es = es₁ ++ es₂ ∧
    Ends sem p s es₁ s₁ a ∧ Ends sem (f a) s₁ es₂ s' b := by
  induction p generalizing s es with
  | ret a => simp
  | call op next ih =>
    rw [Program.call_bind, ends_call]
    constructor
    · rintro ⟨answer, s₁, es', rfl, h, hnext⟩
      obtain ⟨es₁, s₂, a, es₂, rfl, hfirst, hsecond⟩ := (ih answer).mp hnext
      exact ⟨_, _, _, _, rfl, .call h hfirst, hsecond⟩
    · rintro ⟨_, s₂, a, es₂, rfl, hfirst, hsecond⟩
      obtain ⟨answer, s₁, es₁, rfl, h, hnext⟩ := ends_call.mp hfirst
      exact ⟨answer, s₁, _, rfl, h, (ih answer).mpr ⟨_, _, _, _, rfl, hnext, hsecond⟩⟩

/-! ### Runs that have not ended -/

def steps (α : Type) (sem : Semantics σ Ans) : Lts (Program Ans α × σ) (Event Ans) :=
  ⟨fun c e c' => ∃ next, c.1 = .call e.op next ∧ c'.1 = next e.answer ∧ sem e.op c.2 e.answer c'.2⟩

theorem run_of_ends (h : Ends sem p s es s' a) : (steps α sem).Run (p, s) es (.ret a, s') := by
  induction h with
  | ret a s => exact .nil
  | call h _ ih => exact Lts.Run.cons ⟨_, rfl, rfl, h⟩ ih

theorem ends_of_run {c : Program Ans α × σ} {es' : List (Event Ans)}
    (hr : (steps α sem).Run (p, s) es c) (h : Ends sem c.1 c.2 es' s' a) :
    Ends sem p s (es ++ es') s' a := by
  induction hr generalizing es' with
  | nil => exact h
  | @snoc es c c' e _ hs ih =>
    obtain ⟨next, hcall, hnext, hsem⟩ := hs
    rw [hnext] at h
    have hlast : Ends sem c.1 c.2 (e :: es') s' a := by
      rw [hcall]
      exact .call hsem h
    simpa using ih hlast

def Total (sem : Semantics σ Ans) : Prop := ∀ op s, ∃ answer s', sem op s answer s'

theorem exists_ends (ht : Total sem) (p : Program Ans α) (s : σ) :
    ∃ es s' a, Ends sem p s es s' a := by
  induction p generalizing s with
  | ret a => exact ⟨[], s, a, .ret a s⟩
  | call op next ih =>
    obtain ⟨answer, s₁, h⟩ := ht op s
    obtain ⟨es, s', a, hnext⟩ := ih answer s₁
    exact ⟨_, s', a, .call h hnext⟩

theorem exists_ends_of_run (ht : Total sem) {c : Program Ans α × σ}
    (hr : (steps α sem).Run (p, s) es c) : ∃ es' s' a, Ends sem p s (es ++ es') s' a := by
  obtain ⟨es', s', a, h⟩ := exists_ends ht c.1 c.2
  exact ⟨es', s', a, ends_of_run hr h⟩

/-- Where every operation is answered a program ends. -/
structure Settles (sem : Semantics σ Ans) (p : Program Ans α) (s : σ) : Prop where
  finite : ∀ path : (steps α sem).Path, path.state 0 ≠ (p, s)
  progress : ∀ es c, (steps α sem).Run (p, s) es c →
    (∃ a, c.1 = .ret a) ∨ ∃ e c', (steps α sem).step c e c'

theorem settles (ht : Total sem) (p : Program Ans α) (s : σ) : Settles sem p s where
  finite := by
    induction p generalizing s with
    | ret a =>
      intro path h
      obtain ⟨next, hcall, -⟩ := path.step 0
      rw [h] at hcall
      cases hcall
    | call op next ih =>
      intro path h
      obtain ⟨next', hcall, hnext, -⟩ := path.step 0
      rw [h] at hcall
      cases hcall
      let rest : (steps α sem).Path :=
        ⟨fun n => path.state (n + 1), fun n => path.label (n + 1), fun n => path.step (n + 1)⟩
      exact ih _ (path.state 1).2 rest (Prod.ext hnext rfl)
  progress _ c _ := by
    obtain ⟨p', s'⟩ := c
    cases p' with
    | ret a => exact .inl ⟨a, rfl⟩
    | call op next =>
      obtain ⟨answer, s₁, h⟩ := ht op s'
      exact .inr ⟨⟨op, answer⟩, (next answer, s₁), next, rfl, rfl, h⟩

end

/-! ### What comes before an event -/

section Histories
variable {ε : Type*} {Q : List ε → ε → Prop} {before es es' : List ε} {e : ε}

def Throughout (Q : List ε → ε → Prop) : List ε → List ε → Prop
  | _, [] => True
  | before, e :: es => Q before e ∧ Throughout Q (before ++ [e]) es

@[simp] theorem throughout_nil : Throughout Q before [] ↔ True := Iff.rfl

@[simp] theorem throughout_cons :
    Throughout Q before (e :: es) ↔ Q before e ∧ Throughout Q (before ++ [e]) es := Iff.rfl

theorem throughout_append :
    Throughout Q before (es ++ es') ↔ Throughout Q before es ∧ Throughout Q (before ++ es) es' := by
  induction es generalizing before with
  | nil => simp
  | cons e es ih =>
    rw [List.cons_append, throughout_cons, throughout_cons, ih, and_assoc, List.append_assoc]
    rfl

theorem Throughout.mem (h : Throughout Q before es) (he : e ∈ es) :
    ∃ pre, pre <+: es ∧ Q (before ++ pre) e := by
  obtain ⟨pre, post, rfl⟩ := List.append_of_mem he
  have hlast := (throughout_cons.mp (throughout_append.mp h).2).1
  exact ⟨pre, List.prefix_append pre _, hlast⟩

/-- What holds throughout the runs that have ended holds throughout all runs. -/
theorem throughout_of_ends {Op : Type} {Ans : Op → Type} {α : Type} {σ : Type*}
    {sem : Semantics σ Ans} {p : Program Ans α} {s : σ} {Q : List (Event Ans) → Event Ans → Prop}
    (ht : Total sem) (h : ∀ es s' a, Ends sem p s es s' a → Throughout Q [] es)
    {c : Program Ans α × σ} {es : List (Event Ans)} (hr : (steps α sem).Run (p, s) es c) :
    Throughout Q [] es := by
  obtain ⟨es', s', a, hends⟩ := exists_ends_of_run ht hr
  exact (throughout_append.mp (h _ s' a hends)).1

end Histories

end Interaction
