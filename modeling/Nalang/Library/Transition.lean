import Mathlib.Data.List.Induction
import Mathlib.Order.WellFounded
import Mathlib.Order.RelClasses
import Mathlib.Tactic.SplitIfs

/-!
# Labelled transition systems and their runs

A run is a list of labels together with the state it leads to, so that a
property of a run may speak about the labels taken so far. Guarding a system
keeps the steps that meet a side condition; a run of the guarded system is a
run all of whose steps meet it.
-/

namespace Transition

structure Lts (σ ℓ : Type*) where
  step : σ → ℓ → σ → Prop

namespace Lts
variable {σ ℓ : Type*} {T : Lts σ ℓ}

inductive Run (T : Lts σ ℓ) (s₀ : σ) : List ℓ → σ → Prop where
  | nil : Run T s₀ [] s₀
  | snoc {ls : List ℓ} {s s' : σ} {l : ℓ} :
      Run T s₀ ls s → T.step s l s' → Run T s₀ (ls ++ [l]) s'

theorem Run.history {s₀ s : σ} {ls : List ℓ} (I : List ℓ → σ → Prop) (h₀ : I [] s₀)
    (hstep : ∀ hs s l s', I hs s → T.step s l s' → I (hs ++ [l]) s')
    (hr : T.Run s₀ ls s) : I ls s := by
  induction hr with
  | nil => exact h₀
  | snoc _ hs ih => exact hstep _ _ _ _ ih hs

theorem Run.invariant {s₀ s : σ} {ls : List ℓ} (I : σ → Prop) (h₀ : I s₀)
    (hstep : ∀ s l s', I s → T.step s l s' → I s') (hr : T.Run s₀ ls s) : I s :=
  hr.history (fun _ s => I s) h₀ (fun _ s l s' => hstep s l s')

theorem Run.append {s₀ s s' : σ} {ls ms : List ℓ} (hr : T.Run s₀ ls s) (hm : T.Run s ms s') :
    T.Run s₀ (ls ++ ms) s' := by
  induction hm with
  | nil => simpa using hr
  | snoc _ hs ih => simpa only [← List.append_assoc] using Run.snoc ih hs

theorem Run.single {s s' : σ} {l : ℓ} (h : T.step s l s') : T.Run s [l] s' := by
  simpa using Run.snoc .nil h

theorem Run.cons {s₀ s s' : σ} {l : ℓ} {ls : List ℓ} (h : T.step s₀ l s) (hr : T.Run s ls s') :
    T.Run s₀ (l :: ls) s' :=
  (Run.single h).append hr

theorem Run.of_eq {s₀ s : σ} (h : s = s₀) : T.Run s₀ [] s := h ▸ .nil

theorem Run.eq_of_nil {s₀ s : σ} (hr : T.Run s₀ [] s) : s = s₀ :=
  hr.history (fun ls s => ls = [] → s = s₀) (fun _ => rfl) (fun _ _ _ _ _ _ h => by simp at h) rfl

theorem Run.uncons {s₀ s' : σ} {l : ℓ} {ls : List ℓ} (hr : T.Run s₀ (l :: ls) s') :
    ∃ s, T.step s₀ l s ∧ T.Run s ls s' := by
  generalize hks : l :: ls = ks at hr
  induction hr generalizing ls with
  | nil => cases hks
  | @snoc ks s s' l' hr hs ih =>
    cases ks with
    | nil =>
      obtain ⟨rfl, rfl⟩ := List.cons.inj hks
      cases hr.eq_of_nil
      exact ⟨s', hs, .nil⟩
    | cons k ks =>
      obtain ⟨rfl, rfl⟩ := List.cons.inj hks
      obtain ⟨s₁, hfirst, hrun⟩ := ih rfl
      exact ⟨s₁, hfirst, hrun.snoc hs⟩

/-- What a run does to one part is a run of that part, which may take steps of its own besides. -/
theorem Run.projects {τ μ α : Type*} {U : Lts τ μ} {view : σ → τ} {part : ℓ → Option α}
    {own : μ → Option α} (I : σ → Prop) {s₀ s : σ} {ls : List ℓ} (h₀ : I s₀)
    (hkeep : ∀ s l s', I s → T.step s l s' → I s')
    (hstep : ∀ s l s', I s → T.step s l s' →
      ∃ ms, U.Run (view s) ms (view s') ∧ ms.filterMap own = (part l).toList)
    (hr : T.Run s₀ ls s) :
    ∃ ms, U.Run (view s₀) ms (view s) ∧ ms.filterMap own = ls.filterMap part := by
  induction hr with
  | nil => exact ⟨[], .nil, rfl⟩
  | @snoc ls s s' l hr hs ih =>
    obtain ⟨ms, hms, hown⟩ := ih
    obtain ⟨ks, hks, hl⟩ := hstep s l s' (hr.invariant I h₀ hkeep) hs
    refine ⟨ms ++ ks, hms.append hks, ?_⟩
    rw [List.filterMap_append, List.filterMap_append, hown, hl]
    cases hp : part l with
    | none => simp [hp]
    | some a => simp [hp]

theorem Run.maps {τ μ : Type*} {U : Lts τ μ} {view : σ → τ} {rename : ℓ → μ} (I : σ → Prop)
    {s₀ s : σ} {ls : List ℓ} (h₀ : I s₀) (hkeep : ∀ s l s', I s → T.step s l s' → I s')
    (hstep : ∀ s l s', I s → T.step s l s' → U.step (view s) (rename l) (view s'))
    (hr : T.Run s₀ ls s) : U.Run (view s₀) (ls.map rename) (view s) := by
  induction hr with
  | nil => exact .nil
  | @snoc ls s s' l hr hs ih =>
    rw [List.map_append]
    exact ih.snoc (hstep s l s' (hr.invariant I h₀ hkeep) hs)

def guard (T : Lts σ ℓ) (P : σ → ℓ → Prop) : Lts σ ℓ :=
  ⟨fun s l s' => P s l ∧ T.step s l s'⟩

theorem Run.of_guard {P : σ → ℓ → Prop} {s₀ s : σ} {ls : List ℓ}
    (hr : (T.guard P).Run s₀ ls s) : T.Run s₀ ls s := by
  induction hr with
  | nil => exact .nil
  | snoc _ hs ih => exact .snoc ih hs.2

theorem Run.guard_labels {P : ℓ → Prop} {s₀ s : σ} {ls : List ℓ} (hr : T.Run s₀ ls s)
    (h : ∀ l ∈ ls, P l) : (T.guard fun _ l => P l).Run s₀ ls s := by
  induction hr with
  | nil => exact .nil
  | snoc _ hs ih =>
    exact .snoc (ih fun l hl => h l (List.mem_append_left _ hl)) ⟨h _ (by simp), hs⟩

def within (T : Lts σ ℓ) (G : σ → Prop) : Lts σ ℓ :=
  ⟨fun s l s' => T.step s l s' ∧ G s'⟩

theorem Run.of_within {G : σ → Prop} {s₀ s : σ} {ls : List ℓ} (hr : (T.within G).Run s₀ ls s) :
    T.Run s₀ ls s := by
  induction hr with
  | nil => exact .nil
  | snoc _ hs ih => exact .snoc ih hs.1

theorem Run.within_good {G : σ → Prop} {s₀ s : σ} {ls : List ℓ} (h₀ : G s₀)
    (hr : (T.within G).Run s₀ ls s) : G s := by
  cases hr with
  | nil => exact h₀
  | snoc _ hs => exact hs.2

/-- Where a condition says exactly which steps from a good state lead to a good one, the runs
through good states are the runs whose steps meet it. -/
theorem run_within_iff {G : σ → Prop} {P : σ → ℓ → Prop} (I : σ → Prop) {s₀ s : σ} {ls : List ℓ}
    (hi₀ : I s₀) (hi : ∀ s l s', I s → T.step s l s' → I s') (hg₀ : G s₀)
    (hstep : ∀ s l s', I s → G s → T.step s l s' → (G s' ↔ P s l)) :
    (T.within G).Run s₀ ls s ↔ (T.guard P).Run s₀ ls s := by
  constructor
  · intro hr
    induction hr with
    | nil => exact .nil
    | snoc hr hs ih =>
      exact .snoc ih ⟨(hstep _ _ _ (hr.of_within.invariant I hi₀ hi) (hr.within_good hg₀) hs.1).mp
        hs.2, hs.1⟩
  · intro hr
    induction hr with
    | nil => exact .nil
    | snoc hr hs ih =>
      exact .snoc ih ⟨hs.2, (hstep _ _ _ (hr.of_guard.invariant I hi₀ hi) (ih.within_good hg₀)
        hs.2).mpr hs.1⟩

def recorded (T : Lts σ ℓ) : Lts (List (σ × ℓ) × σ) ℓ :=
  ⟨fun s l s' => s'.1 = s.1 ++ [(s.2, l)] ∧ T.step s.2 l s'.2⟩

theorem Run.logged {s₀ s : σ} {ls : List ℓ} (hr : T.Run s₀ ls s) :
    ∃ log, T.recorded.Run ([], s₀) ls (log, s) := by
  induction hr with
  | nil => exact ⟨[], .nil⟩
  | @snoc ls s s' l _ hs ih =>
    obtain ⟨log, hlog⟩ := ih
    exact ⟨log ++ [(s, l)], hlog.snoc ⟨rfl, hs⟩⟩

theorem Run.recorded_labels {s₀ : σ} {ls : List ℓ} {s : List (σ × ℓ) × σ}
    (hr : T.recorded.Run ([], s₀) ls s) : s.1.map Prod.snd = ls := by
  induction hr with
  | nil => rfl
  | snoc _ hs ih => rw [hs.1, List.map_append, ih, List.map_singleton]

theorem Run.of_recorded {s₀ s : List (σ × ℓ) × σ} {ls : List ℓ} (hr : T.recorded.Run s₀ ls s) :
    T.Run s₀.2 ls s.2 := by
  induction hr with
  | nil => exact .nil
  | snoc _ hs ih => exact .snoc ih hs.2

theorem Run.steps_recorded {s₀ : σ} {ls : List ℓ} {s : List (σ × ℓ) × σ}
    (hr : T.recorded.Run ([], s₀) ls s) : ∀ e ∈ s.1, ∃ s', T.step e.1 e.2 s' := by
  refine hr.invariant (fun s => ∀ e ∈ s.1, ∃ s', T.step e.1 e.2 s') ?_ ?_
  · intro e he
    cases he
  · intro s l s' ih hstep e he
    obtain ⟨hlog, hnext⟩ := hstep
    rw [hlog, List.mem_append, List.mem_singleton] at he
    rcases he with he | rfl
    · exact ih e he
    · exact ⟨_, hnext⟩

theorem Run.before_recorded {Q : List (σ × ℓ) × σ → ℓ → Prop} {s₀ : σ} {ls : List ℓ}
    {s : List (σ × ℓ) × σ} (hr : (T.recorded.guard Q).Run ([], s₀) ls s)
    {before after : List (σ × ℓ)} {e : σ × ℓ} (he : s.1 = before ++ e :: after) :
    ∃ ls' s', (T.recorded.guard Q).Run ([], s₀) ls' (before, e.1) ∧
      (T.recorded.guard Q).step (before, e.1) e.2 (before ++ [e], s') := by
  induction hr generalizing after with
  | nil => simp at he
  | @snoc ls s s' l hr hs ih =>
    obtain ⟨hq, hlog, hnext⟩ := hs
    rw [hlog] at he
    rcases List.eq_nil_or_concat after with rfl | ⟨rest, last, rfl⟩
    · obtain ⟨hpre, hlast⟩ := List.append_inj' he rfl
      cases hlast
      exact ⟨ls, s'.2, hpre ▸ hr, hpre ▸ hq, rfl, hnext⟩
    · rw [List.concat_eq_append, ← List.cons_append, ← List.append_assoc] at he
      exact ih (List.append_inj' he rfl).1

def ofStep (f : σ → ℓ → Option σ) : Lts σ ℓ :=
  ⟨fun s l s' => f s l = some s'⟩

def exec (f : σ → ℓ → Option σ) : σ → List ℓ → Option σ
  | s, [] => some s
  | s, l :: ls =>
    match f s l with
    | none => none
    | some s' => exec f s' ls

def logStep (f : σ → ℓ → Option σ) (s : List (σ × ℓ) × σ) (l : ℓ) : Option (List (σ × ℓ) × σ) :=
  (f s.2 l).map fun s' => (s.1 ++ [(s.2, l)], s')

theorem recorded_ofStep (f : σ → ℓ → Option σ) : (ofStep f).recorded = ofStep (logStep f) := by
  unfold recorded ofStep logStep
  congr
  funext s l s'
  rw [Option.map_eq_some_iff, eq_iff_iff]
  constructor
  · rintro ⟨hlog, hnext⟩
    exact ⟨s'.2, hnext, hlog ▸ rfl⟩
  · rintro ⟨t, hnext, rfl⟩
    exact ⟨rfl, hnext⟩

theorem run_of_exec {f : σ → ℓ → Option σ} {s s' : σ} {ls : List ℓ}
    (h : exec f s ls = some s') : (ofStep f).Run s ls s' := by
  induction ls generalizing s with
  | nil =>
    cases h
    exact .nil
  | cons l ls ih =>
    cases hf : f s l with
    | none => simp [exec, hf] at h
    | some t =>
      simp only [exec, hf] at h
      exact Run.cons hf (ih h)

def checked (f : σ → ℓ → Option σ) (ok : σ → ℓ → Bool) (s : σ) (l : ℓ) : Option σ :=
  if ok s l then f s l else none

theorem guard_step_of_checked {f : σ → ℓ → Option σ} {ok : σ → ℓ → Bool} {P : σ → ℓ → Prop}
    (hok : ∀ s l, ok s l = true → P s l) {s s' : σ} {l : ℓ} (h : checked f ok s l = some s') :
    ((ofStep f).guard P).step s l s' := by
  unfold checked at h
  split_ifs at h with hl
  exact ⟨hok s l hl, h⟩

theorem guard_run_of_checked {f : σ → ℓ → Option σ} {ok : σ → ℓ → Bool} {P : σ → ℓ → Prop}
    (hok : ∀ s l, ok s l = true → P s l) {s s' : σ} {ls : List ℓ}
    (h : exec (checked f ok) s ls = some s') : ((ofStep f).guard P).Run s ls s' := by
  induction ls generalizing s with
  | nil =>
    cases h
    exact .nil
  | cons l ls ih =>
    cases hf : checked f ok s l with
    | none => simp [exec, hf] at h
    | some t =>
      simp only [exec, hf] at h
      exact Run.cons (guard_step_of_checked hok hf) (ih h)

/-! ### Infinite runs -/

structure Path (T : Lts σ ℓ) where
  state : ℕ → σ
  label : ℕ → ℓ
  step : ∀ n, T.step (state n) (label n) (state (n + 1))

theorem Path.run (p : T.Path) (n : ℕ) : ∃ ls, T.Run (p.state 0) ls (p.state n) := by
  induction n with
  | zero => exact ⟨[], .nil⟩
  | succ n ih =>
    obtain ⟨ls, hr⟩ := ih
    exact ⟨_, hr.snoc (p.step n)⟩

/-- What is pending ends, if its own steps are taken again and again and lower a rank that no other
step raises. -/
theorem Path.ends {α : Type*} [Preorder α] [WellFoundedLT α] (p : T.Path) (Pending : σ → Prop)
    (Own : ℓ → Prop) (rank : σ → α)
    (hmono : ∀ n, Pending (p.state n) → Pending (p.state (n + 1)) →
      rank (p.state (n + 1)) ≤ rank (p.state n))
    (hown : ∀ n, Pending (p.state n) → Pending (p.state (n + 1)) → Own (p.label n) →
      rank (p.state (n + 1)) < rank (p.state n))
    (hfair : ∀ n, Pending (p.state n) → ∃ m ≥ n, Own (p.label m)) (n : ℕ) :
    ∃ m ≥ n, ¬ Pending (p.state m) := by
  by_contra hnot
  have hpending : ∀ m ≥ n, Pending (p.state m) := by
    intro m hm
    by_contra h
    exact hnot ⟨m, hm, h⟩
  -- no rank is left that a later state could have
  have hnone : ∀ r : α, ∀ k ≥ n, rank (p.state k) ≤ r → False := by
    intro r
    induction r using WellFoundedLT.induction with
    | ind r ih =>
      intro k hk hr
      obtain ⟨m, hm, ho⟩ := hfair k (hpending k hk)
      have hle : ∀ j ≥ k, rank (p.state j) ≤ rank (p.state k) := by
        intro j hj
        induction j, hj using Nat.le_induction with
        | base => exact le_refl _
        | succ j hj ihj =>
          exact (hmono j (hpending j (by omega)) (hpending (j + 1) (by omega))).trans ihj
      have hlt := hown m (hpending m (by omega)) (hpending (m + 1) (by omega)) ho
      exact ih _ (lt_of_lt_of_le hlt ((hle m hm).trans hr)) (m + 1) (by omega) (le_refl _)
  exact hnone _ n (Nat.le_refl n) (le_refl _)

def Path.cons (s : σ) (l : ℓ) (p : T.Path) (h : T.step s l (p.state 0)) : T.Path where
  state
    | 0 => s
    | n + 1 => p.state n
  label
    | 0 => l
    | n + 1 => p.label n
  step
    | 0 => h
    | n + 1 => p.step n

theorem Run.extend {s₀ s : σ} {ls : List ℓ} (hr : T.Run s₀ ls s) (p : T.Path)
    (h : p.state 0 = s) :
    ∃ q : T.Path, q.state 0 = s₀ ∧
      ∃ N, ∀ n, q.state (n + N) = p.state n ∧ q.label (n + N) = p.label n := by
  induction hr generalizing p with
  | nil => exact ⟨p, h, 0, fun _ => ⟨rfl, rfl⟩⟩
  | @snoc ls s s' l _ hs ih =>
    obtain ⟨q, hq, N, hN⟩ := ih (p.cons s l (h ▸ hs)) rfl
    refine ⟨q, hq, N + 1, fun n => ?_⟩
    rw [show n + (N + 1) = (n + 1) + N by omega]
    exact hN (n + 1)

def Path.constant {s : σ} {l : ℓ} (h : T.step s l s) : T.Path := ⟨fun _ => s, fun _ => l, fun _ => h⟩

/-! ### What every run comes to -/

/-- Every run from here that stops only where it has to, and all of whose steps meet `G`, comes to
`P` after finitely many steps. -/
inductive Inevitably (T : Lts σ ℓ) (G : σ → ℓ → Prop) (P : σ → Prop) : σ → Prop
  | now {s : σ} : P s → Inevitably T G P s
  | later {s : σ} : (∃ l s', T.step s l s') →
      (∀ l s', (T.guard G).step s l s' → Inevitably T G P s') → Inevitably T G P s

theorem inevitably_of_bound {G : σ → ℓ → Prop} {P : σ → Prop} (I : ℕ → σ → Prop)
    (hprogress : ∀ n s, I n s → P s ∨ ∃ l s', T.step s l s')
    (hstep : ∀ n s l s', I n s → (T.guard G).step s l s' → ∃ m < n, I m s') {n : ℕ} {s : σ}
    (hs : I n s) : T.Inevitably G P s := by
  induction n using Nat.strong_induction_on generalizing s with
  | h n ih =>
    rcases hprogress n s hs with hnow | hmove
    · exact .now hnow
    · apply Inevitably.later hmove
      intro l s' hl
      obtain ⟨m, hm, hnext⟩ := hstep n s l s' hs hl
      exact ih m hm hnext

end Lts
end Transition
