import Mathlib.Tactic.Linarith
import Nalang.Agent.Egress

/-!
# The wait for the recording

`wait_s3_object_exists` asks for the object until it is there, an answer is no 404, or
the time is over, and sleeps for two seconds in between. The egress service stores the
object at a time of its own. Times are in microseconds.
-/

namespace Nalang.Agent
open Interaction Transition

def second : ℕ := 1000000

inductive WaitPhase
  | checking
  | heading
  | sleeping
  | ended (answer : Except String Bool)

structure Wait where
  now : ℕ
  deadline : ℕ
  storedAt : Option ℕ
  phase : WaitPhase
  polls : ℕ

inductive WaitLabel
  | check
  /-- The failures are those that are no 404. -/
  | head (duration : ℕ) (failure : Option String)
  /-- `asyncio.sleep` takes the time it is given at least. -/
  | wake (late : ℕ)
  | upload

/-- How `head_object` goes on. An object that is not there is a 404. -/
def headed (stored : Bool) : Option String → WaitPhase
  | some e => .ended (.error e)
  | none => if stored then .ended (.ok true) else .sleeping

namespace Wait

def start (now timeoutSec : ℕ) (storedAt : Option ℕ) : Wait :=
  ⟨now, now + timeoutSec * second, storedAt, .checking, 0⟩

def step (s : Wait) : WaitLabel → Option Wait
  | .check =>
    match s.phase with
    | .checking =>
      some { s with phase := if s.now < s.deadline then .heading else .ended (.ok false) }
    | _ => none
  | .head duration failure =>
    match s.phase with
    | .heading => some { s with
        now := s.now + duration
        polls := s.polls + 1
        phase := headed s.storedAt.isSome failure }
    | _ => none
  | .wake late =>
    match s.phase with
    | .sleeping => some { s with now := s.now + 2 * second + late, phase := .checking }
    | _ => none
  | .upload => if s.storedAt = none then some { s with storedAt := some s.now } else none

def Ended (s : Wait) : Prop := ∃ answer, s.phase = .ended answer

end Wait

def waiting : Lts Wait WaitLabel := Lts.ofStep Wait.step

/-! ### How often the object is asked for -/

def WaitPhase.slept : WaitPhase → Bool
  | .sleeping => false
  | .ended _ => false
  | _ => true

def Wait.Sound (s : Wait) : Prop :=
  match s.phase with
  | .heading => s.now < s.deadline
  | .ended (.ok true) => s.storedAt ≠ none
  | .ended (.ok false) => s.deadline ≤ s.now
  | _ => True

/-- Two seconds lie between one call and the next. -/
structure Wait.Paced (now₀ timeoutSec : ℕ) (s : Wait) : Prop where
  deadline : s.deadline = now₀ + timeoutSec * second
  spaced : now₀ + 2 * second * s.polls ≤ s.now + if s.phase.slept then 0 else 2 * second
  last : 0 < s.polls → now₀ + 2 * second * s.polls < s.deadline + 2 * second
  sound : s.Sound

section Pace
variable {now₀ timeoutSec : ℕ} {s s' : Wait} {l : WaitLabel}

theorem headed_cases (storedAt : Option ℕ) (failure : Option String) :
    headed storedAt.isSome failure = .sleeping ∧ storedAt = none ∨
      headed storedAt.isSome failure = .ended (.ok true) ∧ storedAt ≠ none ∨
        ∃ e, headed storedAt.isSome failure = .ended (.error e) := by
  cases failure with
  | some e => exact .inr (.inr ⟨e, rfl⟩)
  | none =>
    cases storedAt with
    | none => exact .inl ⟨rfl, rfl⟩
    | some t => exact .inr (.inl ⟨rfl, Option.some_ne_none t⟩)

theorem paced_start (now timeoutSec : ℕ) (storedAt : Option ℕ) :
    (Wait.start now timeoutSec storedAt).Paced now timeoutSec where
  deadline := rfl
  spaced := Nat.le_refl now
  last h := absurd h (Nat.lt_irrefl 0)
  sound := trivial

theorem paced_check (h : s.Paced now₀ timeoutSec) (hphase : s.phase = .checking) :
    Wait.Paced now₀ timeoutSec
      { s with phase := if s.now < s.deadline then .heading else .ended (.ok false) } := by
  have hspaced := h.spaced
  rw [hphase] at hspaced
  by_cases hnow : s.now < s.deadline
  · rw [if_pos hnow]
    exact ⟨h.deadline, hspaced, h.last, hnow⟩
  · rw [if_neg hnow]
    refine ⟨h.deadline, ?_, h.last, not_lt.mp hnow⟩
    exact hspaced.trans (Nat.add_le_add_left (Nat.zero_le _) _)

theorem paced_head (h : s.Paced now₀ timeoutSec) (hphase : s.phase = .heading) (duration : ℕ)
    (failure : Option String) : Wait.Paced now₀ timeoutSec
      { s with
        now := s.now + duration
        polls := s.polls + 1
        phase := headed s.storedAt.isSome failure } := by
  have hspaced := h.spaced
  have hnow := h.sound
  rw [hphase] at hspaced
  rw [Wait.Sound, hphase] at hnow
  simp only [WaitPhase.slept, if_true] at hspaced
  have hlast : now₀ + 2 * second * (s.polls + 1) < s.deadline + 2 * second := by linarith
  have hcalled : ∀ phase : WaitPhase, phase.slept = false → now₀ + 2 * second * (s.polls + 1) ≤
      s.now + duration + if phase.slept then 0 else 2 * second := by
    intro phase hslept
    rw [hslept, if_neg Bool.false_ne_true]
    linarith
  rcases headed_cases s.storedAt failure with ⟨hh, -⟩ | ⟨hh, hstored⟩ | ⟨e, hh⟩
  · rw [hh]
    exact ⟨h.deadline, hcalled _ rfl, fun _ => hlast, trivial⟩
  · rw [hh]
    exact ⟨h.deadline, hcalled _ rfl, fun _ => hlast, hstored⟩
  · rw [hh]
    exact ⟨h.deadline, hcalled _ rfl, fun _ => hlast, trivial⟩

theorem sound_upload (h : s.Sound) : Wait.Sound { s with storedAt := some s.now } := by
  unfold Wait.Sound at h ⊢
  cases hphase : s.phase with
  | ended answer =>
    rw [hphase] at h
    cases answer with
    | error e => trivial
    | ok found =>
      cases found with
      | true => exact Option.some_ne_none s.now
      | false => exact h
  | heading =>
    rw [hphase] at h
    exact h
  | _ => trivial

theorem paced_step (h : s.Paced now₀ timeoutSec) (hs : s.step l = some s') :
    s'.Paced now₀ timeoutSec := by
  unfold Wait.step at hs
  cases l with
  | check =>
    cases hphase : s.phase with
    | checking =>
      simp only [hphase, Option.some.injEq] at hs
      rw [← hs]
      exact paced_check h hphase
    | _ => simp [hphase] at hs
  | head duration failure =>
    cases hphase : s.phase with
    | heading =>
      simp only [hphase, Option.some.injEq] at hs
      rw [← hs]
      exact paced_head h hphase duration failure
    | _ => simp [hphase] at hs
  | wake late =>
    cases hphase : s.phase with
    | sleeping =>
      simp only [hphase, Option.some.injEq] at hs
      rw [← hs]
      refine ⟨h.deadline, ?_, h.last, trivial⟩
      have hspaced := h.spaced
      rw [hphase] at hspaced
      simp only [WaitPhase.slept, if_true, Bool.false_eq_true, if_false] at hspaced ⊢
      linarith
    | _ => simp [hphase] at hs
  | upload =>
    obtain ⟨-, hs⟩ := Option.ite_none_right_eq_some.mp hs
    cases hs
    exact ⟨h.deadline, h.spaced, h.last, sound_upload h.sound⟩

theorem paced_polls (h : s.Paced now₀ timeoutSec) : 2 * s.polls ≤ timeoutSec + 1 := by
  rcases Nat.eq_zero_or_pos s.polls with hnone | hpos
  · omega
  · have hlast := h.last hpos
    rw [h.deadline] at hlast
    unfold second at hlast
    omega

end Pace

/-! ### The wait comes to its end -/

def WaitPhase.rank : WaitPhase → ℕ
  | .checking => 2
  | .heading => 1
  | .sleeping => 3
  | .ended _ => 0

/-- A bound on the steps that are left. The upload is one of them. -/
def Wait.left (timeoutSec : ℕ) (s : Wait) : ℕ :=
  2 * (4 * (timeoutSec + 1 - s.polls) + s.phase.rank) + if s.storedAt = none then 1 else 0

section Progress
variable {now₀ timeoutSec : ℕ} {s s' : Wait} {l : WaitLabel}

theorem left_step (h' : s'.Paced now₀ timeoutSec) (hs : s.step l = some s') :
    s'.left timeoutSec < s.left timeoutSec := by
  have hpolls := paced_polls h'
  unfold Wait.step at hs
  unfold Wait.left
  cases l with
  | check =>
    cases hphase : s.phase with
    | checking =>
      simp only [hphase, Option.some.injEq] at hs
      subst hs
      dsimp only
      split_ifs <;> simp [WaitPhase.rank]
    | _ => simp [hphase] at hs
  | head duration failure =>
    cases hphase : s.phase with
    | heading =>
      simp only [hphase, Option.some.injEq] at hs
      subst hs
      dsimp only at hpolls ⊢
      have hrank : (headed s.storedAt.isSome failure).rank ≤ 3 := by
        rcases headed_cases s.storedAt failure with ⟨hh, -⟩ | ⟨hh, -⟩ | ⟨e, hh⟩ <;>
          simp [hh, WaitPhase.rank]
      have hheading : WaitPhase.heading.rank = 1 := rfl
      omega
    | _ => simp [hphase] at hs
  | wake late =>
    cases hphase : s.phase with
    | sleeping =>
      simp only [hphase, Option.some.injEq] at hs
      subst hs
      simp [WaitPhase.rank]
    | _ => simp [hphase] at hs
  | upload =>
    obtain ⟨hnone, hs⟩ := Option.ite_none_right_eq_some.mp hs
    cases hs
    simp [hnone]

theorem wait_progress (s : Wait) : s.Ended ∨ ∃ l s', waiting.step s l s' := by
  cases hphase : s.phase with
  | ended answer => exact .inl ⟨answer, hphase⟩
  | checking => exact .inr ⟨.check, _, by simp [waiting, Lts.ofStep, Wait.step, hphase]; rfl⟩
  | heading => exact .inr ⟨.head 0 none, _, by simp [waiting, Lts.ofStep, Wait.step, hphase]; rfl⟩
  | sleeping => exact .inr ⟨.wake 0, _, by simp [waiting, Lts.ofStep, Wait.step, hphase]; rfl⟩

end Progress

/-- The call of `on_shutdown` ends after 150 requests at most. It says that the recording is there
only if it is, and that it is not only when five minutes are over. -/
theorem wait_settles (now : ℕ) (storedAt : Option ℕ) :
    waiting.Inevitably (fun _ _ => True) Wait.Ended (.start now 300 storedAt) ∧
      ∀ ls s, waiting.Run (.start now 300 storedAt) ls s → s.polls ≤ 150 ∧
        (s.phase = .ended (.ok true) → s.storedAt ≠ none) ∧
        (s.phase = .ended (.ok false) → now + 300 * second ≤ s.now) := by
  constructor
  · refine Lts.inevitably_of_bound (fun n s => s.Paced now 300 ∧ n = s.left 300)
      (fun _ s _ => wait_progress s) ?_ ⟨paced_start now 300 storedAt, rfl⟩
    rintro n s l s' ⟨h, rfl⟩ ⟨-, hs⟩
    have h' := paced_step h hs
    exact ⟨s'.left 300, left_step h' hs, h', rfl⟩
  · intro ls s hr
    have h : s.Paced now 300 :=
      hr.invariant _ (paced_start now 300 storedAt) fun _ _ _ h hs => paced_step h hs
    have hpolls := paced_polls h
    have hsound := h.sound
    refine ⟨by omega, fun hfound => ?_, fun hlate => ?_⟩
    · rwa [Wait.Sound, hfound] at hsound
    · rwa [Wait.Sound, hlate, h.deadline] at hsound

/-! ### An object that comes in time -/

/-- The object will be asked for in time, or has been found. -/
def Wait.InTime (most : ℕ) (s : Wait) : Prop :=
  match s.phase with
  | .checking => s.now < s.deadline
  | .heading => True
  | .sleeping => s.now + 2 * second + most < s.deadline
  | .ended answer => answer = .ok true

section Punctual
variable {most : ℕ} {s s' : Wait} {l : WaitLabel}

end Punctual

/-! ### What the job tells the server -/

structure Bucket where
  now : ℕ
  storedAt : Option ℕ

/-- The wait of `on_shutdown` is one whose steps meet `G`. -/
def waits (G : Wait → WaitLabel → Prop) : Semantics Bucket Op.Answer
  | .waitS3ObjectExists _ _, b, answer, b' => ∃ ls s,
    (waiting.guard G).Run (.start b.now 300 b.storedAt) ls s ∧ s.phase = .ended answer ∧
      b' = ⟨s.now, s.storedAt⟩
  | _, b, _, b' => b' = b

section Shutdown
variable {G : Wait → WaitLabel → Prop} {env : Env} {callback : ShutdownCallback} {b b' : Bucket}
  {es : List (Event Op.Answer)} {result : Except String Unit}

end Shutdown

end Nalang.Agent
