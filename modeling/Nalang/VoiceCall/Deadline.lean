import Nalang.VoiceCall.CallTimer

/-!
# The end of a call

A side decides by its own countdown that the call is over. It is right unless an
extension is still under way to it, or waits there to be rendered.
-/

namespace Nalang.VoiceCall
open Transition

def TimeUpdate.weight : TimeUpdate → ℤ
  | tick => -1
  | extend seconds => seconds

theorem TimeUpdate.apply_eq (t : ℤ) (u : TimeUpdate) : apply t u = t + u.weight := by
  cases u with
  | tick => rfl
  | extend seconds => rfl

/-! ### The pace of one side -/

namespace CustomRoomUI

def queuedTicks (ui : CustomRoomUI) : ℕ := ui.remainingTime.queue.count .tick

def queuedExtensions (ui : CustomRoomUI) : ℕ := ui.remainingTime.queue.count (.extend extendSec)

/-- Between two effects at most two timeouts run out, the one that was set before and the one that
the first effect sets. -/
structure Paced (ui : CustomRoomUI) : Prop where
  updates : ∀ u ∈ ui.remainingTime.queue, u = .tick ∨ u = .extend extendSec
  set : ui.queuedTicks + ui.timer.toNat ≤ 2
  due : ui.due = true → ui.queuedTicks + ui.timer.toNat ≤ 1
  low : -1 ≤ ui.remainingTime.rendered - ui.queuedTicks - ui.timer.toNat

variable {ui : CustomRoomUI}

theorem sum_weights {us : List TimeUpdate} (h : ∀ u ∈ us, u = .tick ∨ u = .extend extendSec) :
    (us.map TimeUpdate.weight).sum = 300 * us.count (.extend extendSec) - us.count .tick := by
  induction us with
  | nil => rfl
  | cons u us ih =>
    obtain ⟨hu, hus⟩ := List.forall_mem_cons.mp h
    have hrest := ih hus
    rcases hu with rfl | rfl
    · simp only [List.map_cons, List.sum_cons, List.count_cons, TimeUpdate.weight, hrest]
      simp
      omega
    · simp only [List.map_cons, List.sum_cons, List.count_cons, TimeUpdate.weight, hrest]
      simp [extendSec]
      omega

theorem Paced.time_eq (h : ui.Paced) : ui.time =
    ui.remainingTime.rendered - ui.queuedTicks + 300 * ui.queuedExtensions := by
  unfold time queuedTicks queuedExtensions
  rw [StateHook.value_eq_add_sum TimeUpdate.weight TimeUpdate.apply_eq, sum_weights h.updates]
  omega

theorem paced_mount : mount.Paced where
  updates u hu := absurd hu List.not_mem_nil
  set := by decide
  due _ := by decide
  low := by decide

theorem queuedTicks_setRemainingTime (u : TimeUpdate) :
    (ui.setRemainingTime u).queuedTicks = ui.queuedTicks + if u = .tick then 1 else 0 := by
  unfold queuedTicks setRemainingTime
  rw [StateHook.dispatch_queue, List.count_append, List.count_singleton]
  simp

theorem updates_setRemainingTime (h : ∀ u ∈ ui.remainingTime.queue, u = .tick ∨ u = .extend extendSec)
    {u : TimeUpdate} (hu : u = .tick ∨ u = .extend extendSec) :
    ∀ u' ∈ (ui.setRemainingTime u).remainingTime.queue, u' = .tick ∨ u' = .extend extendSec := by
  intro u' hin
  rcases List.mem_append.mp hin with hin | hin
  · exact h u' hin
  · rw [List.mem_singleton.mp hin]
    exact hu

theorem Paced.extended (h : ui.Paced) : (ui.setRemainingTime (.extend extendSec)).Paced := by
  have hticks : (ui.setRemainingTime (.extend extendSec)).queuedTicks = ui.queuedTicks :=
    queuedTicks_setRemainingTime _
  constructor
  case updates => exact updates_setRemainingTime h.updates (.inr rfl)
  case set =>
    rw [hticks]
    exact h.set
  case due =>
    rw [hticks]
    exact h.due
  case low =>
    rw [hticks]
    exact h.low

theorem Paced.ticked (h : ui.Paced) (htimer : ui.timer = true) : ui.tick.Paced := by
  have hticks : ui.tick.queuedTicks = ui.queuedTicks + 1 := queuedTicks_setRemainingTime .tick
  have htimer' : ui.tick.timer.toNat = 0 := rfl
  have hset := h.set
  have hdue := h.due
  have hlow := h.low
  rw [htimer, Bool.toNat_true] at hset hdue hlow
  constructor
  case updates => exact updates_setRemainingTime h.updates (.inl rfl)
  case set => omega
  case due =>
    intro hd
    have hbefore := hdue hd
    omega
  case low =>
    change -1 ≤ ui.remainingTime.rendered - ui.tick.queuedTicks - ui.tick.timer.toNat
    omega

theorem Paced.rendered (h : ui.Paced) : ui.render.Paced := by
  have hticks : ui.render.queuedTicks = 0 := rfl
  have htimer : ui.render.timer.toNat = ui.timer.toNat := rfl
  have htime : ui.render.remainingTime.rendered = ui.time := rfl
  have hbound : ui.timer.toNat ≤ 1 := Bool.toNat_le ui.timer
  have hlow := h.low
  have heq := h.time_eq
  constructor
  case updates => exact fun u hu => absurd hu List.not_mem_nil
  case set => omega
  case due => omega
  case low => omega

theorem queuedTicks_timerEffect : ui.timerEffect.queuedTicks = ui.queuedTicks := by
  unfold timerEffect
  split_ifs <;> rfl

theorem Paced.effect (h : ui.Paced) (hdue : ui.due = true) : ui.timerEffect.Paced := by
  have hset := h.due hdue
  have hlow := h.low
  have hticks := ui.queuedTicks_timerEffect
  by_cases hend : ui.remainingTime.rendered ≤ 0
  · have heq : ui.timerEffect =
        { ui with timer := false, due := false, cleanups := ui.cleanups + 1 } := if_pos hend
    rw [heq] at hticks ⊢
    refine ⟨h.updates, ?_, fun hd => (by cases hd), ?_⟩
    · rw [hticks, Bool.toNat_false]
      omega
    · rw [hticks, Bool.toNat_false]
      change -1 ≤ ui.remainingTime.rendered - ui.queuedTicks - (0 : ℕ)
      omega
  · have heq : ui.timerEffect = { ui with timer := true, due := false } := if_neg hend
    rw [heq] at hticks ⊢
    refine ⟨h.updates, ?_, fun hd => (by cases hd), ?_⟩
    · rw [hticks, Bool.toNat_true]
      omega
    · rw [hticks, Bool.toNat_true]
      change -1 ≤ ui.remainingTime.rendered - ui.queuedTicks - (1 : ℕ)
      omega

theorem Paced.left (h : ui.Paced) : ui.leave.Paced := by
  have hticks : ui.leave.queuedTicks = ui.queuedTicks := rfl
  have htimer : ui.leave.timer.toNat = 0 := rfl
  have hset := h.set
  have hdue := h.due
  have hlow := h.low
  constructor
  case updates => exact h.updates
  case set => omega
  case due =>
    intro hd
    have hbefore := hdue hd
    omega
  case low =>
    change -1 ≤ ui.remainingTime.rendered - ui.leave.queuedTicks - ui.leave.timer.toNat
    omega

end CustomRoomUI

section Runs
variable {ls : List CallLabel} {log : List (Call × CallLabel)} {s s' : Call} {p : Peer}

theorem paced_of_effect {l : CallLabel} (hg : s.Genuine) (h : (s.ui p).Paced)
    (he : s.Effect l s') : (s'.ui p).Paced := by
  by_cases hp : p = l.peer
  · rw [hp] at h ⊢
    cases he with
    | clicks =>
      rw [Call.publish_ui]
      exact Call.modify_self ▸ h.extended
    | @delivers q index message _ hm =>
      rw [hg q message (List.mem_of_getElem? hm)]
      exact Call.received_self ▸ h.extended
    | ticks _ htimer => exact Call.modify_self ▸ h.ticked htimer
    | renders => exact Call.modify_self ▸ h.rendered
    | runs _ hdue => exact Call.modify_self ▸ h.effect hdue
    | leaves => exact Call.modify_self ▸ h.left
  · rwa [Call.ui_of_effect he hp]

theorem paced_of_run (hr : call.Run .start ls s) : (s.ui p).Paced := by
  induction hr with
  | nil => exact CustomRoomUI.paced_mount
  | snoc hr hs ih => exact paced_of_effect (genuine_of_run hr) ih (Call.effect_of_step hs)

def Call.Undisturbed (s : Call) (p : Peer) : Prop :=
  s.inFlight p = [] ∧ ∀ u ∈ (s.ui p).remainingTime.queue, u = .tick

/-- A side that sees the end of its time is right exactly if nothing comes that it does not see. -/
theorem ahead_iff_undisturbed (hg : s.Genuine) (hp : (s.ui p).Paced)
    (hend : (s.ui p).remainingTime.rendered ≤ 0) : s.ahead p ≤ 0 ↔ s.Undisturbed p := by
  have htime := hp.time_eq
  have hlow := hp.low
  have hnone : (s.ui p).queuedExtensions = 0 ↔
      ∀ u ∈ (s.ui p).remainingTime.queue, u = .tick := by
    unfold CustomRoomUI.queuedExtensions
    rw [List.count_eq_zero]
    constructor
    · intro hno u hu
      rcases hp.updates u hu with rfl | rfl
      · rfl
      · exact absurd hu hno
    · intro hall hin
      cases hall _ hin
  unfold Call.ahead Call.Undisturbed
  rw [Call.payload_sum (hg p), ← hnone, ← List.length_eq_zero_iff]
  omega

/-- The step starts `cleanupAndLeave`. -/
def Expires (e : Call × CallLabel) (p : Peer) : Prop :=
  ∃ s', e.1.step e.2 = some s' ∧ (e.1.ui p).cleanups < (s'.ui p).cleanups

theorem cleanups_timerEffect (ui : CustomRoomUI) : ui.timerEffect.cleanups =
    ui.cleanups + if ui.remainingTime.rendered ≤ 0 then 1 else 0 := by
  unfold CustomRoomUI.timerEffect
  split_ifs <;> rfl

theorem cleanups_modify {f : CustomRoomUI → CustomRoomUI} {n : ℕ}
    (h : (f (s.ui p)).cleanups = (s.ui p).cleanups + n) :
    ((s.modify p f).ui p).cleanups = (s.ui p).cleanups + n := by
  rw [Call.modify_self, h]

theorem cleanups_of_effect {l : CallLabel} (hg : s.Genuine) (he : s.Effect l s') :
    (s'.ui p).cleanups = (s.ui p).cleanups +
      if l = .effect p ∧ (s.ui p).remainingTime.rendered ≤ 0 then 1 else 0 := by
  by_cases hp : p = l.peer
  · subst hp
    cases he with
    | clicks =>
      rw [Call.publish_ui, if_neg (by simp)]
      exact cleanups_modify rfl
    | @delivers q index message _ hm =>
      rw [hg q message (List.mem_of_getElem? hm), if_neg (by simp)]
      exact cleanups_modify rfl
    | ticks =>
      rw [if_neg (by simp)]
      exact cleanups_modify rfl
    | renders =>
      rw [if_neg (by simp)]
      exact cleanups_modify rfl
    | @runs q _ _ =>
      simp only [CallLabel.peer, true_and]
      exact cleanups_modify (cleanups_timerEffect _)
    | leaves =>
      rw [if_neg (by simp)]
      exact cleanups_modify rfl
  · rw [Call.ui_of_effect he hp, if_neg, add_zero]
    rintro ⟨rfl, -⟩
    exact hp rfl

theorem expires_end {e : Call × CallLabel} (hg : e.1.Genuine) (h : Expires e p) :
    (e.1.ui p).left = false ∧ (e.1.ui p).remainingTime.rendered ≤ 0 := by
  obtain ⟨s', hs, hlt⟩ := h
  rw [cleanups_of_effect hg (Call.effect_of_step hs)] at hlt
  split_ifs at hlt with hend
  · obtain ⟨hl, hend⟩ := hend
    refine ⟨?_, hend⟩
    cases Call.effect_of_step (hl ▸ hs) with
    | runs hleft => exact hleft
  · omega

def OnTime (log : List (Call × CallLabel)) : Prop :=
  ∀ before e after p, log = before ++ e :: after → Expires e p →
    300 * (1 + clicks (before.map Prod.snd)) ≤ ticks p (before.map Prod.snd)

theorem before_of_run (hr : call.recorded.Run ([], .start) ls (log, s))
    {before after : List (Call × CallLabel)} {e : Call × CallLabel}
    (he : log = before ++ e :: after) : call.Run .start (before.map Prod.snd) e.1 := by
  have hguarded : (call.recorded.guard fun _ _ => True).Run ([], .start) ls (log, s) :=
    hr.guard_labels fun _ _ => trivial
  obtain ⟨ls', _, hbefore, _⟩ := hguarded.before_recorded he
  have hplain := hbefore.of_guard
  rw [hplain.recorded_labels]
  exact hplain.of_recorded

theorem on_time_iff_undisturbed (hr : call.recorded.Run ([], .start) ls (log, s)) :
    OnTime log ↔ ∀ e ∈ log, ∀ p, Expires e p → e.1.Undisturbed p := by
  have hstart : ∀ before e after p, log = before ++ e :: after → Expires e p →
      (300 * (1 + clicks (before.map Prod.snd)) ≤ ticks p (before.map Prod.snd) ↔
        e.1.Undisturbed p) := by
    intro before e after p he hexp
    have hbefore := before_of_run hr he
    have hg := genuine_of_run hbefore
    obtain ⟨hleft, hend⟩ := expires_end hg hexp
    have hahead := ahead_of_run hbefore hleft
    rw [← ahead_iff_undisturbed hg (paced_of_run hbefore) hend]
    omega
  constructor
  · intro h e hin p hexp
    obtain ⟨before, after, he⟩ := List.append_of_mem hin
    exact (hstart before e after p he hexp).mp (h before e after p he hexp)
  · intro h before e after p he hexp
    exact (hstart before e after p he hexp).mpr
      (h e (he ▸ List.mem_append_right _ (List.mem_cons_self ..)) p hexp)

end Runs

/-! ### An extension that comes too late -/

def counting (t : ℤ) : CustomRoomUI := ⟨⟨t, []⟩, true, false, 0, false⟩

def counted (t : ℤ) : CustomRoomUI := ⟨⟨t, []⟩, false, true, 0, false⟩

def passing : ℕ → List CallLabel
  | 0 => [.effect .first]
  | n + 1 => passing n ++ [.tick .first, .render .first] ++ [.effect .first]

theorem render_tick_counting (t : ℤ) : (counting t).tick.render = counted (t - 1) := by
  have hvalue : (counting t).tick.time = t - 1 := rfl
  unfold CustomRoomUI.render
  rw [hvalue]
  simp [counting, counted, CustomRoomUI.tick, CustomRoomUI.setRemainingTime, StateHook.render,
    StateHook.dispatch, StateHook.value, TimeUpdate.apply]

theorem second_passes {s : Call} {t : ℤ} (h : s.ui .first = counting t) :
    ∃ s', call.Run s [.tick .first, .render .first] s' ∧ s'.ui .first = counted (t - 1) ∧
      s'.ui .second = s.ui .second := by
  have htick : s.step (.tick .first) = some (s.modify .first .tick) := by
    simp [Call.step, Call.stepOf, CallLabel.peer, h, counting]
  have hrender : (s.modify .first .tick).step (.render .first) =
      some ((s.modify .first .tick).modify .first .render) := by
    simp [Call.step, Call.stepOf, CallLabel.peer, h, counting, CustomRoomUI.tick,
      CustomRoomUI.setRemainingTime]
  refine ⟨_, Lts.Run.cons htick (Lts.Run.single hrender), ?_, ?_⟩
  · rw [Call.modify_self, Call.modify_self, h, render_tick_counting]
  · rw [Call.modify_ne (by decide), Call.modify_ne (by decide)]

theorem effect_counted {s : Call} {t : ℤ} (h : s.ui .first = counted t) :
    s.step (.effect .first) = some (s.modify .first .timerEffect) := by
  simp [Call.step, Call.stepOf, CallLabel.peer, h, counted]

theorem passing_run {n : ℕ} (hn : n < 300) : ∃ s, call.Run .start (passing n) s ∧
    s.ui .first = counting (300 - n) ∧ (s.ui .second).left = false := by
  induction n with
  | zero => exact ⟨_, Lts.Run.single rfl, rfl, rfl⟩
  | succ n ih =>
    obtain ⟨s, hr, hfirst, hsecond⟩ := ih (by omega)
    obtain ⟨s', hr', hfirst', hsecond'⟩ := second_passes hfirst
    refine ⟨_, (hr.append hr').snoc (effect_counted hfirst'), ?_, ?_⟩
    · rw [Call.modify_self, hfirst']
      unfold CustomRoomUI.timerEffect
      rw [if_neg]
      · simp [counted, counting]
        omega
      · simp [counted]
        omega
    · rw [Call.modify_ne (by decide), hsecond']
      exact hsecond

theorem passing_counts (n : ℕ) : clicks (passing n) = 0 ∧ ticks .first (passing n) = n := by
  induction n with
  | zero => exact ⟨rfl, rfl⟩
  | succ n ih =>
    have hclicks : clicks (passing (n + 1)) = clicks (passing n) + 0 := by
      simp [passing, clicks, List.countP_append, CallLabel.isExtend]
    have hticks : ticks .first (passing (n + 1)) = ticks .first (passing n) + 1 := by
      simp [passing, ticks, List.count_append]
    omega

/-- The other side clicks in the last second, and its message is still under way. -/
def tooLate : List CallLabel := passing 299 ++ [.extend .second] ++ [.tick .first, .render .first]

theorem tooLate_expires : ∃ s, call.Run .start tooLate s ∧ Expires (s, .effect .first) .first ∧
    clicks tooLate = 1 ∧ ticks .first tooLate = 300 := by
  obtain ⟨s, hr, hfirst, hsecond⟩ := passing_run (n := 299) (by decide)
  have hextend : call.step s (.extend .second)
      ((s.modify .second .handleExtend).publish .second CustomRoomUI.extendMessage) := by
    simp [call, Lts.ofStep, Call.step, Call.stepOf, CallLabel.peer, hsecond]
  have hfirst' : ((s.modify .second .handleExtend).publish .second
      CustomRoomUI.extendMessage).ui .first = counting 1 := by
    rw [Call.publish_ui, Call.modify_ne (by decide), hfirst]
    rfl
  obtain ⟨s', hr', hcounted, -⟩ := second_passes hfirst'
  obtain ⟨hclicks, hticks⟩ := passing_counts 299
  refine ⟨s', (hr.snoc hextend).append hr', ⟨_, effect_counted hcounted, ?_⟩, ?_, ?_⟩
  · rw [Call.modify_self, cleanups_timerEffect, hcounted]
    decide
  · have hsplit : clicks tooLate = clicks (passing 299) + 1 := by
      simp [tooLate, clicks, List.countP_append, List.countP_cons, CallLabel.isExtend]
    omega
  · have hsplit : ticks .first tooLate = ticks .first (passing 299) + 1 := by
      simp [tooLate, ticks, List.count_append]
    omega

theorem late_log : ∃ log s, call.recorded.Run ([], .start) (tooLate ++ [.effect .first]) (log, s) ∧
    ¬ OnTime log := by
  obtain ⟨s, hr, hexp, hclicks, hticks⟩ := tooLate_expires
  obtain ⟨log, hlog⟩ := hr.logged
  obtain ⟨s', hs, -⟩ := id hexp
  have hlabels : log.map Prod.snd = tooLate := hlog.recorded_labels
  refine ⟨log ++ [(s, .effect .first)], s', hlog.snoc ⟨rfl, hs⟩, fun hontime => ?_⟩
  have hlate := hontime log (s, .effect .first) [] .first rfl hexp
  rw [hlabels, hclicks, hticks] at hlate
  omega

theorem cut_off : ¬ ∀ ls log s, call.recorded.Run ([], .start) ls (log, s) → OnTime log := by
  intro hall
  obtain ⟨log, s, hr, hlate⟩ := late_log
  exact hlate (hall _ _ _ hr)

theorem on_time_iff_undisturbed_late : ∃ log : List (Call × CallLabel),
    ¬ ∀ e ∈ log, ∀ p, Expires e p → e.1.Undisturbed p := by
  obtain ⟨log, s, hr, hlate⟩ := late_log
  exact ⟨log, (on_time_iff_undisturbed hr).not.mp hlate⟩

end Nalang.VoiceCall
