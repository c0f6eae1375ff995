import Mathlib.Algebra.Ring.Int.Defs
import Mathlib.Tactic.SplitIfs
import Nalang.Library.StateHook
import Nalang.Library.Transition

/-!
# The time left in a call

Each of the two sides of a call counts down on its own. A click that extends the call
adds five minutes here, and sends a message that adds them on the other side. The
side whose countdown ends deletes the room for both.
-/

namespace Nalang.VoiceCall
open Transition

inductive Peer
  | first
  | second
  deriving DecidableEq

def Peer.other : Peer → Peer
  | first => second
  | second => first

theorem Peer.other_ne (p : Peer) : p.other ≠ p := by cases p <;> decide

theorem Peer.eq_other {p q : Peer} (h : p ≠ q) : p = q.other := by
  cases p <;> cases q <;> first | rfl | exact absurd rfl h

inductive TimeUpdate
  | tick
  | extend (seconds : ℤ)
  deriving DecidableEq

def TimeUpdate.apply (t : ℤ) : TimeUpdate → ℤ
  | tick => t - 1
  | extend seconds => t + seconds

structure DataMessage where
  type : String
  payload : ℤ
  deriving DecidableEq

structure CustomRoomUI where
  remainingTime : StateHook ℤ TimeUpdate
  /-- The timeout of the effect on `remainingTime` is set. -/
  timer : Bool
  /-- The effect on `remainingTime` has to run. -/
  due : Bool
  cleanups : ℕ
  left : Bool

namespace CustomRoomUI

def mount : CustomRoomUI := ⟨⟨300, []⟩, false, true, 0, false⟩

def time (ui : CustomRoomUI) : ℤ := ui.remainingTime.value TimeUpdate.apply

def setRemainingTime (ui : CustomRoomUI) (u : TimeUpdate) : CustomRoomUI :=
  { ui with remainingTime := ui.remainingTime.dispatch u }

def extendSec : ℤ := 300

def extendMessage : DataMessage := ⟨"extend_time", extendSec⟩

def handleExtend (ui : CustomRoomUI) : CustomRoomUI := ui.setRemainingTime (.extend extendSec)

def handleData (ui : CustomRoomUI) (message : DataMessage) : CustomRoomUI :=
  if message.type = "extend_time" then ui.setRemainingTime (.extend message.payload) else ui

def tick (ui : CustomRoomUI) : CustomRoomUI := { ui.setRemainingTime .tick with timer := false }

def render (ui : CustomRoomUI) : CustomRoomUI :=
  { ui with
    remainingTime := ui.remainingTime.render TimeUpdate.apply
    due := decide (ui.time ≠ ui.remainingTime.rendered) }

/-- The effect clears the timeout it has set before. -/
def timerEffect (ui : CustomRoomUI) : CustomRoomUI :=
  if ui.remainingTime.rendered ≤ 0 then
    { ui with timer := false, due := false, cleanups := ui.cleanups + 1 }
  else { ui with timer := true, due := false }

def leave (ui : CustomRoomUI) : CustomRoomUI := { ui with timer := false, left := true }

end CustomRoomUI

inductive CallLabel
  | extend (p : Peer)
  | deliver (p : Peer) (index : ℕ)
  | tick (p : Peer)
  | render (p : Peer)
  | effect (p : Peer)
  | leave (p : Peer)
  deriving DecidableEq

structure Call where
  ui : Peer → CustomRoomUI
  inFlight : Peer → List DataMessage

namespace Call

def start : Call := ⟨fun _ => .mount, fun _ => []⟩

def modify (s : Call) (p : Peer) (f : CustomRoomUI → CustomRoomUI) : Call :=
  { s with ui := Function.update s.ui p (f (s.ui p)) }

/-- `publishData`, which reaches the other side if it is there. -/
def publish (s : Call) (p : Peer) (message : DataMessage) : Call :=
  if (s.ui p.other).left then s
  else { s with
    inFlight := Function.update s.inFlight p.other (s.inFlight p.other ++ [message]) }

def received (s : Call) (p : Peer) (index : ℕ) (message : DataMessage) : Call :=
  { s with
    inFlight := Function.update s.inFlight p ((s.inFlight p).eraseIdx index) }.modify p
      fun ui => ui.handleData message

def stepOf (s : Call) : CallLabel → Option Call
  | .extend p => some ((s.modify p .handleExtend).publish p CustomRoomUI.extendMessage)
  | .deliver p index =>
    match (s.inFlight p)[index]? with
    | none => none
    | some message => some (s.received p index message)
  | .tick p => if (s.ui p).timer then some (s.modify p .tick) else none
  | .render p => if (s.ui p).due then none else some (s.modify p .render)
  | .effect p => if (s.ui p).due then some (s.modify p .timerEffect) else none
  | .leave p => some (s.modify p .leave)

end Call

def CallLabel.peer : CallLabel → Peer
  | .extend p => p
  | .deliver p _ => p
  | .tick p => p
  | .render p => p
  | .effect p => p
  | .leave p => p

/-- A side that has left does nothing more. -/
def Call.step (s : Call) (l : CallLabel) : Option Call :=
  if (s.ui l.peer).left then none else s.stepOf l

def call : Lts Call CallLabel := Lts.ofStep Call.step

/-! ### What is conserved -/

def CallLabel.isExtend : CallLabel → Bool
  | .extend _ => true
  | _ => false

def clicks (ls : List CallLabel) : ℕ := ls.countP CallLabel.isExtend

def ticks (p : Peer) (ls : List CallLabel) : ℕ := ls.count (.tick p)

/-- What is left of the time of a side, with what is on its way to it. -/
def Call.ahead (s : Call) (p : Peer) : ℤ :=
  (s.ui p).time + ((s.inFlight p).map DataMessage.payload).sum

def Call.Genuine (s : Call) : Prop := ∀ p, ∀ m ∈ s.inFlight p, m = CustomRoomUI.extendMessage

namespace CustomRoomUI
variable {ui : CustomRoomUI}

@[simp] theorem time_setRemainingTime (u : TimeUpdate) :
    (ui.setRemainingTime u).time = TimeUpdate.apply ui.time u :=
  StateHook.value_dispatch u

@[simp] theorem time_handleExtend : ui.handleExtend.time = ui.time + 300 :=
  time_setRemainingTime _

@[simp] theorem time_handleData_extend : (ui.handleData extendMessage).time = ui.time + 300 :=
  time_setRemainingTime _

@[simp] theorem time_tick : ui.tick.time = ui.time - 1 := time_setRemainingTime .tick

@[simp] theorem time_render : ui.render.time = ui.time := StateHook.value_render

@[simp] theorem time_timerEffect : ui.timerEffect.time = ui.time := by
  unfold timerEffect
  split_ifs <;> rfl

@[simp] theorem time_leave : ui.leave.time = ui.time := rfl

end CustomRoomUI

namespace Call
variable {s s' : Call} {p q : Peer}

@[simp] theorem modify_self {f : CustomRoomUI → CustomRoomUI} : (s.modify p f).ui p = f (s.ui p) :=
  Function.update_self ..

theorem modify_ne {f : CustomRoomUI → CustomRoomUI} (h : q ≠ p) : (s.modify p f).ui q = s.ui q :=
  Function.update_of_ne h ..

@[simp] theorem modify_inFlight {f : CustomRoomUI → CustomRoomUI} :
    (s.modify p f).inFlight = s.inFlight := rfl

@[simp] theorem publish_ui {message : DataMessage} : (s.publish p message).ui = s.ui := by
  unfold publish
  split_ifs <;> rfl

theorem publish_inFlight_other {message : DataMessage} (h : (s.ui p.other).left = false) :
    (s.publish p message).inFlight p.other = s.inFlight p.other ++ [message] := by
  unfold publish
  rw [if_neg (by simp [h])]
  exact Function.update_self ..

theorem publish_inFlight_ne {message : DataMessage} (h : q ≠ p.other) :
    (s.publish p message).inFlight q = s.inFlight q := by
  unfold publish
  split_ifs
  · rfl
  · exact Function.update_of_ne h ..

theorem mem_publish {message m : DataMessage} (hm : m ∈ (s.publish p message).inFlight q) :
    m ∈ s.inFlight q ∨ m = message := by
  by_cases hq : q = p.other
  · cases hleft : (s.ui p.other).left with
    | true =>
      unfold publish at hm
      rw [hleft, if_pos rfl] at hm
      exact .inl hm
    | false =>
      rw [hq, publish_inFlight_other hleft, List.mem_append, List.mem_singleton] at hm
      exact hq ▸ hm
  · rw [publish_inFlight_ne hq] at hm
    exact .inl hm

section Received
variable {index : ℕ} {message : DataMessage}

@[simp] theorem received_self :
    (s.received p index message).ui p = (s.ui p).handleData message :=
  Function.update_self ..

theorem received_ne (h : q ≠ p) : (s.received p index message).ui q = s.ui q :=
  Function.update_of_ne h ..

@[simp] theorem received_inFlight_self :
    (s.received p index message).inFlight p = (s.inFlight p).eraseIdx index :=
  Function.update_self ..

theorem received_inFlight_ne (h : q ≠ p) :
    (s.received p index message).inFlight q = s.inFlight q :=
  Function.update_of_ne h ..

end Received

theorem ahead_modify {f : CustomRoomUI → CustomRoomUI} {seconds : ℤ}
    (h : (f (s.ui p)).time = (s.ui p).time + seconds) :
    (s.modify p f).ahead q = s.ahead q + if q = p then seconds else 0 := by
  unfold ahead
  by_cases hq : q = p
  · rw [hq, modify_self, h, if_pos rfl, modify_inFlight]
    omega
  · rw [modify_ne hq, if_neg hq, modify_inFlight]
    omega

theorem ahead_publish (h : (s.ui q).left = false) :
    (s.publish p CustomRoomUI.extendMessage).ahead q =
      s.ahead q + if q = p.other then 300 else 0 := by
  unfold ahead
  by_cases hq : q = p.other
  · rw [hq] at h
    rw [hq, publish_ui, publish_inFlight_other h, if_pos rfl, List.map_append, List.sum_append]
    simp [CustomRoomUI.extendMessage, CustomRoomUI.extendSec, add_assoc]
  · rw [publish_ui, publish_inFlight_ne hq, if_neg hq, add_zero]

theorem payload_sum {messages : List DataMessage}
    (h : ∀ m ∈ messages, m = CustomRoomUI.extendMessage) :
    (messages.map DataMessage.payload).sum = 300 * messages.length := by
  induction messages with
  | nil => rfl
  | cons m messages ih =>
    obtain ⟨hm, hrest⟩ := List.forall_mem_cons.mp h
    have hpayload : m.payload = 300 := by
      rw [hm]
      rfl
    simp only [List.map_cons, List.sum_cons, List.length_cons, ih hrest, hpayload]
    omega

theorem ahead_received {index : ℕ} (hg : s.Genuine) (hindex : index < (s.inFlight p).length) :
    (s.received p index CustomRoomUI.extendMessage).ahead q = s.ahead q := by
  unfold ahead
  by_cases hq : q = p
  · have hrest : ∀ m ∈ (s.inFlight p).eraseIdx index, m = CustomRoomUI.extendMessage :=
      fun m hm => hg p m (List.mem_of_mem_eraseIdx hm)
    have hlen := List.length_eraseIdx_of_lt hindex
    rw [hq, received_self, received_inFlight_self, payload_sum hrest, payload_sum (hg p),
      CustomRoomUI.time_handleData_extend, hlen]
    omega
  · rw [received_ne hq, received_inFlight_ne hq]

/-! ### What a step does -/

inductive Effect (s : Call) : CallLabel → Call → Prop
  | clicks {p : Peer} : (s.ui p).left = false → Effect s (.extend p)
      ((s.modify p .handleExtend).publish p CustomRoomUI.extendMessage)
  | delivers {p : Peer} {index : ℕ} {message : DataMessage} : (s.ui p).left = false →
      (s.inFlight p)[index]? = some message →
      Effect s (.deliver p index) (s.received p index message)
  | ticks {p : Peer} : (s.ui p).left = false → (s.ui p).timer = true →
      Effect s (.tick p) (s.modify p .tick)
  | renders {p : Peer} : (s.ui p).left = false → (s.ui p).due = false →
      Effect s (.render p) (s.modify p .render)
  | runs {p : Peer} : (s.ui p).left = false → (s.ui p).due = true →
      Effect s (.effect p) (s.modify p .timerEffect)
  | leaves {p : Peer} : (s.ui p).left = false → Effect s (.leave p) (s.modify p .leave)

theorem effect_of_step {l : CallLabel} (hs : s.step l = some s') : Effect s l s' := by
  unfold step at hs
  cases hleft : (s.ui l.peer).left with
  | true => simp [hleft] at hs
  | false =>
    rw [hleft, if_neg Bool.false_ne_true] at hs
    cases l with
    | extend p =>
      cases hs
      exact .clicks hleft
    | deliver p index =>
      unfold stepOf at hs
      cases hm : (s.inFlight p)[index]? with
      | none => simp [hm] at hs
      | some message =>
        simp only [hm, Option.some.injEq] at hs
        rw [← hs]
        exact .delivers hleft hm
    | tick p =>
      obtain ⟨htimer, hs⟩ := Option.ite_none_right_eq_some.mp hs
      cases hs
      exact .ticks hleft htimer
    | render p =>
      obtain ⟨hdue, hs⟩ := Option.ite_none_left_eq_some.mp hs
      cases hs
      exact .renders hleft (Bool.eq_false_iff.mpr hdue)
    | effect p =>
      obtain ⟨hdue, hs⟩ := Option.ite_none_right_eq_some.mp hs
      cases hs
      exact .runs hleft hdue
    | leave p =>
      cases hs
      exact .leaves hleft

theorem genuine_of_effect {l : CallLabel} (hg : s.Genuine) (he : Effect s l s') : s'.Genuine := by
  cases he with
  | clicks => exact fun p m hm => (mem_publish hm).elim (hg p m) id
  | @delivers q index message _ _ =>
    intro p m hm
    by_cases hp : p = q
    · rw [hp, received_inFlight_self] at hm
      exact hg q m (List.mem_of_mem_eraseIdx hm)
    · rw [received_inFlight_ne hp] at hm
      exact hg p m hm
  | ticks => exact hg
  | renders => exact hg
  | runs => exact hg
  | leaves => exact hg

theorem ui_of_effect {l : CallLabel} (he : Effect s l s') (hp : p ≠ l.peer) :
    s'.ui p = s.ui p := by
  cases he with
  | clicks =>
    rw [publish_ui]
    exact modify_ne hp
  | delivers => exact received_ne hp
  | ticks => exact modify_ne hp
  | renders => exact modify_ne hp
  | runs => exact modify_ne hp
  | leaves => exact modify_ne hp

theorem left_of_effect {l : CallLabel} (he : Effect s l s') (hleft : (s'.ui p).left = false) :
    (s.ui p).left = false := by
  by_cases hp : p = l.peer
  · rw [hp]
    cases he with
    | clicks h => exact h
    | delivers h => exact h
    | ticks h => exact h
    | renders h => exact h
    | runs h => exact h
    | leaves h => exact h
  · rwa [ui_of_effect he hp] at hleft

theorem ahead_of_effect {l : CallLabel} (hg : s.Genuine) (he : Effect s l s')
    (hleft : (s'.ui p).left = false) :
    s'.ahead p + (if l = .tick p then 1 else 0) = s.ahead p + if l.isExtend then 300 else 0 := by
  cases he with
  | @clicks q _ =>
    have hmod : (s.modify q .handleExtend).ahead p = s.ahead p + if p = q then 300 else 0 :=
      ahead_modify CustomRoomUI.time_handleExtend
    rw [publish_ui] at hleft
    rw [ahead_publish hleft, hmod]
    by_cases hp : p = q
    · simp [hp, q.other_ne.symm, CallLabel.isExtend]
    · simp [Peer.eq_other hp, q.other_ne, CallLabel.isExtend]
  | @delivers q index message _ hm =>
    rw [hg q message (List.mem_of_getElem? hm),
      ahead_received hg (List.getElem?_eq_some_iff.mp hm).1]
    simp [CallLabel.isExtend]
  | @ticks q _ _ =>
    have hmod : (s.modify q .tick).ahead p = s.ahead p + if p = q then -1 else 0 :=
      ahead_modify CustomRoomUI.time_tick
    rw [hmod]
    by_cases hp : p = q
    · simp [hp, CallLabel.isExtend]
    · simp [hp, Ne.symm hp, CallLabel.isExtend]
  | @renders q _ _ =>
    have hmod : (s.modify q .render).ahead p = s.ahead p + if p = q then 0 else 0 :=
      ahead_modify (by simp)
    simp [hmod, CallLabel.isExtend]
  | @runs q _ _ =>
    have hmod : (s.modify q .timerEffect).ahead p = s.ahead p + if p = q then 0 else 0 :=
      ahead_modify (by simp)
    simp [hmod, CallLabel.isExtend]
  | @leaves q _ =>
    have hmod : (s.modify q .leave).ahead p = s.ahead p + if p = q then 0 else 0 :=
      ahead_modify (by simp)
    simp [hmod, CallLabel.isExtend]

end Call

section Runs
variable {ls : List CallLabel} {s : Call} {p : Peer}

@[simp] theorem clicks_snoc (l : CallLabel) :
    clicks (ls ++ [l]) = clicks ls + if l.isExtend then 1 else 0 := by
  unfold clicks
  rw [List.countP_append, List.countP_singleton]

@[simp] theorem ticks_snoc (l : CallLabel) :
    ticks p (ls ++ [l]) = ticks p ls + if l = .tick p then 1 else 0 := by
  unfold ticks
  rw [List.count_append, List.count_singleton]
  simp

theorem genuine_of_run (hr : call.Run .start ls s) : s.Genuine :=
  hr.invariant Call.Genuine (fun _ _ hm => absurd hm List.not_mem_nil)
    fun _ _ _ hg hs => Call.genuine_of_effect hg (Call.effect_of_step hs)

theorem ahead_of_run (hr : call.Run .start ls s) (hleft : (s.ui p).left = false) :
    s.ahead p + ticks p ls = 300 + 300 * clicks ls := by
  induction hr with
  | nil => rfl
  | @snoc ls s s' l hr hs ih =>
    have he := Call.effect_of_step hs
    have hstep := Call.ahead_of_effect (genuine_of_run hr) he hleft
    have hbefore := ih (Call.left_of_effect he hleft)
    rw [ticks_snoc, clicks_snoc]
    split_ifs at hstep ⊢ <;> omega

/-- As long as nobody leaves, the time left on each side, the time that has passed there and the
extensions under way to it add up to the time of the call. -/
theorem call_time_conserved (hr : call.Run .start ls s) (hstay : ∀ p, (s.ui p).left = false) :
    (∀ p, (s.ui p).time + ticks p ls + ((s.inFlight p).map DataMessage.payload).sum =
      300 + 300 * clicks ls) ∧
    ((∀ p, s.inFlight p = []) →
      (s.ui .first).time + ticks .first ls = (s.ui .second).time + ticks .second ls) := by
  have hsum : ∀ p, (s.ui p).time + ticks p ls + ((s.inFlight p).map DataMessage.payload).sum =
      300 + 300 * clicks ls := by
    intro p
    have hahead := ahead_of_run hr (hstay p)
    unfold Call.ahead at hahead
    omega
  refine ⟨hsum, fun hnone => ?_⟩
  have hfirst := hsum .first
  have hsecond := hsum .second
  rw [hnone, List.map_nil, List.sum_nil] at hfirst hsecond
  omega

def crossing : List CallLabel :=
  [.effect .first, .effect .second, .extend .first, .extend .second, .tick .first, .deliver .first 0,
    .render .first]

theorem call_time_conserved_crossing : ∃ s, call.Run .start crossing s ∧
    (∀ p, (s.ui p).time + ticks p crossing + ((s.inFlight p).map DataMessage.payload).sum =
      300 + 300 * 2) := by
  have hexec : ((Lts.exec Call.step .start crossing).map fun s =>
      ((s.ui .first).left, (s.ui .second).left)) = some (false, false) := rfl
  obtain ⟨s, hs, hleft⟩ := Option.map_eq_some_iff.mp hexec
  have hr := Lts.run_of_exec hs
  refine ⟨s, hr, (call_time_conserved hr fun p => ?_).1⟩
  cases p with
  | first => exact (Prod.mk.inj hleft).1
  | second => exact (Prod.mk.inj hleft).2

end Runs

end Nalang.VoiceCall
