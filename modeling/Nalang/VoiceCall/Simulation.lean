import Nalang.VoiceCall.CallTimer
import Nalang.VoiceCall.PeerData

/-!
# Packets of the other side

As long as all packets are those that `handleExtend` sends, and the time stays among the whole
numbers that are exact, the numbers of JavaScript do what the whole numbers of the call do.
-/

namespace Nalang.VoiceCall.PeerData
open Transition Binary64 JavaScript

structure Shows (ui : CustomRoomUI) (side : VoiceCall.CustomRoomUI) : Prop where
  time : ui.time = seconds side.time
  rendered : ui.remainingTime.rendered = seconds side.remainingTime.rendered
  timer : ui.timer = side.timer
  due : ui.due = side.due

section Shows
variable {ui : CustomRoomUI} {side : VoiceCall.CustomRoomUI} {t n : ℤ}

theorem apply_tick (hexact : |t - 1| ≤ maxExact) :
    TimeUpdate.tick.apply (seconds t) = seconds (t - 1) := by
  change some (pred (.number (.finite t))) = _
  rw [pred_finite, ← Int.cast_one, ← Int.cast_sub, rounded_intCast hexact]
  rfl

theorem apply_extend (hexact : |t + n| ≤ maxExact) :
    (TimeUpdate.extend (.primitive (.number (.finite n)))).apply (seconds t) = seconds (t + n) := by
  have hcounts : (Value.primitive (.number (.finite n))).CountsAs n := ⟨_, rfl, rfl, by simp⟩
  change plus (.number (.finite t)) (.primitive (.number (.finite n))) = _
  rw [plus_countsAs hcounts, ← Int.cast_add, rounded_intCast hexact]
  rfl

theorem shows_mount : Shows .mount VoiceCall.CustomRoomUI.mount := ⟨rfl, rfl, rfl, rfl⟩

theorem Shows.tick (h : Shows ui side) (hexact : |side.time - 1| ≤ maxExact) :
    Shows ui.tick side.tick where
  time := by
    rw [CustomRoomUI.time_tick, h.time, apply_tick hexact, VoiceCall.CustomRoomUI.time_tick]
  rendered := h.rendered
  timer := rfl
  due := h.due

theorem Shows.extend (h : Shows ui side) (hexact : |side.time + 300| ≤ maxExact) :
    Shows (ui.handleData (encodeText extendMessage))
      (side.handleData VoiceCall.CustomRoomUI.extendMessage) := by
  have hdata : ui.handleData (encodeText extendMessage) =
      ui.setRemainingTime (.extend (.primitive (.number (.finite (300 : ℤ))))) := by
    rw [CustomRoomUI.handleData_of_rendered h.rendered, extension_extendMessage]
    rfl
  rw [hdata]
  constructor
  case time =>
    rw [CustomRoomUI.time_setRemainingTime, h.time, apply_extend hexact,
      VoiceCall.CustomRoomUI.time_handleData_extend]
  case rendered => exact h.rendered
  case timer => exact h.timer
  case due => exact h.due

theorem Shows.render (h : Shows ui side) : Shows ui.render side.render where
  time := by rw [CustomRoomUI.time_render, h.time, VoiceCall.CustomRoomUI.time_render]
  rendered := h.time
  timer := (CustomRoomUI.timer_render h.time).trans h.timer
  due := CustomRoomUI.due_render h.time h.rendered

theorem Shows.timerEffect (h : Shows ui side) : Shows ui.timerEffect side.timerEffect := by
  unfold VoiceCall.CustomRoomUI.timerEffect
  by_cases hend : side.remainingTime.rendered ≤ 0
  · rw [if_pos hend, CustomRoomUI.timerEffect_of_nonpos h.rendered hend]
    exact ⟨h.time, h.rendered, rfl, rfl⟩
  · rw [if_neg hend, CustomRoomUI.timerEffect_of_pos h.rendered (by omega)]
    exact ⟨h.time, h.rendered, rfl, rfl⟩

end Shows

structure Honest (ui : CustomRoomUI) (l : Label) : Prop where
  packet : ∀ payload, l = .data payload → payload = encodeText extendMessage
  exact : ∃ t : ℤ, ui.time = seconds t ∧ |t| + 300 ≤ maxExact

/-- A packet is a click on the other side that is delivered at once. -/
def callLabels : Label → List CallLabel
  | .data _ => [.extend .second, .deliver .first 0]
  | .tick => [.tick .first]
  | .render => [.render .first]
  | .effect => [.effect .first]

structure Stands (ui : CustomRoomUI) (s : Call) : Prop where
  shows : Shows ui (s.ui .first)
  inFlight : s.inFlight .first = []
  present : ∀ p, (s.ui p).left = false

section Runs
variable {ui ui' : CustomRoomUI} {s : Call} {l : Label} {ls : List Label}

theorem Stands.modify (h : Stands ui s) {f : VoiceCall.CustomRoomUI → VoiceCall.CustomRoomUI}
    (hf : (f (s.ui .first)).left = (s.ui .first).left) (hshows : Shows ui' (f (s.ui .first))) :
    Stands ui' (s.modify .first f) where
  shows := by rwa [Call.modify_self]
  inFlight := h.inFlight
  present p := by
    cases p with
    | first => rw [Call.modify_self, hf, h.present .first]
    | second => rw [Call.modify_ne (by decide), h.present .second]

theorem call_step {s' : Call} {l : CallLabel} (hpresent : (s.ui l.peer).left = false)
    (hs : s.stepOf l = some s') : call.step s l s' := by
  change s.step l = some s'
  unfold Call.step
  rw [hpresent, if_neg Bool.false_ne_true, hs]

theorem Stands.step (h : Stands ui s) {s' : Call} {l : CallLabel} (hs : s.stepOf l = some s') :
    call.Run s [l] s' :=
  Lts.Run.single (call_step (h.present l.peer) hs)

theorem Stands.extend (h : Stands ui s) (hexact : |(s.ui .first).time + 300| ≤ maxExact) :
    ∃ s', call.Run s [.extend .second, .deliver .first 0] s' ∧
      Stands (ui.handleData (encodeText extendMessage)) s' := by
  let clicked := (s.modify .second .handleExtend).publish .second
    VoiceCall.CustomRoomUI.extendMessage
  have hfirst : clicked.ui .first = s.ui .first := by
    rw [Call.publish_ui, Call.modify_ne (by decide)]
  have hsecond : (clicked.ui .second).left = false := by
    rw [Call.publish_ui, Call.modify_self]
    exact h.present .second
  have hflight : clicked.inFlight .first = [VoiceCall.CustomRoomUI.extendMessage] := by
    have hthere : ((s.modify .second .handleExtend).ui Peer.second.other).left = false := by
      rw [Call.modify_ne (by decide)]
      exact h.present .first
    have hpublish : clicked.inFlight .first =
        s.inFlight .first ++ [VoiceCall.CustomRoomUI.extendMessage] :=
      Call.publish_inFlight_other hthere
    rw [hpublish, h.inFlight]
    rfl
  have hdeliver : clicked.stepOf (.deliver .first 0) =
      some (clicked.received .first 0 VoiceCall.CustomRoomUI.extendMessage) := by
    simp only [Call.stepOf, hflight]
    rfl
  refine ⟨_, (h.step rfl).snoc (call_step ?_ hdeliver), ?_⟩
  · exact (congrArg _ hfirst).trans (h.present .first)
  · constructor
    case shows =>
      rw [Call.received_self, hfirst]
      exact h.shows.extend hexact
    case inFlight =>
      rw [Call.received_inFlight_self, hflight]
      rfl
    case present =>
      intro p
      cases p with
      | first =>
        rw [Call.received_self, hfirst]
        exact h.present .first
      | second =>
        rw [Call.received_ne (by decide)]
        exact hsecond

theorem simulated (h : Stands ui s) (hs : (customRoom.guard Honest).step ui l ui') :
    ∃ s', call.Run s (callLabels l) s' ∧ Stands ui' s' := by
  obtain ⟨⟨hpacket, t, ht, hexact⟩, hstep⟩ := hs
  obtain rfl : t = (s.ui .first).time :=
    CustomRoomUI.seconds_injective (ht.symm.trans h.shows.time)
  obtain ⟨hlow, hhigh⟩ := abs_le.mp (show |(s.ui .first).time| ≤ maxExact - 300 by omega)
  cases CustomRoomUI.effect_of_step hstep with
  | @handles payload =>
    obtain rfl := hpacket payload rfl
    exact h.extend (abs_le.mpr ⟨by omega, by omega⟩)
  | ticks htimer =>
    have hbound : |(s.ui .first).time - 1| ≤ maxExact := abs_le.mpr ⟨by omega, by omega⟩
    exact ⟨_, h.step (if_pos (h.shows.timer.symm.trans htimer)),
      h.modify rfl (h.shows.tick hbound)⟩
  | renders hdue hqueue =>
    have hready : ¬ (s.ui .first).due = true := by
      rw [← h.shows.due, hdue]
      exact Bool.false_ne_true
    exact ⟨_, h.step (if_neg hready), h.modify rfl h.shows.render⟩
  | runs hdue =>
    have hleft : (s.ui .first).timerEffect.left = (s.ui .first).left := by
      unfold VoiceCall.CustomRoomUI.timerEffect
      split_ifs <;> rfl
    exact ⟨_, h.step (if_pos (h.shows.due.symm.trans hdue)), h.modify hleft h.shows.timerEffect⟩

theorem simulated_run (hr : (customRoom.guard Honest).Run .mount ls ui) :
    ∃ s, call.Run .start (ls.flatMap callLabels) s ∧ Stands ui s := by
  induction hr with
  | nil => exact ⟨.start, .nil, shows_mount, rfl, fun _ => rfl⟩
  | snoc _ hs ih =>
    obtain ⟨s, hrun, hstands⟩ := ih
    obtain ⟨s', hrun', hstands'⟩ := simulated hstands hs
    refine ⟨s', ?_, hstands'⟩
    rw [List.flatMap_append, List.flatMap_singleton]
    exact hrun.append hrun'

end Runs

end Nalang.VoiceCall.PeerData
