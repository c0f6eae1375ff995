import Nalang.Library.Json
import Nalang.Library.QueryString
import Nalang.Library.StateHook
import Nalang.Library.Transition

/-!
# Packets of a peer

The other side of a call may send any bytes. An extension adds its payload, whatever that is, by
the `+` of JavaScript to the time that is left.
-/

namespace Nalang.VoiceCall.PeerData
open Transition Binary64 JavaScript

inductive TimeUpdate
  | tick
  | extend (payload : Value)

/-- Nothing is left of the time once an updater has thrown. -/
def TimeUpdate.apply (t : Option Primitive) : TimeUpdate → Option Primitive
  | tick => t.map pred
  | extend payload => t.bind fun t => plus t payload

structure CustomRoomUI where
  /-- What is rendered is nothing once an updater has thrown, as the component is unmounted. -/
  remainingTime : StateHook (Option Primitive) TimeUpdate
  timer : Bool
  due : Bool
  /-- The effect has started `cleanupAndLeave` when it ran last. -/
  leaving : Bool

def decodeText (payload : List UInt8) : List Char :=
  match QueryString.decode payload with
  | [] => []
  | c :: cs => if c = Char.ofNat 0xFEFF then cs else c :: cs

def extension (payload : List UInt8) : Option Value :=
  match Json.parse (decodeText payload) with
  | none => none
  -- `null` has no `type` to read, which throws
  | some (.primitive .null) => none
  | some message =>
    if (message.get (text "type")).equalsText (text "extend_time") then
      some (message.get (text "payload"))
    else none

namespace CustomRoomUI

def mount : CustomRoomUI := ⟨⟨some (.number (.finite 300)), []⟩, false, true, false⟩

def time (ui : CustomRoomUI) : Option Primitive := ui.remainingTime.value TimeUpdate.apply

def expired (ui : CustomRoomUI) : Bool :=
  match ui.remainingTime.rendered with
  | none => false
  | some t => t.toNumber.nonpos

def setRemainingTime (ui : CustomRoomUI) (u : TimeUpdate) : CustomRoomUI :=
  { ui with remainingTime := ui.remainingTime.dispatch u }

/-- The listener is gone with the component. -/
def handleData (ui : CustomRoomUI) (payload : List UInt8) : CustomRoomUI :=
  if ui.remainingTime.rendered = none then ui
  else
    match extension payload with
    | none => ui
    | some value => ui.setRemainingTime (.extend value)

def tick (ui : CustomRoomUI) : CustomRoomUI := { ui.setRemainingTime .tick with timer := false }

def render (ui : CustomRoomUI) : CustomRoomUI :=
  { ui with
    remainingTime := ui.remainingTime.render TimeUpdate.apply
    timer := ui.timer && ui.time.isSome
    due := ui.time.isSome && decide (ui.time ≠ ui.remainingTime.rendered) }

def timerEffect (ui : CustomRoomUI) : CustomRoomUI :=
  if ui.expired then { ui with timer := false, due := false, leaving := true }
  else { ui with timer := true, due := false, leaving := false }

end CustomRoomUI

inductive Label
  | data (payload : List UInt8)
  | tick
  | render
  | effect

def Label.isData : Label → Bool
  | data _ => true
  | _ => false

/-- A render that finds no update shows the same as before. -/
def CustomRoomUI.step (ui : CustomRoomUI) : Label → Option CustomRoomUI
  | .data payload => some (ui.handleData payload)
  | .tick => if ui.timer then some ui.tick else none
  | .render => if ui.due ∨ ui.remainingTime.queue.isEmpty then none else some ui.render
  | .effect => if ui.due then some ui.timerEffect else none

def customRoom : Lts CustomRoomUI Label := Lts.ofStep CustomRoomUI.step

inductive CustomRoomUI.Effect (ui : CustomRoomUI) : Label → CustomRoomUI → Prop
  | handles {payload : List UInt8} : Effect ui (.data payload) (ui.handleData payload)
  | ticks : ui.timer = true → Effect ui .tick ui.tick
  | renders : ui.due = false → ui.remainingTime.queue.isEmpty = false → Effect ui .render ui.render
  | runs : ui.due = true → Effect ui .effect ui.timerEffect

theorem CustomRoomUI.effect_of_step {ui ui' : CustomRoomUI} {l : Label}
    (hs : ui.step l = some ui') : ui.Effect l ui' := by
  cases l with
  | data payload =>
    cases hs
    exact .handles
  | tick =>
    obtain ⟨htimer, hs⟩ := Option.ite_none_right_eq_some.mp hs
    cases hs
    exact .ticks htimer
  | render =>
    obtain ⟨hready, hs⟩ := Option.ite_none_left_eq_some.mp hs
    cases hs
    rw [not_or, Bool.not_eq_true, Bool.not_eq_true] at hready
    exact .renders hready.1 hready.2
  | effect =>
    obtain ⟨hdue, hs⟩ := Option.ite_none_right_eq_some.mp hs
    cases hs
    exact .runs hdue

def seconds (t : ℤ) : Option Primitive := some (.number (.finite t))

/-! ### Packets that are extensions -/

def encodeText (s : String) : List UInt8 := s.toList.flatMap String.utf8EncodeChar

theorem decodeText_encodeText {s : String} (hs : s.toList.head? ≠ some (Char.ofNat 0xFEFF)) :
    decodeText (encodeText s) = s.toList := by
  unfold decodeText encodeText
  rw [QueryString.decode_encode]
  cases hlist : s.toList with
  | nil => rfl
  | cons c cs =>
    have hc : c ≠ Char.ofNat 0xFEFF := by
      rintro rfl
      exact hs (by rw [hlist, List.head?_cons])
    exact if_neg hc

theorem extension_encodeText {s : String} {members : List (Text × Value)}
    (hs : s.toList.head? ≠ some (Char.ofNat 0xFEFF))
    (hparse : Json.parse s.toList = some (.object members))
    (htype : ((Value.object members).get (text "type")).equalsText (text "extend_time") = true) :
    extension (encodeText s) = some ((Value.object members).get (text "payload")) := by
  unfold extension
  rw [decodeText_encodeText hs, hparse]
  exact if_pos htype

def extendMessage : String := "\x7b\"type\":\"extend_time\",\"payload\":300\x7d"

theorem extension_extendMessage :
    extension (encodeText extendMessage) = some (.primitive (.number (.finite 300))) := by
  have hparse : Json.parse extendMessage.toList =
      some (.object [(text "type", .primitive (.text (text "extend_time"))),
        (text "payload", .primitive (.number (rounded (decimal ['3', '0', '0'] [] 0))))]) := rfl
  have hpayload : rounded (decimal ['3', '0', '0'] [] 0) = .finite 300 := by
    have hnatural : natural ['3', '0', '0'] = 300 := by decide
    have hvalue : decimal ['3', '0', '0'] [] 0 = (300 : ℤ) := by simp [decimal, hnatural]
    rw [hvalue, rounded_intCast (by decide)]
    rfl
  rw [hpayload] at hparse
  exact extension_encodeText (by decide) hparse (by decide)

/-! ### Sound steps -/

/-- The payload adds to the time what a natural number adds, and not too much. -/
def CustomRoomUI.Lengthened (ui : CustomRoomUI) (payload : Value) : Prop :=
  ∃ t : ℤ, ui.time = seconds t ∧
    ∃ q, payload.CountsAs q ∧ ∃ k : ℕ, rounded (t + q) = rounded (t + k) ∧ t + k ≤ maxExact + 2

/-- Every extension lengthens the time, and what is rendered after a timeout is not the time that
was rendered before it, as the effect would not run again. -/
def Sound (ui : CustomRoomUI) : Label → Prop
  | .data payload => ∀ value, extension payload = some value → ui.Lengthened value
  | .render => ui.timer = true ∨ ui.expired = true ∨ ui.time ≠ ui.remainingTime.rendered
  | .tick => True
  | .effect => True

structure CustomRoomUI.Over (ui : CustomRoomUI) : Prop where
  expired : ui.expired = true
  settled : ui.due = false
  leaving : ui.leaving = true

structure CustomRoomUI.Counting (ui : CustomRoomUI) (t r : ℤ) : Prop where
  time : ui.time = seconds t
  rendered : ui.remainingTime.rendered = seconds r
  low : -1 ≤ t
  high : t ≤ maxExact + 2
  exact : t ≠ maxExact + 1
  armed : ui.timer = true → 0 ≤ t
  due : ui.due = true → 0 < r → 0 ≤ t ∧ (ui.timer = true → 1 ≤ t)
  ended : ui.due = false → r ≤ 0 → ui.leaving = true
  moving : ui.timer = false → ui.due = false → 0 < r → ui.remainingTime.queue ≠ []

namespace CustomRoomUI
variable {ui : CustomRoomUI} {t r : ℤ}

@[simp] theorem time_setRemainingTime (u : TimeUpdate) :
    (ui.setRemainingTime u).time = u.apply ui.time :=
  StateHook.value_dispatch u

@[simp] theorem time_tick : ui.tick.time = TimeUpdate.tick.apply ui.time :=
  time_setRemainingTime .tick

@[simp] theorem time_render : ui.render.time = ui.time := StateHook.value_render

theorem seconds_injective : Function.Injective seconds := by
  intro s t h
  unfold seconds at h
  simpa using h

theorem expired_of_rendered (h : ui.remainingTime.rendered = seconds r) :
    ui.expired = decide (r ≤ 0) := by
  unfold expired
  rw [h]
  simp [seconds, Primitive.toNumber, Number.nonpos]

theorem timer_render (h : ui.time = seconds t) : ui.render.timer = ui.timer := by
  have hsome : ui.time.isSome = true := by
    rw [h]
    rfl
  change (ui.timer && ui.time.isSome) = ui.timer
  rw [hsome, Bool.and_true]

theorem due_render (h : ui.time = seconds t) (hr : ui.remainingTime.rendered = seconds r) :
    ui.render.due = decide (t ≠ r) := by
  have hsome : ui.time.isSome = true := by
    rw [h]
    rfl
  change (ui.time.isSome && decide (ui.time ≠ ui.remainingTime.rendered)) = _
  rw [hsome, Bool.true_and, h, hr]
  exact decide_eq_decide.mpr seconds_injective.ne_iff

theorem timerEffect_of_nonpos (hr : ui.remainingTime.rendered = seconds r) (hend : r ≤ 0) :
    ui.timerEffect = { ui with timer := false, due := false, leaving := true } := by
  have hexpired : ui.expired = true := by rw [expired_of_rendered hr, decide_eq_true hend]
  exact if_pos hexpired

theorem timerEffect_of_pos (hr : ui.remainingTime.rendered = seconds r) (hpos : 0 < r) :
    ui.timerEffect = { ui with timer := true, due := false, leaving := false } := by
  have hexpired : ui.expired = false := by
    rw [expired_of_rendered hr]
    exact decide_eq_false hpos.not_ge
  exact if_neg (by rw [hexpired]; exact Bool.false_ne_true)

theorem counting_mount : mount.Counting 300 300 where
  time := rfl
  rendered := rfl
  low := by decide
  high := by decide
  exact := by decide
  armed := by decide
  due := by decide
  ended := by decide
  moving := by decide

theorem queue_setRemainingTime_ne_nil (u : TimeUpdate) :
    (ui.setRemainingTime u).remainingTime.queue ≠ [] :=
  List.concat_ne_nil u _

theorem Counting.tick (h : ui.Counting t r) (htimer : ui.timer = true) :
    ∃ t' < t, ui.tick.Counting t' r := by
  have harmed := h.armed htimer
  have hhigh := h.high
  have hmax := maxExact_pos
  obtain ⟨t', hround, ht'⟩ := rounded_upto (n := t - 1) (by omega) (by omega)
  have htime : TimeUpdate.tick.apply ui.time = seconds t' := by
    rw [h.time]
    change some (pred (.number (.finite t))) = _
    rw [pred_finite, ← Int.cast_one, ← Int.cast_sub, hround]
    rfl
  refine ⟨t', by omega, ?_⟩
  constructor
  case time => rw [time_tick, htime]
  case rendered => exact h.rendered
  case low => omega
  case high => omega
  case exact => omega
  case armed => exact fun hset => absurd hset Bool.false_ne_true
  case due =>
    intro hdue hpos
    have hone := (h.due hdue hpos).2 htimer
    exact ⟨by omega, fun hset => absurd hset Bool.false_ne_true⟩
  case ended => exact h.ended
  case moving => exact fun _ _ _ => queue_setRemainingTime_ne_nil .tick

theorem Counting.extend {payload : Value} (h : ui.Counting t r) (hlong : ui.Lengthened payload) :
    ∃ t' ≥ t, (ui.setRemainingTime (.extend payload)).Counting t' r := by
  obtain ⟨s, hs, q, hcounts, k, hround, hbound⟩ := hlong
  obtain rfl : t = s := seconds_injective (h.time.symm.trans hs)
  have hlow := h.low
  have hexact := h.exact
  have hmax := maxExact_pos
  obtain ⟨t', hsum, ht'⟩ := rounded_upto (n := t + k) (by omega) hbound
  have htime : (TimeUpdate.extend payload).apply ui.time = seconds t' := by
    rw [h.time]
    change plus (.number (.finite t)) payload = _
    rw [plus_countsAs hcounts, hround, ← Int.cast_natCast, ← Int.cast_add, hsum]
    rfl
  have hle : t ≤ t' := by omega
  refine ⟨t', hle, ?_⟩
  constructor
  case time => rw [time_setRemainingTime, htime]
  case rendered => exact h.rendered
  case low => omega
  case high => omega
  case exact => omega
  case armed => exact fun hset => (h.armed hset).trans hle
  case due =>
    intro hdue hpos
    obtain ⟨hnonneg, hset⟩ := h.due hdue hpos
    exact ⟨hnonneg.trans hle, fun htimer => (hset htimer).trans hle⟩
  case ended => exact h.ended
  case moving => exact fun _ _ _ => queue_setRemainingTime_ne_nil (.extend payload)

theorem Counting.render (h : ui.Counting t r) (hdue : ui.due = false)
    (hsound : Sound ui .render) : ui.render.Counting t t := by
  have htimer := timer_render h.time
  have hdue' := due_render h.time h.rendered
  constructor
  case time => exact time_render.trans h.time
  case rendered => exact h.time
  case low => exact h.low
  case high => exact h.high
  case exact => exact h.exact
  case armed =>
    rw [htimer]
    exact h.armed
  case due => exact fun _ hpos => ⟨by omega, fun _ => by omega⟩
  case ended =>
    rw [hdue', decide_eq_false_iff_not, not_not]
    rintro rfl
    exact h.ended hdue
  case moving =>
    rw [htimer, hdue', decide_eq_false_iff_not, not_not]
    rintro hoff rfl hpos
    -- the guard leaves no way to show the same time
    rcases hsound with hset | hend | hnew
    · exact absurd (hset.symm.trans hoff) (by decide)
    · rw [expired_of_rendered h.rendered, decide_eq_true_eq] at hend
      omega
    · exact absurd (h.time.trans h.rendered.symm) hnew

theorem Counting.effect (h : ui.Counting t r) (hdue : ui.due = true) :
    ui.timerEffect.Counting t r := by
  by_cases hend : r ≤ 0
  · rw [timerEffect_of_nonpos h.rendered hend]
    exact ⟨h.time, h.rendered, h.low, h.high, h.exact, by simp, by simp, by simp, by omega⟩
  · have hnonneg := (h.due hdue (by omega)).1
    rw [timerEffect_of_pos h.rendered (by omega)]
    exact ⟨h.time, h.rendered, h.low, h.high, h.exact, fun _ => hnonneg, by simp, by omega, by simp⟩

theorem handleData_of_rendered (hr : ui.remainingTime.rendered = seconds r)
    (payload : List UInt8) :
    ui.handleData payload =
      (extension payload).elim ui fun value => ui.setRemainingTime (.extend value) := by
  have hmounted : ui.remainingTime.rendered ≠ none := by simp [hr, seconds]
  unfold handleData
  rw [if_neg hmounted]
  cases extension payload with
  | none => rfl
  | some value => rfl

theorem Counting.data {payload : List UInt8} (h : ui.Counting t r)
    (hsound : Sound ui (.data payload)) : ∃ t' ≥ t, (ui.handleData payload).Counting t' r := by
  rw [handleData_of_rendered h.rendered]
  cases hext : extension payload with
  | none => exact ⟨t, le_refl t, h⟩
  | some value => exact h.extend (hsound value hext)

theorem Counting.sound_of_whole {payload : List UInt8} {t' : ℤ} (h : ui.Counting t r)
    (htime : (ui.handleData payload).time = seconds t') (hle : t ≤ t') (hmax : t' ≤ maxExact) :
    Sound ui (.data payload) := by
  intro value hvalue
  rw [handleData_of_rendered h.rendered, hvalue, Option.elim_some, time_setRemainingTime, h.time]
    at htime
  obtain ⟨q, hcounts, hsum⟩ := countsAs_of_plus htime
  have hlow := h.low
  have hpos := maxExact_pos
  have hgoal : t + ((t' - t).toNat : ℤ) = t' := by omega
  refine ⟨t, h.time, q, hcounts, (t' - t).toNat, ?_, by omega⟩
  rw [hsum, ← Int.cast_natCast, ← Int.cast_add, hgoal, rounded_intCast]
  rw [abs_le]
  constructor <;> omega

/-! ### The countdown ends -/

def stepsLeft (ui : CustomRoomUI) (t : ℤ) : ℕ :=
  4 * (t + 2).toNat + (if ui.remainingTime.queue.isEmpty then 0 else 2) + ui.due.toNat

theorem stepsLeft_tick {t' : ℤ} (hlow : -1 ≤ t') (hlt : t' < t) :
    ui.tick.stepsLeft t' < ui.stepsLeft t := by
  have hqueue : ui.tick.remainingTime.queue.isEmpty = false := by
    simp [CustomRoomUI.tick, setRemainingTime]
  have hdue : ui.tick.due.toNat = ui.due.toNat := rfl
  unfold stepsLeft
  rw [hqueue, hdue, if_neg Bool.false_ne_true]
  omega

theorem stepsLeft_render (hqueue : ui.remainingTime.queue.isEmpty = false) :
    ui.render.stepsLeft t < ui.stepsLeft t := by
  have hempty : ui.render.remainingTime.queue.isEmpty = true := rfl
  have hdue : ui.render.due.toNat ≤ 1 := Bool.toNat_le _
  unfold stepsLeft
  rw [hempty, hqueue, if_pos rfl, if_neg Bool.false_ne_true]
  omega

theorem stepsLeft_effect (hdue : ui.due = true) : ui.timerEffect.stepsLeft t < ui.stepsLeft t := by
  have hqueue : ui.timerEffect.remainingTime = ui.remainingTime := by
    unfold timerEffect
    split_ifs <;> rfl
  have hdone : ui.timerEffect.due = false := by
    unfold timerEffect
    split_ifs <;> rfl
  unfold stepsLeft
  rw [hqueue, hdone, hdue]
  simp

end CustomRoomUI

def quiet : Lts CustomRoomUI Label := customRoom.guard fun _ l => l.isData = false

section Runs
variable {ui ui' : CustomRoomUI} {t r : ℤ} {l : Label} {ls : List Label}

theorem counting_of_step (h : ui.Counting t r) (hs : (customRoom.guard Sound).step ui l ui') :
    ∃ t' r', ui'.Counting t' r' ∧ (l.isData = false → ui'.stepsLeft t' < ui.stepsLeft t) := by
  obtain ⟨hsound, hstep⟩ := hs
  cases CustomRoomUI.effect_of_step hstep with
  | handles =>
    obtain ⟨t', -, ht'⟩ := h.data hsound
    exact ⟨t', r, ht', fun hl => absurd hl.symm Bool.false_ne_true⟩
  | ticks htimer =>
    obtain ⟨t', hlt, ht'⟩ := h.tick htimer
    exact ⟨t', r, ht', fun _ => CustomRoomUI.stepsLeft_tick ht'.low hlt⟩
  | renders hdue hqueue =>
    exact ⟨t, t, h.render hdue hsound, fun _ => CustomRoomUI.stepsLeft_render hqueue⟩
  | runs hdue => exact ⟨t, r, h.effect hdue, fun _ => CustomRoomUI.stepsLeft_effect hdue⟩

theorem counting_of_run (hr : (customRoom.guard Sound).Run .mount ls ui) :
    ∃ t r, ui.Counting t r := by
  apply hr.invariant fun ui => ∃ t r, ui.Counting t r
  · exact ⟨300, 300, CustomRoomUI.counting_mount⟩
  · rintro ui l ui' ⟨t, r, h⟩ hs
    obtain ⟨t', r', h', -⟩ := counting_of_step h hs
    exact ⟨t', r', h'⟩

theorem over_or_step (h : ui.Counting t r) : ui.Over ∨ ∃ l ui', quiet.step ui l ui' := by
  cases hdue : ui.due with
  | true => exact .inr ⟨.effect, _, rfl, if_pos hdue⟩
  | false =>
    cases hqueue : ui.remainingTime.queue.isEmpty with
    | false =>
      have hready : ¬ (ui.due = true ∨ ui.remainingTime.queue.isEmpty = true) := by
        simp [hdue, hqueue]
      exact .inr ⟨.render, _, rfl, if_neg hready⟩
    | true =>
      have hnil := List.isEmpty_iff.mp hqueue
      by_cases hend : r ≤ 0
      · left
        refine ⟨?_, hdue, h.ended hdue hend⟩
        rw [CustomRoomUI.expired_of_rendered h.rendered]
        exact decide_eq_true hend
      · have htimer : ui.timer = true := by
          by_contra hoff
          exact h.moving (Bool.eq_false_iff.mpr hoff) hdue (by omega) hnil
        exact .inr ⟨.tick, _, rfl, if_pos htimer⟩

/-- If every step is sound, the time stays a whole number that no packet lowers, and without
further packets the countdown comes to its end. -/
theorem survives_of_sound (hr : (customRoom.guard Sound).Run .mount ls ui) :
    (∃ t r : ℤ, ui.time = seconds t ∧ ui.remainingTime.rendered = seconds r ∧
      ∀ payload, Sound ui (.data payload) → ∃ t' ≥ t, (ui.handleData payload).time = seconds t') ∧
    quiet.Inevitably Sound CustomRoomUI.Over ui := by
  obtain ⟨t, r, h⟩ := counting_of_run hr
  constructor
  · refine ⟨t, r, h.time, h.rendered, ?_⟩
    intro payload hsound
    obtain ⟨t', hle, h'⟩ := h.data hsound
    exact ⟨t', hle, h'.time⟩
  · apply Lts.inevitably_of_bound fun n ui => ∃ t r, ui.Counting t r ∧ n = ui.stepsLeft t
    · rintro n ui ⟨t, r, h, -⟩
      exact over_or_step h
    · rintro n ui l ui' ⟨t, r, h, rfl⟩ ⟨hsound, hl, hs⟩
      obtain ⟨t', r', h', hlt⟩ := counting_of_step h ⟨hsound, hs⟩
      exact ⟨_, hlt hl, t', r', h', rfl⟩
    · exact ⟨t, r, h, rfl⟩

end Runs

theorem survives_extension : ∃ ui,
    (customRoom.guard Sound).Run .mount [.effect, .data (encodeText extendMessage)] ui ∧
    (∃ t r : ℤ, ui.time = seconds t ∧ ui.remainingTime.rendered = seconds r ∧
      ∀ payload, Sound ui (.data payload) → ∃ t' ≥ t, (ui.handleData payload).time = seconds t') ∧
    quiet.Inevitably Sound CustomRoomUI.Over ui := by
  have hsound : Sound CustomRoomUI.mount.timerEffect (.data (encodeText extendMessage)) := by
    intro value hvalue
    rw [extension_extendMessage] at hvalue
    cases hvalue
    refine ⟨300, rfl, 300, ⟨_, rfl, rfl, ?_⟩, 300, rfl, by decide⟩
    simp
  have heffect : (customRoom.guard Sound).step .mount .effect CustomRoomUI.mount.timerEffect :=
    ⟨trivial, rfl⟩
  have hdata : (customRoom.guard Sound).step CustomRoomUI.mount.timerEffect
      (.data (encodeText extendMessage)) (CustomRoomUI.mount.timerEffect.handleData _) :=
    ⟨hsound, rfl⟩
  have hrun := (Lts.Run.single heffect).snoc hdata
  exact ⟨_, hrun, survives_of_sound hrun⟩

def withoutPayload : String := "\x7b\"type\":\"extend_time\"\x7d"

theorem extension_withoutPayload :
    extension (encodeText withoutPayload) = some (.primitive .undefined) := by
  have hparse : Json.parse withoutPayload.toList =
      some (.object [(text "type", .primitive (.text (text "extend_time")))]) := rfl
  exact extension_encodeText (by decide) hparse (by decide)

theorem not_a_number :
    ¬ ∀ ls ui, customRoom.Run .mount ls ui → ∃ t : ℤ, ui.remainingTime.rendered = seconds t := by
  intro h
  have hdata : CustomRoomUI.mount.timerEffect.handleData (encodeText withoutPayload) =
      CustomRoomUI.mount.timerEffect.setRemainingTime (.extend (.primitive .undefined)) := by
    rw [CustomRoomUI.handleData_of_rendered (r := 300) rfl, extension_withoutPayload]
    rfl
  have hrun : customRoom.Run .mount [.effect, .data (encodeText withoutPayload), .render]
      (CustomRoomUI.mount.timerEffect.setRemainingTime
        (.extend (.primitive .undefined))).render := by
    apply Lts.Run.cons (s := CustomRoomUI.mount.timerEffect) rfl
    apply Lts.Run.cons (congrArg some hdata)
    exact Lts.Run.single rfl
  obtain ⟨t, ht⟩ := h _ _ hrun
  have hnan : some (Primitive.number .nan) = seconds t := ht
  simp [seconds] at hnan

end Nalang.VoiceCall.PeerData
