import Mathlib.Data.Int.Notation
import Nalang.Library.Transition

/-!
# How often a call is recorded

A call ends by a click, by its timer, or because the partner has gone. Each of these
saves the call with the user that its closure has captured, the first two after the
request that deletes the room. None of them looks whether another one has saved it.
-/

namespace Nalang.VoiceCall
open Transition

/-- The body of `recordHistory`. Times are in milliseconds. -/
structure HistoryData where
  userId : ℤ
  partnerId : ℤ
  roomName : String
  startedAt : ℤ
  endedAt : ℤ
  durationSec : ℤ
  deriving DecidableEq

/-- `CustomRoomUI` with the requests that it makes when the call ends. Of a user it has the id. -/
structure CallPage where
  partnerData : Option ℤ
  roomName : String
  startedAt : ℤ
  stored : Option ℤ
  /-- `user` in the closures of the last render -/
  user : Option ℤ
  /-- `user` in the handler of `participantDisconnected` -/
  subscribed : Option ℤ
  /-- The calls of `deleteRoom` that have not come back, with the `user` of their closure. -/
  deleting : List (Option ℤ)
  recorded : List HistoryData
  home : Bool
  mounted : Bool

namespace CallPage

/-- The handler of `participantDisconnected` is the one of the first render. -/
def mount (partnerData : Option ℤ) (roomName : String) (startedAt : ℤ) (stored : Option ℤ) :
    CallPage :=
  ⟨partnerData, roomName, startedAt, stored, stored, stored, [], [], false, true⟩

def saveHistory (s : CallPage) (user : Option ℤ) (endedAt : ℤ) : Option HistoryData :=
  match user, s.partnerData with
  | some userId, some partnerId =>
    some ⟨userId, partnerId, s.roomName, s.startedAt, endedAt, (endedAt - s.startedAt) / 1000⟩
  | _, _ => none

def leave (s : CallPage) (user : Option ℤ) (endedAt : ℤ) : CallPage :=
  { s with recorded := s.recorded ++ (s.saveHistory user endedAt).toList, home := true }

def handleLeave (s : CallPage) : CallPage := { s with deleting := s.deleting ++ [s.user] }

def cleanupAndLeave (s : CallPage) : CallPage := { s with deleting := s.deleting ++ [s.user] }

end CallPage

inductive CallEvent
  | load (user : ℤ)
  | render
  | clickLeave
  | timeout
  | participantDisconnected (now : ℤ)
  | roomDeleted (index : ℕ) (ok : Bool) (now : ℤ)
  | unmount

namespace CallPage

/-- A request to delete the room that fails is logged, and the rest is the same. -/
def step (s : CallPage) : CallEvent → Option CallPage
  | .load user => if s.stored = none then some { s with stored := some user } else none
  | .render => if s.mounted then some { s with user := s.stored } else none
  | .clickLeave => if s.mounted then some s.handleLeave else none
  | .timeout => if s.mounted then some s.cleanupAndLeave else none
  | .participantDisconnected now => if s.mounted then some (s.leave s.subscribed now) else none
  | .roomDeleted index _ now =>
    match s.deleting[index]? with
    | none => none
    | some user => some ({ s with deleting := s.deleting.eraseIdx index }.leave user now)
  | .unmount => if s.mounted ∧ s.home then some { s with mounted := false } else none

def exit (s : CallPage) : CallEvent → Option (Option ℤ)
  | .participantDisconnected _ => some s.subscribed
  | .roomDeleted index _ _ => s.deleting[index]?
  | _ => none

/-- Who is at home has recorded the call once. -/
def RecordedOnce (s : CallPage) : Prop := s.home = true → s.recorded.length = 1

/-- The first way out of the call knows the user, and the later ones do not. -/
def ExitsOnce (s : CallPage) (e : CallEvent) : Prop :=
  ∀ user, s.exit e = some user → (user ≠ none ↔ s.home = false)

structure Sound (s : CallPage) : Prop where
  partner : s.partnerData ≠ none
  early : s.home = false → s.recorded = []

section Steps
variable {s s' : CallPage} {e : CallEvent}

theorem saveHistory_length (hp : s.partnerData ≠ none) (user : Option ℤ) (endedAt : ℤ) :
    (s.saveHistory user endedAt).toList.length = if user = none then 0 else 1 := by
  obtain ⟨partner, hpartner⟩ := Option.ne_none_iff_exists'.mp hp
  unfold saveHistory
  cases user with
  | none => rfl
  | some userId => simp [hpartner]

inductive Effect (s : CallPage) (e : CallEvent) (s' : CallPage) : Prop
  | leaves (user : Option ℤ) (endedAt : ℤ) (hexit : s.exit e = some user)
      (hrecorded : s'.recorded = s.recorded ++ (s.saveHistory user endedAt).toList)
      (hhome : s'.home = true) (hpartner : s'.partnerData = s.partnerData)
  | stays (hexit : s.exit e = none) (hrecorded : s'.recorded = s.recorded)
      (hhome : s'.home = s.home) (hpartner : s'.partnerData = s.partnerData)

theorem effect_of_stay {c : Prop} [Decidable c] {t : CallPage}
    (hs : (if c then some t else none) = some s') (hexit : s.exit e = none)
    (hrecorded : t.recorded = s.recorded) (hhome : t.home = s.home)
    (hpartner : t.partnerData = s.partnerData) : Effect s e s' := by
  obtain ⟨-, hs⟩ := Option.ite_none_right_eq_some.mp hs
  cases hs
  exact .stays hexit hrecorded hhome hpartner

theorem effect_of_step (hs : s.step e = some s') : Effect s e s' := by
  cases e with
  | load user => exact effect_of_stay hs rfl rfl rfl rfl
  | render => exact effect_of_stay hs rfl rfl rfl rfl
  | clickLeave => exact effect_of_stay hs rfl rfl rfl rfl
  | timeout => exact effect_of_stay hs rfl rfl rfl rfl
  | participantDisconnected now =>
    obtain ⟨-, hs⟩ := Option.ite_none_right_eq_some.mp hs
    cases hs
    exact .leaves s.subscribed now rfl rfl rfl rfl
  | roomDeleted index ok now =>
    unfold step at hs
    cases huser : s.deleting[index]? with
    | none => simp [huser] at hs
    | some user =>
      simp only [huser, Option.some.injEq] at hs
      rw [← hs]
      exact .leaves user now huser rfl rfl rfl
  | unmount => exact effect_of_stay hs rfl rfl rfl rfl

theorem sound_step (h : s.Sound) (hs : s.step e = some s') : s'.Sound := by
  cases effect_of_step hs with
  | leaves user endedAt hexit hrecorded hhome hpartner =>
    refine ⟨hpartner ▸ h.partner, fun hnot => ?_⟩
    rw [hhome] at hnot
    cases hnot
  | stays hexit hrecorded hhome hpartner =>
    refine ⟨hpartner ▸ h.partner, fun hnot => ?_⟩
    rw [hhome] at hnot
    rw [hrecorded]
    exact h.early hnot

theorem recordedOnce_step (h : s.Sound) (ho : s.RecordedOnce) (hs : s.step e = some s') :
    s'.RecordedOnce ↔ s.ExitsOnce e := by
  cases effect_of_step hs with
  | leaves user endedAt hexit hrecorded hhome hpartner =>
    have hlen : s'.recorded.length = s.recorded.length + if user = none then 0 else 1 := by
      rw [hrecorded, List.length_append, saveHistory_length h.partner]
    unfold RecordedOnce ExitsOnce
    simp only [hhome, hlen, hexit, forall_const, Option.some.injEq, forall_eq']
    cases hnow : s.home with
    | false =>
      rw [h.early hnow]
      cases user <;> simp
    | true =>
      rw [ho hnow]
      cases user <;> simp
  | stays hexit hrecorded hhome hpartner =>
    refine iff_of_true ?_ fun user huser => ?_
    · unfold RecordedOnce
      rw [hhome, hrecorded]
      exact ho
    · rw [hexit] at huser
      cases huser

end Steps

end CallPage

def callPage : Lts CallPage CallEvent := Lts.ofStep CallPage.step

section Runs
variable {partner startedAt : ℤ} {roomName : String} {stored : Option ℤ} {es : List CallEvent}
  {s : CallPage}

/-- Exactly the runs in which one way out knows the user, and that is the first one, record the
call once. -/
theorem recorded_once_iff :
    (callPage.within CallPage.RecordedOnce).Run (.mount (some partner) roomName startedAt stored)
        es s ↔
      (callPage.guard CallPage.ExitsOnce).Run (.mount (some partner) roomName startedAt stored)
        es s := by
  refine Lts.run_within_iff CallPage.Sound ⟨Option.some_ne_none _, fun _ => rfl⟩ ?_ ?_ ?_
  · exact fun _ _ _ h hs => CallPage.sound_step h hs
  · intro hhome
    cases hhome
  · exact fun _ _ _ h ho hs => CallPage.recordedOnce_step h ho hs

end Runs

/-! ### Twice and never -/

def clickedTwice : List CallEvent :=
  [.clickLeave, .clickLeave, .roomDeleted 0 true 60000, .roomDeleted 0 false 60001]

def loadedLate : List CallEvent := [.load 1, .render, .participantDisconnected 60000]

def requests (stored : Option ℤ) (es : List CallEvent) : Option (Bool × ℕ) :=
  (Lts.exec CallPage.step (.mount (some 2) "room" 0 stored) es).map fun s =>
    (s.home, s.recorded.length)

theorem requests_miscounted :
    requests (some 1) clickedTwice = some (true, 2) ∧ requests none loadedLate = some (true, 0) :=
  ⟨rfl, rfl⟩

theorem call_misrecorded : ¬ ∀ partner roomName startedAt stored es s,
    callPage.Run (.mount (some partner) roomName startedAt stored) es s → s.RecordedOnce := by
  intro hall
  obtain ⟨s, hs, heq⟩ := Option.map_eq_some_iff.mp requests_miscounted.1
  obtain ⟨hhome, hlen⟩ := Prod.mk.inj heq
  have honce := hall _ _ _ _ _ _ (Lts.run_of_exec hs) hhome
  omega

end Nalang.VoiceCall
