import Nalang.WaitingRoom.Frames

/-!
# Rooms entered after they were refused

`enterVoiceRoom` waits for a call token with the room of its render, and nothing
that happens meanwhile is looked at when the token comes. The frame of a refused
proposal stands in `message` and is proposed again by the next render.
-/

namespace Nalang.WaitingRoom
open Matchmaking Transition

inductive Turn
  | refused (room : String)
  | entered (room : String)
  deriving DecidableEq

def NoEntryAfterRefusal (history : List Turn) : Prop :=
  ∀ before room after, history = before ++ .entered room :: after → .refused room ∉ before

def Component.refusal (c : Component) : Option String :=
  match c.message with
  | some .rejected => c.matchInfo.map Proposal.room
  | some .disconnected => c.matchInfo.map Proposal.room
  | _ => none

def Component.turns (c : Component) : PageLabel → List Turn
  | .render _ => c.refusal.toList.map Turn.refused
  | .reject _ => (c.view.toList.map Proposal.room ++ c.rejecting.refusal.toList).map Turn.refused
  | .callToken index true => c.entering[index]?.toList.map Turn.entered
  | _ => []

def journeyStep (id : ℕ) (s : World × List Turn) (l : PageLabel) : Option (World × List Turn) :=
  match s.1.components id with
  | none => none
  | some c => (s.1.pageStep id l).map fun w => (w, s.2 ++ c.turns l)

def journey (id : ℕ) : Lts (World × List Turn) PageLabel := Lts.ofStep (journeyStep id)

/-- No refused room has been entered, and none would be if a call token came next. -/
def Settled (id : ℕ) (s : World × List Turn) : Prop :=
  NoEntryAfterRefusal s.2 ∧ ∀ c, s.1.components id = some c →
    ∀ room ∈ c.entering, NoEntryAfterRefusal (s.2 ++ [.entered room])

/-- A room is refused only while no call token for it is on its way, and a call token is only
asked for if the room has not been refused. -/
def Component.Prudent (c : Component) (history : List Turn) : PageLabel → Prop
  | .render ws => (∀ room ∈ c.refusal, room ∉ c.entering) ∧
      ∀ room ∈ c.starts ws.isSome, .refused room ∉ history ∧ c.refusal ≠ some room
  | .reject _ => ∀ p ∈ c.view, p.room ∉ c.entering
  | _ => True

def Prudent (id : ℕ) (s : World × List Turn) (l : PageLabel) : Prop :=
  ∀ c, s.1.components id = some c → c.Prudent s.2 l

section History
variable {history : List Turn} {room : String}

theorem noEntry_snoc {turn : Turn} : NoEntryAfterRefusal (history ++ [turn]) ↔
    NoEntryAfterRefusal history ∧ ∀ room, turn = .entered room → .refused room ∉ history := by
  constructor
  · intro h
    refine ⟨?_, ?_⟩
    · rintro before room after rfl
      exact h before room (after ++ [turn]) (by simp)
    · rintro room rfl
      exact h history room [] rfl
  · rintro ⟨h, hlast⟩ before room after heq
    rcases List.eq_nil_or_concat after with rfl | ⟨rest, last, rfl⟩
    · obtain ⟨hbefore, hturn⟩ := List.append_inj' heq rfl
      cases hturn
      rw [← hbefore]
      exact hlast room rfl
    · rw [List.concat_eq_append, ← List.cons_append, ← List.append_assoc] at heq
      exact h before room rest (List.append_inj' heq rfl).1

theorem noEntry_refusals (rooms : List String) :
    NoEntryAfterRefusal (history ++ rooms.map Turn.refused) ↔ NoEntryAfterRefusal history := by
  induction rooms generalizing history with
  | nil => simp
  | cons room rooms ih =>
    rw [List.map_cons, List.append_cons, ih, noEntry_snoc]
    exact and_iff_left fun _ h => by cases h

theorem noEntry_entered : NoEntryAfterRefusal (history ++ [.entered room]) ↔
    NoEntryAfterRefusal history ∧ .refused room ∉ history := by
  rw [noEntry_snoc]
  refine and_congr_right fun _ => ⟨fun h => h room rfl, ?_⟩
  rintro h _ heq
  cases heq
  exact h

theorem settled_iff {id : ℕ} {w : World} {c : Component} (hc : w.components id = some c) :
    Settled id (w, history) ↔
      NoEntryAfterRefusal history ∧ ∀ room ∈ c.entering, .refused room ∉ history := by
  unfold Settled
  simp only [hc, Option.some.injEq, forall_eq', noEntry_entered]
  refine and_congr_right fun h => forall₂_congr fun room _ => and_iff_right h

theorem settled_refusals {id : ℕ} {w : World} {c : Component} (hc : w.components id = some c)
    (rooms : List String) : Settled id (w, history ++ rooms.map Turn.refused) ↔
      NoEntryAfterRefusal history ∧ ∀ room ∈ c.entering, .refused room ∉ history ∧ room ∉ rooms := by
  rw [settled_iff hc, noEntry_refusals]
  simp

end History

section Steps
variable {id : ℕ} {w w' : World} {history : List Turn} {c c' : Component}

theorem rejecting_refusal (c : Component) : c.rejecting.refusal = none := by
  unfold Component.refusal Component.rejecting
  split <;> rfl

theorem settled_render (hc : w.components id = some c) (h : Settled id (w, history))
    {ws : Option Socket} (hc' : w'.components id = some c')
    (hentering : c'.entering = c.entering ++ (c.starts ws.isSome).toList) :
    Settled id (w', history ++ c.turns (.render ws)) ↔ c.Prudent history (.render ws) := by
  obtain ⟨hentry, hold⟩ := (settled_iff hc).mp h
  rw [Component.turns, settled_refusals hc', hentering]
  simp only [List.mem_append, Option.mem_toList, Component.Prudent, Option.mem_def]
  constructor
  · rintro ⟨-, hall⟩
    refine ⟨fun room hr hin => (hall room (.inl hin)).2 hr, fun room hs => ?_⟩
    exact hall room (.inr hs)
  · rintro ⟨hrefused, hstarts⟩
    refine ⟨hentry, ?_⟩
    rintro room (hin | hs)
    · exact ⟨hold room hin, fun hr => hrefused room hr hin⟩
    · exact hstarts room hs

theorem settled_reject (hc : w.components id = some c) (h : Settled id (w, history))
    {ws : Option Socket} (hc' : w'.components id = some c')
    (hentering : c'.entering = c.entering) :
    Settled id (w', history ++ c.turns (.reject ws)) ↔ c.Prudent history (.reject ws) := by
  obtain ⟨hentry, hold⟩ := (settled_iff hc).mp h
  rw [Component.turns, settled_refusals hc', hentering, rejecting_refusal]
  simp only [Option.toList_none, List.append_nil, List.mem_map, Option.mem_toList,
    Component.Prudent, Option.mem_def]
  constructor
  · rintro ⟨-, hall⟩ p hp hin
    exact (hall p.room hin).2 ⟨p, hp, rfl⟩
  · refine fun hview => ⟨hentry, fun room hin => ⟨hold room hin, ?_⟩⟩
    rintro ⟨p, hp, rfl⟩
    exact hview p hp hin

theorem settled_callToken (hc : w.components id = some c) (h : Settled id (w, history))
    {index : ℕ} {granted : Bool} (hc' : w'.components id = some c')
    (hentering : c'.entering = c.entering.eraseIdx index) :
    Settled id (w', history ++ c.turns (.callToken index granted)) := by
  obtain ⟨hentry, hold⟩ := (settled_iff hc).mp h
  have hsub : ∀ room ∈ c'.entering, room ∈ c.entering := by
    intro room hin
    rw [hentering] at hin
    exact List.mem_of_mem_eraseIdx hin
  rw [settled_iff hc']
  cases granted with
  | false =>
    have hnone : c.turns (.callToken index false) = [] := rfl
    rw [hnone, List.append_nil]
    exact ⟨hentry, fun room hin => hold room (hsub room hin)⟩
  | true =>
    rw [Component.turns]
    cases hroom : c.entering[index]? with
    | none =>
      simp only [Option.toList_none, List.map_nil, List.append_nil]
      exact ⟨hentry, fun room hin => hold room (hsub room hin)⟩
    | some room =>
      refine ⟨noEntry_entered.mpr ⟨hentry, hold room (List.mem_of_getElem? hroom)⟩, ?_⟩
      intro room' hin hmem
      rcases List.mem_append.mp hmem with hmem | hmem
      · exact hold room' (hsub room' hin) hmem
      · cases List.mem_singleton.mp hmem

theorem settled_other (hc : w.components id = some c) (h : Settled id (w, history))
    (hc' : w'.components id = some c') (hentering : c'.entering = c.entering) :
    Settled id (w', history ++ []) := by
  rw [settled_iff hc] at h
  rwa [List.append_nil, settled_iff hc', hentering]

theorem journeyStep_eq_some {s s' : World × List Turn} {l : PageLabel}
    (h : journeyStep id s l = some s') : ∃ c, s.1.components id = some c ∧
      s.1.pageStep id l = some s'.1 ∧ s'.2 = s.2 ++ c.turns l := by
  unfold journeyStep at h
  cases hc : s.1.components id with
  | none => simp [hc] at h
  | some c =>
    simp only [hc] at h
    obtain ⟨w', hw, heq⟩ := Option.map_eq_some_iff.mp h
    rw [← heq]
    exact ⟨c, rfl, hw, rfl⟩

theorem settled_step {s s' : World × List Turn} {l : PageLabel} (h : Settled id s)
    (hs : journeyStep id s l = some s') : Settled id s' ↔ Prudent id s l := by
  obtain ⟨w, history⟩ := s
  obtain ⟨w', history'⟩ := s'
  obtain ⟨c, hc, hw, hturns⟩ := journeyStep_eq_some hs
  obtain ⟨c', hc', -, hentering⟩ := World.pageStep_component hc hw
  dsimp only at hc hturns hc'
  have hprudent : Prudent id (w, history) l ↔ c.Prudent history l := by
    unfold Prudent
    simp [hc]
  rw [hturns, hprudent]
  cases l with
  | render ws => exact settled_render hc h hc' hentering
  | reject ws => exact settled_reject hc h hc' hentering
  | callToken index granted => exact iff_of_true (settled_callToken hc h hc' hentering) trivial
  | frame event => exact iff_of_true (settled_other hc h hc' hentering) trivial
  | tick => exact iff_of_true (settled_other hc h hc' hentering) trivial
  | locate ws => exact iff_of_true (settled_other hc h hc' hentering) trivial
  | opens s => exact iff_of_true (settled_other hc h hc' hentering) trivial
  | closes s => exact iff_of_true (settled_other hc h hc' hentering) trivial

end Steps

section Runs
variable {clock : Clock} {id : ℕ} {user : UserId} {ws : Option Socket} {ls : List PageLabel}
  {s : World × List Turn}

/-- In the runs whose steps are prudent no refused room is entered. They are the runs in which no
call token, if it came next, would lead to a refused room either. -/
theorem no_entry_iff_prudent :
    (((journey id).guard (Prudent id)).Run (.arrived clock id user ws, []) ls s →
      NoEntryAfterRefusal s.2) ∧
    (((journey id).within (Settled id)).Run (.arrived clock id user ws, []) ls s ↔
      ((journey id).guard (Prudent id)).Run (.arrived clock id user ws, []) ls s) := by
  have hstart : Settled id (.arrived clock id user ws, []) := by
    obtain ⟨c, hc, -, hentering⟩ := arrived_component clock id user ws
    rw [settled_iff hc, hentering]
    refine ⟨?_, fun room hin => absurd hin List.not_mem_nil⟩
    rintro before room after heq
    simp at heq
  have hiff : ((journey id).within (Settled id)).Run (.arrived clock id user ws, []) ls s ↔
      ((journey id).guard (Prudent id)).Run (.arrived clock id user ws, []) ls s :=
    Lts.run_within_iff (fun _ => True) trivial (fun _ _ _ _ _ => trivial) hstart
      fun _ _ _ _ h hs => settled_step h hs
  exact ⟨fun hr => ((hiff.mpr hr).within_good hstart).1, hiff⟩

end Runs

/-! ### Clicks that do not count -/

def clickedTooLate : List PageLabel :=
  [.frame (.matchProposal "room" (.of 2)), .render (some ⟨2⟩), .render (some ⟨2⟩)] ++
    (List.replicate 5 [.tick, .render (some ⟨2⟩)]).flatten ++
    [.reject (some ⟨2⟩), .callToken 0 true]

def proposedAgain : List PageLabel :=
  [.frame (.matchProposal "room" (.of 2)), .render (some ⟨2⟩), .render (some ⟨2⟩),
    .reject (some ⟨2⟩), .render (some ⟨2⟩)] ++
    (List.replicate 5 [.tick, .render (some ⟨2⟩)]).flatten ++ [.callToken 0 true]

theorem entered_late : ∀ ls ∈ [clickedTooLate, proposedAgain], ∃ s,
    (journey 0).Run (.arrived .start 0 (.of 1) (some ⟨1⟩), []) ls s ∧
      s.2 = [.refused "room", .entered "room"] := by
  have hexec : ∀ ls ∈ [clickedTooLate, proposedAgain],
      (Lts.exec (journeyStep 0) (.arrived .start 0 (.of 1) (some ⟨1⟩), []) ls).map Prod.snd =
        some [.refused "room", .entered "room"] :=
    List.forall_mem_cons.mpr ⟨rfl, List.forall_mem_singleton.mpr rfl⟩
  intro ls hls
  obtain ⟨s, hs, heq⟩ := Option.map_eq_some_iff.mp (hexec ls hls)
  exact ⟨s, Lts.run_of_exec hs, heq⟩

theorem refused_room_entered : ¬ ∀ clock id user ws ls s,
    (journey id).Run (.arrived clock id user ws, []) ls s → NoEntryAfterRefusal s.2 := by
  intro hall
  obtain ⟨s, hr, hhistory⟩ := entered_late clickedTooLate (List.mem_cons_self ..)
  have hentry := hall _ _ _ _ _ _ hr [.refused "room"] "room" [] hhistory
  exact hentry (List.mem_singleton_self _)

end Nalang.WaitingRoom
