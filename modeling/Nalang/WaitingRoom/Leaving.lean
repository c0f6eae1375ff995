import Nalang.WaitingRoom.Refusals

/-!
# Pages that are left while a proposal is displayed

The cleanup of the effect on `location` is a closure of the render in which the
effect ran, so it knows the proposal of that render and no later one. On the other
hand `hasEnteredRoom` and the socket are refs, which the cleanup reads when it runs.
-/

namespace Nalang.WaitingRoom
open Matchmaking Transition

def page (id : ℕ) : Lts World PageLabel := Lts.ofStep (World.pageStep id)

def Component.farewell (c : Component) : Option String :=
  if c.hasEnteredRoom then none else c.cleanup.join.map Proposal.room

namespace World

/-- The component is unmounted or comes to another location. -/
def Leaves (id : ℕ) (w w' : World) : Prop :=
  w.step (.unmount id) = some w' ∨ ∃ ws, w.step (.locate id ws) = some w'

/-- The current socket, which is open, gets a 'rejected' for the room and is closed then. -/
def Declines (id : ℕ) (room : String) (w w' : World) : Prop :=
  ∃ s l, w.current id = some (s, l) ∧ l.ready = .open ∧
    w'.links s = some
      { l with
        ready := .closing
        toClient := []
        toServer := l.toServer ++ [eventOf "rejected" room] }

def Reachable (w : World) (id : ℕ) : Prop :=
  ∃ s l, w.current id = some (s, l) ∧ l.ready = .open

def captured (w : World) (id : ℕ) : Option Proposal :=
  (w.components id).bind fun c => c.cleanup.join

def proposal (w : World) (id : ℕ) : Option Proposal := (w.components id).bind Component.matchInfo

/-- What the cleanup knows after a step, if it has known `known`. There is no cleanup without an
access token. -/
def knownAfter (w : World) (id : ℕ) (known : Option Proposal) : PageLabel → Option Proposal
  | .locate ws => ws.bind fun _ => w.proposal id
  | _ => known

/-! ### What the cleanup captures -/

section Captures
variable {w w' : World} {id : ℕ} {c : Component} {ws : Option Socket}

theorem captured_of_components (h : w'.components = w.components) :
    w'.captured id = w.captured id := by
  unfold captured
  rw [h]

theorem captured_modify {f : Component → Component} (hf : ∀ c, (f c).cleanup = c.cleanup) :
    (w.modify id f).captured id = w.captured id := by
  unfold captured
  rw [modify_components_self]
  cases w.components id with
  | none => rfl
  | some c => simp [hf]

theorem captured_setComponent {c' : Component} (hc : w.components id = some c)
    (hcleanup : c'.cleanup = c.cleanup) : (w.setComponent id c').captured id = w.captured id := by
  unfold captured
  rw [setComponent_self, hc, Option.bind_some, Option.bind_some, hcleanup]

theorem captured_connect (s : Socket) : (w.connect id s).captured id = w.captured id :=
  captured_modify fun _ => rfl

theorem captured_reconnect (ws : Option Socket) :
    (w.reconnect id ws).captured id = w.captured id := by
  unfold reconnect
  cases ws with
  | none => exact captured_modify fun _ => rfl
  | some s =>
    refine (captured_connect s).trans ?_
    exact captured_modify fun _ => rfl

theorem captured_messageEffect (c : Component) (ws : Option Socket) :
    (w.messageEffect id c ws).captured id = w.captured id := by
  rw [messageEffect_eq]
  cases c.action with
  | none => rfl
  | some event =>
    cases event with
    | matchProposal room partnerId => exact captured_modify fun _ => rfl
    | matched room => rfl
    | rejected => exact captured_reconnect ws
    | disconnected => exact captured_reconnect ws

theorem captured_enterVoiceRoom (p : Proposal) (accessToken : Bool) :
    (w.enterVoiceRoom id p accessToken).captured id = w.captured id := by
  unfold enterVoiceRoom
  split_ifs
  · refine (captured_modify ?_).trans (captured_of_components send_components)
    exact fun _ => rfl
  · rfl

theorem captured_countdownEffect (c : Component) (accessToken : Bool) :
    (w.countdownEffect id c accessToken).captured id = w.captured id := by
  have hcounted : (w.modify id fun c' =>
      { c' with counted := some (c.countdown, c.matchInfo), timer := false }).captured id =
        w.captured id := captured_modify fun _ => rfl
  unfold countdownEffect
  by_cases hseen : c.counted = some (c.countdown, c.matchInfo)
  · rw [if_pos hseen]
  · rw [if_neg hseen]
    cases hmatch : c.matchInfo with
    | none =>
      rw [hmatch] at hcounted
      exact hcounted
    | some p =>
      rw [hmatch] at hcounted
      by_cases hcount : c.countdown ≤ 0
      · simp only [hcount, if_true]
        refine (captured_enterVoiceRoom p accessToken).trans ((captured_modify ?_).trans hcounted)
        exact fun _ => rfl
      · simp only [hcount, if_false]
        refine (captured_modify ?_).trans hcounted
        exact fun _ => rfl

theorem captured_rendered (c' : Component) (hc : w.components id = some c)
    (hcleanup : c'.cleanup = c.cleanup) (ws : Option Socket) :
    (w.rendered id c' ws).captured id = w.captured id := by
  unfold rendered
  rw [captured_countdownEffect, captured_messageEffect]
  exact captured_setComponent hc hcleanup

theorem captured_located (hc : w.components id = some c) (ws : Option Socket) :
    (w.located id c ws).captured id = ws.bind fun _ => c.matchInfo := by
  have hcleaned : (w.runCleanup id c).components id = some c := by rw [runCleanup_components, hc]
  unfold located locationEffect captured
  cases ws with
  | none => simp [hcleaned]
  | some s => simp [connect, hcleaned]

theorem captured_unmounted (c : Component) : (w.unmounted id c).captured id = w.captured id := by
  refine (captured_modify ?_).trans (captured_of_components runCleanup_components)
  exact fun _ => rfl

theorem captured_entered (c : Component) : (w.entered id c).captured id = w.captured id := by
  have hleft : ((w.disconnect id).modify id fun c' =>
      { c' with hasEnteredRoom := true }).captured id = w.captured id := by
    refine (captured_modify ?_).trans (captured_of_components disconnect_components)
    exact fun _ => rfl
  unfold entered
  dsimp only
  split_ifs
  · exact (captured_unmounted _).trans hleft
  · exact hleft

theorem captured_onmessage (event : ServerEvent) :
    (w.onmessage id event).captured id = w.captured id :=
  captured_modify fun c => by split_ifs <;> rfl

theorem captured_onclose : (w.onclose id).captured id = w.captured id :=
  captured_modify fun c => by split_ifs <;> rfl

theorem captured_handleReject (hc : w.components id = some c) (p : Proposal) (ws : Option Socket) :
    (w.handleReject id c p ws).captured id = w.captured id := by
  have hsent : (w.send id (eventOf "rejected" p.room)).components id = some c := by
    rw [send_components, hc]
  refine (captured_rendered c.rejecting hsent rfl ws).trans ?_
  exact captured_of_components send_components

theorem captured_pageStep {l : PageLabel} (h : w.pageStep id l = some w') :
    w'.captured id = w.knownAfter id (w.captured id) l := by
  cases pageEffect_of_step h with
  | receives _ _ => exact captured_onmessage _
  | renders hc _ _ => exact captured_rendered _ hc rfl _
  | rejects hc _ _ _ => exact captured_handleReject hc _ _
  | ticks hc _ _ => exact captured_setComponent hc rfl
  | locates hc _ _ =>
    rw [captured_located hc]
    simp [knownAfter, proposal, hc]
  | refused hc _ => exact captured_setComponent hc rfl
  | enters hc _ => exact (captured_entered _).trans (captured_setComponent hc rfl)
  | opens _ _ _ => exact captured_of_components rfl
  | closes _ _ _ => exact captured_onclose

end Captures

/-! ### What the cleanup sends -/

section Sends
variable {w w' : World} {id : ℕ} {c : Component} {s : Socket} {l : Link}

theorem current_setLink {l' : Link} (h : w.current id = some (s, l)) :
    (w.setLink s l').current id = some (s, l') := by
  obtain ⟨c, hc, hs, -⟩ := current_eq_some h
  simp [current, hc, hs]

theorem disconnect_link (h : w.current id = some (s, l)) (hopen : l.ready = .open) :
    (w.disconnect id).links s = some { l with ready := .closing, toClient := [] } := by
  have hlive : l.Live := .inr hopen
  simp [disconnect, h, hlive]

theorem send_disconnect_link {msg : Json} (h : w.current id = some (s, l))
    (hopen : l.ready = .open) : ((w.send id msg).disconnect id).links s =
      some { l with ready := .closing, toClient := [], toServer := l.toServer ++ [msg] } := by
  have hsend : w.send id msg = w.setLink s { l with toServer := l.toServer ++ [msg] } := by
    simp [send, h, hopen]
  rw [hsend]
  exact disconnect_link (current_setLink h) hopen

theorem runCleanup_link (h : w.current id = some (s, l)) (hopen : l.ready = .open) :
    (w.runCleanup id c).links s = if c.cleanup = none then some l else some
      { l with
        ready := .closing
        toClient := []
        toServer := l.toServer ++ c.farewell.toList.map (eventOf "rejected") } := by
  obtain ⟨-, -, -, hl⟩ := current_eq_some h
  unfold runCleanup Component.farewell
  cases c.cleanup with
  | none => simpa using hl
  | some captured =>
    cases captured with
    | none => simp [disconnect_link h hopen]
    | some p =>
      cases c.hasEnteredRoom with
      | true => simp [disconnect_link h hopen]
      | false => simp [send_disconnect_link h hopen]

theorem eventOf_injective (event : String) : Function.Injective (eventOf event) := by
  intro room room' h
  simpa [eventOf] using h

theorem declines_of_runCleanup {room : String}
    (h : ∀ s l, w.current id = some (s, l) → w'.links s = (w.runCleanup id c).links s) :
    w.Declines id room w' ↔ w.Reachable id ∧ c.farewell = some room := by
  constructor
  · rintro ⟨s, l, hcur, hopen, hl'⟩
    rw [h s l hcur, runCleanup_link hcur hopen] at hl'
    refine ⟨⟨s, l, hcur, hopen⟩, ?_⟩
    split_ifs at hl'
    · have hready := congrArg Link.ready (Option.some.inj hl')
      rw [hopen] at hready
      cases hready
    · cases hfarewell : c.farewell with
      | none => simp [hfarewell] at hl'
      | some room' =>
        simp only [hfarewell, Option.some.injEq, Link.mk.injEq, true_and, Option.toList_some,
          List.map_cons, List.map_nil, List.append_cancel_left_eq, List.cons.injEq, and_true] at hl'
        rw [eventOf_injective "rejected" hl']
  · rintro ⟨⟨s, l, hcur, hopen⟩, hfarewell⟩
    refine ⟨s, l, hcur, hopen, ?_⟩
    have hcleanup : c.cleanup ≠ none := by
      intro hnone
      simp [Component.farewell, hnone] at hfarewell
    rw [h s l hcur, runCleanup_link hcur hopen, if_neg hcleanup, hfarewell]
    rfl

theorem leaves_runCleanup (hc : w.components id = some c) (h : w.Leaves id w')
    (s : Socket) (l : Link) (hcur : w.current id = some (s, l)) :
    w'.links s = (w.runCleanup id c).links s := by
  rcases h with h | ⟨ws, h⟩
  · obtain ⟨-, hw⟩ := step_of_inComponent hc h
    cases hw
    exact congrFun modify_links s
  · obtain ⟨-, hw⟩ := step_of_inComponent hc h
    obtain ⟨hfresh, hw⟩ := Option.ite_none_right_eq_some.mp hw
    cases hw
    unfold located
    rw [modify_links]
    cases ws with
    | none => exact congrFun modify_links s
    | some s' =>
      have hne : s ≠ s' := by
        rintro rfl
        obtain ⟨-, -, -, hl⟩ := current_eq_some hcur
        rw [Option.isNone_iff_eq_none.mp hfresh.1] at hl
        cases hl
      simp [locationEffect, connect_links hne]

end Sends

end World

/-! ### Runs of a page that is left -/

/-- The proposal in `matchInfo` when the location last changed, if there was an access token. -/
def proposalAtLocation (id : ℕ) (log : List (World × PageLabel)) : Option Proposal :=
  log.foldl (fun known e => e.1.knownAfter id known e.2) none

section Runs
variable {clock : Clock} {id : ℕ} {user : UserId} {ws : Option Socket} {ls : List PageLabel}
  {log : List (World × PageLabel)} {w w' : World} {c : Component} {p : Proposal}

theorem arrived_captured : (World.arrived clock id user ws).captured id = none := by
  unfold World.arrived World.locationEffect World.captured
  cases ws with
  | none => simp [opened_component, Component.mount]
  | some s => simp [opened_component, Component.mount, World.connect]

theorem captured_recorded
    (hr : (page id).recorded.Run ([], .arrived clock id user ws) ls (log, w)) :
    w.captured id = proposalAtLocation id log := by
  refine hr.invariant (fun s => s.2.captured id = proposalAtLocation id s.1) arrived_captured ?_
  rintro ⟨log, w⟩ l ⟨log', w'⟩ ih ⟨hlog, hstep⟩
  dsimp only at ih hlog hstep ⊢
  rw [hlog, World.captured_pageStep hstep, ih]
  simp [proposalAtLocation]

theorem farewell_eq_some {room : String} (hc : w.components id = some c) :
    c.farewell = some room ↔
      c.hasEnteredRoom = false ∧ (w.captured id).map Proposal.room = some room := by
  unfold Component.farewell World.captured
  rw [hc, Option.bind_some]
  cases c.hasEnteredRoom <;> simp

/-- A page that is left declines the displayed proposal exactly if the proposal was there already
when the location last changed. -/
theorem leaving_declines_iff
    (hr : (page id).recorded.Run ([], .arrived clock id user ws) ls (log, w))
    (hc : w.components id = some c) (_hp : c.view = some p) (hl : w.Leaves id w') :
    w.Declines id p.room w' ↔ w.Reachable id ∧ c.hasEnteredRoom = false ∧
      (proposalAtLocation id log).map Proposal.room = some p.room := by
  rw [World.declines_of_runCleanup (World.leaves_runCleanup hc hl), farewell_eq_some hc,
    captured_recorded hr]

end Runs

/-! ### A proposal that is left without an answer -/

def proposedLater : List PageLabel :=
  [.opens ⟨1⟩, .frame (.matchProposal "room" (.of 2)), .render (some ⟨2⟩), .render (some ⟨2⟩)]

def proposedBefore : List PageLabel := proposedLater ++ [.locate (some ⟨3⟩), .opens ⟨3⟩]

structure Standing where
  mounted : Bool
  view : Option Proposal
  hasEnteredRoom : Bool
  ready : Option Ready
  captured : Option Proposal
  deriving DecidableEq

def Component.standing (w : World) (id : ℕ) (c : Component) : Standing :=
  ⟨c.mounted, c.view, c.hasEnteredRoom, (w.current id).map fun x => x.2.ready, w.captured id⟩

def runOf (ls : List PageLabel) : Option World :=
  Lts.exec (World.pageStep 0) (.arrived .start 0 (.of 1) (some ⟨1⟩)) ls

section Examples
variable {w : World} {c : Component}

theorem standing_of_exec (ls : List PageLabel) (standing : Standing) (h : (runOf ls).bind (fun w =>
    (w.components 0).map fun c => c.standing w 0) = some standing) :
    ∃ w c, (page 0).Run (.arrived .start 0 (.of 1) (some ⟨1⟩)) ls w ∧
      w.components 0 = some c ∧ c.standing w 0 = standing := by
  obtain ⟨w, hw, hstanding⟩ := Option.bind_eq_some_iff.mp h
  obtain ⟨c, hc, heq⟩ := Option.map_eq_some_iff.mp hstanding
  exact ⟨w, c, Lts.run_of_exec hw, hc, heq⟩

theorem reachable_of_standing (h : (c.standing w 0).ready = some .open) : w.Reachable 0 := by
  obtain ⟨⟨s, l⟩, hcur, hready⟩ := Option.map_eq_some_iff.mp h
  exact ⟨s, l, hcur, hready⟩

theorem leaves_unmounted (hc : w.components 0 = some c) (hm : c.mounted = true) :
    w.Leaves 0 (w.unmounted 0 c) := by
  refine .inl ?_
  simp [World.step, World.inComponent, hc, hm]

end Examples

theorem leaving_declines_before : ∃ ls log w w' c p,
    (page 0).recorded.Run ([], .arrived .start 0 (.of 1) (some ⟨1⟩)) ls (log, w) ∧
      w.components 0 = some c ∧ c.view = some p ∧ w.Leaves 0 w' ∧ w.Declines 0 p.room w' := by
  obtain ⟨w, c, hr, hc, hstanding⟩ := standing_of_exec proposedBefore
    ⟨true, some ⟨"room", .of 2⟩, false, some .open, some ⟨"room", .of 2⟩⟩ rfl
  obtain ⟨log, hlog⟩ := hr.logged
  have hm : c.mounted = true := congrArg Standing.mounted hstanding
  have hview : c.view = some ⟨"room", .of 2⟩ := congrArg Standing.view hstanding
  have hentered : c.hasEnteredRoom = false := congrArg Standing.hasEnteredRoom hstanding
  have hcaptured : w.captured 0 = some ⟨"room", .of 2⟩ := congrArg Standing.captured hstanding
  have hopen : w.Reachable 0 := reachable_of_standing (congrArg Standing.ready hstanding)
  have hleaves := leaves_unmounted hc hm
  refine ⟨_, log, w, _, c, _, hlog, hc, hview, hleaves, ?_⟩
  rw [leaving_declines_iff hlog hc hview hleaves, ← captured_recorded hlog, hcaptured]
  exact ⟨hopen, hentered, rfl⟩

theorem left_without_answer : ¬ ∀ clock id user ws ls w w' c p,
    (page id).Run (.arrived clock id user ws) ls w → w.components id = some c →
      c.view = some p → c.hasEnteredRoom = false → w.Reachable id → w.Leaves id w' →
        w.Declines id p.room w' := by
  intro hall
  obtain ⟨w, c, hr, hc, hstanding⟩ := standing_of_exec proposedLater
    ⟨true, some ⟨"room", .of 2⟩, false, some .open, none⟩ rfl
  have hm : c.mounted = true := congrArg Standing.mounted hstanding
  have hview : c.view = some ⟨"room", .of 2⟩ := congrArg Standing.view hstanding
  have hentered : c.hasEnteredRoom = false := congrArg Standing.hasEnteredRoom hstanding
  have hcaptured : w.captured 0 = none := congrArg Standing.captured hstanding
  have hopen : w.Reachable 0 := reachable_of_standing (congrArg Standing.ready hstanding)
  have hleaves := leaves_unmounted hc hm
  have hdeclines := hall _ _ _ _ _ _ _ _ _ hr hc hview hentered hopen hleaves
  rw [World.declines_of_runCleanup (World.leaves_runCleanup hc hleaves), farewell_eq_some hc,
    hcaptured] at hdeclines
  cases hdeclines.2.2

end Nalang.WaitingRoom
