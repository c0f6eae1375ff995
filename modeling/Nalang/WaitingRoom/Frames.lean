import Nalang.WaitingRoom.CallWebSocket

/-!
# The frames a page acts upon

A frame stands in `message` until the next one comes, and the effect on `message`
runs in every render. So a frame may be overwritten before an effect has seen it,
and an effect may see it again.
-/

namespace Nalang.WaitingRoom
open Matchmaking Transition

/-- What happens on a page. A frame may come from any of its sockets. -/
inductive PageLabel
  | frame (event : ServerEvent)
  | render (ws : Option Socket)
  | reject (ws : Option Socket)
  | tick
  | locate (ws : Option Socket)
  | callToken (index : ℕ) (granted : Bool)
  | opens (s : Socket)
  | closes (s : Socket)

def Component.rejecting (c : Component) : Component :=
  { c with matchInfo := none, countdown := 0 }

namespace World

def pageStep (id : ℕ) (w : World) : PageLabel → Option World
  | .frame event => w.inComponent id fun _ => some (w.onmessage id event)
  | .render ws => w.inComponent id fun c =>
    if w.Fresh ws then some (w.rendered id c ws) else none
  | .reject ws => w.inComponent id fun c =>
    match c.view with
    | none => none
    | some p => if w.Fresh ws then some (w.handleReject id c p ws) else none
  | .tick => w.inComponent id fun c =>
    if c.timer then
      some (w.setComponent id
        { c with timer := false, countdown := c.countdown - 1, stale := true })
    else none
  | .locate ws => w.inComponent id fun c =>
    if w.Fresh ws then some (w.located id c ws) else none
  | .callToken index granted =>
    match w.components id with
    | none => none
    | some c =>
      if index < c.entering.length then
        let c := { c with entering := c.entering.eraseIdx index }
        let w := w.setComponent id c
        some (if granted then w.entered id c else w)
      else none
  | .opens s => w.hookStep id (.opens s)
  | .closes s => w.hookStep id (.closes s)

def arrived (clock : Clock) (id : ℕ) (user : UserId) (ws : Option Socket) : World :=
  (opened clock id user).locationEffect id (Component.mount user) ws

end World

/-! ### What an effect does -/

def Component.action (c : Component) : Option ServerEvent :=
  match c.message with
  | none => none
  | some (.matchProposal room partnerId) =>
    if c.matchInfo.map Proposal.room = some room then none
    else some (.matchProposal room partnerId)
  | some .disconnected => some .disconnected
  | some .rejected => some .rejected
  | some (.matched _) => none

def Component.starts (c : Component) (accessToken : Bool) : Option String :=
  if c.counted = some (c.countdown, c.matchInfo) then none
  else if c.countdown ≤ 0 ∧ accessToken then c.matchInfo.map Proposal.room
  else none

def Component.messageAfter (c : Component) : PageLabel → Option ServerEvent
  | .frame event => some event
  | _ => c.message

def Component.enteringAfter (c : Component) : PageLabel → List String
  | .render ws => c.entering ++ (c.starts ws.isSome).toList
  | .callToken index _ => c.entering.eraseIdx index
  | _ => c.entering

namespace World

def perform (w : World) (id : ℕ) (ws : Option Socket) : ServerEvent → World
  | .matchProposal room partnerId => w.modify id fun c =>
    { c with matchInfo := some ⟨room, partnerId⟩, countdown := 5, stale := true }
  | .disconnected => w.reconnect id ws
  | .rejected => w.reconnect id ws
  | .matched _ => w

section Effects
variable {w w' : World} {id : ℕ} {c c₀ : Component} {ws : Option Socket}

theorem messageEffect_eq : w.messageEffect id c ws = c.action.elim w (w.perform id ws) := by
  unfold messageEffect Component.action
  cases c.message with
  | none => rfl
  | some event =>
    cases event with
    | matchProposal room partnerId =>
      dsimp only
      split_ifs <;> rfl
    | matched room => rfl
    | rejected => rfl
    | disconnected => rfl

theorem perform_entering (event : ServerEvent) (hc : w.components id = some c) :
    ∃ c', (w.perform id ws event).components id = some c' ∧ c'.entering = c.entering := by
  have hreconnect : ∃ c', (w.reconnect id ws).components id = some c' ∧
      c'.entering = c.entering := by
    unfold reconnect
    cases ws with
    | none => simp [hc]
    | some s => simp [connect, hc]
  cases event with
  | matchProposal room partnerId => simp [perform, hc]
  | matched room => exact ⟨c, hc, rfl⟩
  | rejected => exact hreconnect
  | disconnected => exact hreconnect

theorem messageEffect_entering (c : Component) (ws : Option Socket)
    (hc : w.components id = some c₀) :
    ∃ c', (w.messageEffect id c ws).components id = some c' ∧ c'.entering = c₀.entering := by
  rw [messageEffect_eq]
  cases c.action with
  | none => exact ⟨c₀, hc, rfl⟩
  | some event => exact perform_entering event hc

theorem countdownEffect_entering (c : Component) (accessToken : Bool)
    (hc : w.components id = some c₀) :
    ∃ c', (w.countdownEffect id c accessToken).components id = some c' ∧
      c'.entering = c₀.entering ++ (c.starts accessToken).toList := by
  unfold countdownEffect Component.starts
  by_cases hseen : c.counted = some (c.countdown, c.matchInfo)
  · simp [hseen, hc]
  · rw [if_neg hseen, if_neg hseen]
    cases c.matchInfo with
    | none => simp [hc]
    | some p =>
      by_cases hcount : c.countdown ≤ 0
      · cases accessToken with
        | false => simp [hcount, enterVoiceRoom, hc]
        | true => simp [hcount, enterVoiceRoom, hc]
      · simp [hcount, hc]

theorem rendered_kept (id : ℕ) (c : Component) (ws : Option Socket) :
    ∃ c', (w.rendered id c ws).components id = some c' ∧
      c'.message = c.message ∧ c'.entering = c.entering ++ (c.starts ws.isSome).toList := by
  obtain ⟨c', hc', -, -, hmessage, -⟩ := rendered_component (w := w) id c ws
  have hset : (w.setComponent id { c with stale := false }).components id =
      some { c with stale := false } := setComponent_self
  obtain ⟨c₁, hc₁, hentering₁⟩ := messageEffect_entering c ws hset
  obtain ⟨c₂, hc₂, hentering₂⟩ := countdownEffect_entering c ws.isSome hc₁
  rw [hentering₁] at hentering₂
  cases hc'.symm.trans hc₂
  exact ⟨c', hc', hmessage, hentering₂⟩

theorem located_entering (ws : Option Socket) (hc : w.components id = some c) :
    ∃ c', (w.located id c ws).components id = some c' ∧ c'.message = c.message ∧
      c'.entering = c.entering := by
  have hcleaned : (w.runCleanup id c).components id = some c := by rw [runCleanup_components, hc]
  unfold located locationEffect
  cases ws with
  | none => simp [hcleaned]
  | some s => simp [connect, hcleaned]

theorem entered_entering (hc : w.components id = some c₀) :
    ∃ c', (w.entered id c).components id = some c' ∧ c'.message = c₀.message ∧
      c'.entering = c₀.entering := by
  have hleft : ((w.disconnect id).modify id fun c' =>
      { c' with hasEnteredRoom := true }).components id = some { c₀ with hasEnteredRoom := true } := by
    rw [modify_components_self, disconnect_components, hc]
    rfl
  unfold entered
  dsimp only
  split_ifs
  · exact ⟨_, unmounted_component hleft, rfl, rfl⟩
  · exact ⟨_, hleft, rfl, rfl⟩

/-! ### What a step keeps -/

theorem step_of_inComponent {f : Component → Option World} (hc : w.components id = some c)
    (h : w.inComponent id f = some w') : c.mounted = true ∧ f c = some w' := by
  obtain ⟨c', hc', hstep⟩ := inComponent_eq_some h
  cases hc.symm.trans hc'
  exact hstep

/-- What a step does, with its guards. Proofs about a step of the page are case analyses over it. -/
inductive PageEffect (w : World) (id : ℕ) : PageLabel → World → Prop
  | receives {c : Component} {event : ServerEvent} : w.components id = some c →
      c.mounted = true → PageEffect w id (.frame event) (w.onmessage id event)
  | renders {c : Component} {ws : Option Socket} : w.components id = some c →
      c.mounted = true → w.Fresh ws → PageEffect w id (.render ws) (w.rendered id c ws)
  | rejects {c : Component} {ws : Option Socket} {p : Proposal} : w.components id = some c →
      c.mounted = true → w.Fresh ws → c.view = some p →
      PageEffect w id (.reject ws) (w.handleReject id c p ws)
  | ticks {c : Component} : w.components id = some c → c.mounted = true → c.timer = true →
      PageEffect w id .tick (w.setComponent id
        { c with timer := false, countdown := c.countdown - 1, stale := true })
  | locates {c : Component} {ws : Option Socket} : w.components id = some c →
      c.mounted = true → w.Fresh ws → PageEffect w id (.locate ws) (w.located id c ws)
  | refused {c : Component} {index : ℕ} : w.components id = some c → index < c.entering.length →
      PageEffect w id (.callToken index false)
        (w.setComponent id { c with entering := c.entering.eraseIdx index })
  | enters {c : Component} {index : ℕ} : w.components id = some c → index < c.entering.length →
      PageEffect w id (.callToken index true)
        ((w.setComponent id { c with entering := c.entering.eraseIdx index }).entered id
          { c with entering := c.entering.eraseIdx index })
  | opens {s : Socket} {l : Link} : w.links s = some l → l.owner = id → l.ready = .connecting →
      PageEffect w id (.opens s) (w.setLink s { l with ready := .open })
  | closes {s : Socket} {l : Link} : w.links s = some l → l.owner = id → l.ready ≠ .closed →
      PageEffect w id (.closes s)
        ((w.setLink s { l with ready := .closed, toClient := [] }).onclose id)

theorem pageEffect_of_step {l : PageLabel} (h : w.pageStep id l = some w') :
    w.PageEffect id l w' := by
  cases l with
  | frame event =>
    obtain ⟨c, hc, hm, hw⟩ := inComponent_eq_some h
    cases hw
    exact .receives hc hm
  | render ws =>
    obtain ⟨c, hc, hm, hw⟩ := inComponent_eq_some h
    obtain ⟨hfresh, hw⟩ := Option.ite_none_right_eq_some.mp hw
    cases hw
    exact .renders hc hm hfresh
  | reject ws =>
    obtain ⟨c, hc, hm, hw⟩ := inComponent_eq_some h
    cases hview : c.view with
    | none => simp [hview] at hw
    | some p =>
      rw [hview] at hw
      obtain ⟨hfresh, hw⟩ := Option.ite_none_right_eq_some.mp hw
      cases hw
      exact .rejects hc hm hfresh hview
  | tick =>
    obtain ⟨c, hc, hm, hw⟩ := inComponent_eq_some h
    obtain ⟨htimer, hw⟩ := Option.ite_none_right_eq_some.mp hw
    cases hw
    exact .ticks hc hm htimer
  | locate ws =>
    obtain ⟨c, hc, hm, hw⟩ := inComponent_eq_some h
    obtain ⟨hfresh, hw⟩ := Option.ite_none_right_eq_some.mp hw
    cases hw
    exact .locates hc hm hfresh
  | callToken index granted =>
    cases hc : w.components id with
    | none => simp [pageStep, hc] at h
    | some c =>
      simp only [pageStep, hc] at h
      obtain ⟨hindex, hw⟩ := Option.ite_none_right_eq_some.mp h
      cases granted with
      | false =>
        cases hw
        exact .refused hc hindex
      | true =>
        cases hw
        exact .enters hc hindex
  | opens s =>
    obtain ⟨l, hl, ⟨howner, hready⟩, rfl⟩ := hookStep_opens.mp h
    exact .opens hl howner hready
  | closes s =>
    obtain ⟨l, hl, ⟨howner, hready⟩, rfl⟩ := hookStep_closes.mp h
    exact .closes hl howner hready

theorem rejected_kept (c : Component) (p : Proposal) (ws : Option Socket) :
    ∃ c', (w.handleReject id c p ws).components id = some c' ∧ c'.message = c.message ∧
      c'.entering = c.entering := by
  obtain ⟨c', hc', hmessage, hentering⟩ :=
    rendered_kept (w := w.send id (eventOf "rejected" p.room)) id c.rejecting ws
  refine ⟨c', hc', hmessage, hentering.trans ?_⟩
  simp [Component.starts, Component.rejecting]

theorem pageStep_component (hc : w.components id = some c) {l : PageLabel}
    (h : w.pageStep id l = some w') : ∃ c', w'.components id = some c' ∧
      c'.message = c.messageAfter l ∧ c'.entering = c.enteringAfter l := by
  cases pageEffect_of_step h with
  | receives hc' hm =>
    cases hc.symm.trans hc'
    simp [onmessage, hc, hm, Component.messageAfter, Component.enteringAfter]
  | renders hc' _ _ =>
    cases hc.symm.trans hc'
    exact rendered_kept id c _
  | rejects hc' _ _ _ =>
    cases hc.symm.trans hc'
    exact rejected_kept c _ _
  | ticks hc' _ _ =>
    cases hc.symm.trans hc'
    exact ⟨_, setComponent_self, rfl, rfl⟩
  | locates hc' _ _ =>
    cases hc.symm.trans hc'
    exact located_entering _ hc
  | refused hc' _ =>
    cases hc.symm.trans hc'
    exact ⟨_, setComponent_self, rfl, rfl⟩
  | enters hc' _ =>
    cases hc.symm.trans hc'
    exact entered_entering setComponent_self
  | opens _ _ _ => exact ⟨c, hc, rfl, rfl⟩
  | closes _ _ _ =>
    cases hm : c.mounted with
    | false => simp [onclose, hc, hm, Component.messageAfter, Component.enteringAfter]
    | true => simp [onclose, hc, hm, Component.messageAfter, Component.enteringAfter]

end Effects

end World

/-! ### Frames received and frames acted upon -/

def actionable : ServerEvent → Bool
  | .matchProposal _ _ => true
  | .matched _ => false
  | .rejected => true
  | .disconnected => true

def restarts : ServerEvent → Bool
  | .matchProposal _ _ => false
  | .matched _ => false
  | .rejected => true
  | .disconnected => true

/-- The frames that have come, and those that an effect has acted upon, with the socket it could
connect with. -/
structure Log where
  received : List ServerEvent
  performed : List (ServerEvent × Option Socket)
  /-- An effect has run for the frame in `message`. -/
  seen : Bool

def Log.effect (log : Log) (c : Component) (ws : Option Socket) : Log where
  received := log.received
  performed := log.performed ++ (c.action.map fun event => (event, ws)).toList
  seen := true

def Log.after (log : Log) (c : Component) : PageLabel → Log
  | .frame event => { log with received := log.received ++ [event], seen := false }
  | .render ws => log.effect c ws
  | .reject ws => log.effect c.rejecting ws
  | _ => log

def loggedStep (id : ℕ) (s : World × Log) (l : PageLabel) : Option (World × Log) :=
  match s.1.components id with
  | none => none
  | some c => (s.1.pageStep id l).map fun w => (w, s.2.after c l)

def loggedPage (id : ℕ) : Lts (World × Log) PageLabel := Lts.ofStep (loggedStep id)

def Log.pending (log : Log) (c : Component) : List ServerEvent :=
  if log.seen then [] else c.message.toList.filter actionable

/-- The frames received are acted upon in their order, each once, but for one that waits for the
next effect. Where the action is to connect, there is a socket. -/
def ExactlyOnce (id : ℕ) (s : World × Log) : Prop :=
  ∃ c, s.1.components id = some c ∧
    s.2.performed.map Prod.fst ++ s.2.pending c = s.2.received.filter actionable ∧
      ∀ x ∈ s.2.performed, restarts x.1 = true → x.2 ≠ none

/-- A render comes at the right time for the frame in `message`. A proposal is another one than
that in `matchInfo` the first time, and the same one later. The other frames are there for one
render only, in which there is an access token. -/
def Component.Timely (c : Component) (seen : Bool) (ws : Option Socket) : Prop :=
  match c.message with
  | none => True
  | some (.matchProposal room _) => c.matchInfo.map Proposal.room = some room ↔ seen = true
  | some (.matched _) => True
  | some .rejected => seen = false ∧ ws ≠ none
  | some .disconnected => seen = false ∧ ws ≠ none

def Log.Awaits (log : Log) (c : Component) : PageLabel → Prop
  | .frame _ => log.pending c = []
  | .render ws => c.Timely log.seen ws
  | .reject ws => c.rejecting.Timely log.seen ws
  | _ => True

def InTime (id : ℕ) (s : World × Log) (l : PageLabel) : Prop :=
  ∀ c, s.1.components id = some c → s.2.Awaits c l

section Steps
variable {id : ℕ} {w w' : World} {log : Log} {c c' : Component} {ws : Option Socket}

theorem timely_iff : c.action.toList = log.pending c ∧
    (∀ event ∈ c.action, restarts event = true → ws ≠ none) ↔ c.Timely log.seen ws := by
  unfold Component.action Component.Timely Log.pending
  cases c.message with
  | none => simp
  | some event =>
    cases event with
    | matchProposal room partnerId =>
      dsimp only
      split_ifs with hroom hseen hseen
      · simp [hroom, hseen]
      · simp [hroom, hseen, actionable]
      · simp [hroom, hseen]
      · simp [hroom, hseen, List.filter_cons, actionable, restarts]
    | matched room => simp [actionable]
    | rejected => cases log.seen <;> simp [List.filter_cons, actionable, restarts]
    | disconnected => cases log.seen <;> simp [List.filter_cons, actionable, restarts]

theorem performed_effect :
    (log.effect c ws).performed.map Prod.fst = log.performed.map Prod.fst ++ c.action.toList := by
  unfold Log.effect
  cases c.action <;> simp

theorem mem_effect {x : ServerEvent × Option Socket} : x ∈ (log.effect c ws).performed ↔
    x ∈ log.performed ∨ x.1 ∈ c.action ∧ x.2 = ws := by
  unfold Log.effect
  cases c.action with
  | none => simp
  | some event => simp [Prod.ext_iff, eq_comm]

theorem exactlyOnce_effect (hc : w.components id = some c) (h : ExactlyOnce id (w, log))
    {c₁ : Component} (hmessage : c₁.message = c.message) (hc' : w'.components id = some c') :
    ExactlyOnce id (w', log.effect c₁ ws) ↔ c₁.Timely log.seen ws := by
  obtain ⟨c₀, hc₀, hlog, hsocket⟩ := h
  cases hc.symm.trans hc₀
  have hpending : log.pending c₁ = log.pending c := by
    unfold Log.pending
    rw [hmessage]
  rw [← timely_iff, hpending]
  unfold ExactlyOnce
  simp only [hc', Option.some.injEq, exists_eq_left', performed_effect]
  have hnone : (log.effect c₁ ws).pending c' = [] := rfl
  have hreceived : (log.effect c₁ ws).received = log.received := rfl
  rw [hnone, hreceived, List.append_nil, ← hlog, List.append_cancel_left_eq]
  refine and_congr_right fun _ => ⟨fun hall event hin hre => ?_, fun hall x hx hre => ?_⟩
  · exact hall (event, ws) (mem_effect.mpr (.inr ⟨hin, rfl⟩)) hre
  · rcases mem_effect.mp hx with hx | ⟨hin, hws⟩
    · exact hsocket x hx hre
    · rw [hws]
      exact hall x.1 hin hre

theorem exactlyOnce_frame (hc : w.components id = some c) (h : ExactlyOnce id (w, log))
    {event : ServerEvent} (hc' : w'.components id = some c') (hmessage : c'.message = some event) :
    ExactlyOnce id (w', { log with received := log.received ++ [event], seen := false }) ↔
      log.pending c = [] := by
  obtain ⟨c₀, hc₀, hlog, hsocket⟩ := h
  cases hc.symm.trans hc₀
  have hlater : ∀ seen, Log.pending ⟨log.received ++ [event], log.performed, seen⟩ c' =
      if seen then [] else [event].filter actionable := by
    intro seen
    unfold Log.pending
    rw [hmessage]
    rfl
  unfold ExactlyOnce
  simp only [hc', Option.some.injEq, exists_eq_left', hlater, Bool.false_eq_true, if_false,
    List.filter_append, List.append_cancel_right_eq]
  rw [← hlog, List.self_eq_append_right]
  exact and_iff_left hsocket

theorem exactlyOnce_other (hc : w.components id = some c) (h : ExactlyOnce id (w, log))
    (hc' : w'.components id = some c') (hmessage : c'.message = c.message) :
    ExactlyOnce id (w', log) := by
  obtain ⟨c₀, hc₀, hlog, hsocket⟩ := h
  cases hc.symm.trans hc₀
  refine ⟨c', hc', ?_, hsocket⟩
  unfold Log.pending at hlog ⊢
  rw [hmessage]
  exact hlog

theorem loggedStep_eq_some {s s' : World × Log} {l : PageLabel} (h : loggedStep id s l = some s') :
    ∃ c, s.1.components id = some c ∧ s.1.pageStep id l = some s'.1 ∧ s'.2 = s.2.after c l := by
  unfold loggedStep at h
  cases hc : s.1.components id with
  | none => simp [hc] at h
  | some c =>
    simp only [hc] at h
    obtain ⟨w', hw, heq⟩ := Option.map_eq_some_iff.mp h
    rw [← heq]
    exact ⟨c, rfl, hw, rfl⟩

theorem exactlyOnce_step {s s' : World × Log} {l : PageLabel} (h : ExactlyOnce id s)
    (hs : loggedStep id s l = some s') : ExactlyOnce id s' ↔ InTime id s l := by
  obtain ⟨w, log⟩ := s
  obtain ⟨w', log'⟩ := s'
  obtain ⟨c, hc, hw, hlog⟩ := loggedStep_eq_some hs
  obtain ⟨c', hc', hmessage, -⟩ := World.pageStep_component hc hw
  dsimp only at hc hlog hc'
  have hin : InTime id (w, log) l ↔ log.Awaits c l := by
    unfold InTime
    simp [hc]
  rw [hlog, hin]
  cases l with
  | frame event => exact exactlyOnce_frame hc h hc' hmessage
  | render ws => exact exactlyOnce_effect hc h rfl hc'
  | reject ws => exact exactlyOnce_effect hc h rfl hc'
  | tick => exact iff_of_true (exactlyOnce_other hc h hc' hmessage) trivial
  | locate ws => exact iff_of_true (exactlyOnce_other hc h hc' hmessage) trivial
  | callToken index granted => exact iff_of_true (exactlyOnce_other hc h hc' hmessage) trivial
  | opens s => exact iff_of_true (exactlyOnce_other hc h hc' hmessage) trivial
  | closes s => exact iff_of_true (exactlyOnce_other hc h hc' hmessage) trivial

end Steps

/-! ### Runs of a page -/

def Log.start : Log := ⟨[], [], true⟩

section Runs
variable {clock : Clock} {id : ℕ} {user : UserId} {ws : Option Socket} {ls : List PageLabel}
  {s : World × Log}

theorem arrived_component (clock : Clock) (id : ℕ) (user : UserId) (ws : Option Socket) :
    ∃ c, (World.arrived clock id user ws).components id = some c ∧ c.message = none ∧
      c.entering = [] := by
  unfold World.arrived World.locationEffect
  cases ws with
  | none => simp [opened_component, Component.mount]
  | some s => simp [opened_component, Component.mount, World.connect]

theorem exactlyOnce_start : ExactlyOnce id (World.arrived clock id user ws, .start) := by
  obtain ⟨c, hc, -⟩ := arrived_component clock id user ws
  exact ⟨c, hc, rfl, fun x hx => absurd hx List.not_mem_nil⟩

/-- Exactly the runs that are in time act upon every frame once and in order. -/
theorem exactly_once_iff :
    ((loggedPage id).within (ExactlyOnce id)).Run (.arrived clock id user ws, .start) ls s ↔
      ((loggedPage id).guard (InTime id)).Run (.arrived clock id user ws, .start) ls s :=
  Lts.run_within_iff (fun _ => True) trivial (fun _ _ _ _ _ => trivial) exactlyOnce_start
    fun _ _ _ _ h hs => exactlyOnce_step h hs

end Runs

/-! ### A frame that is acted upon twice -/

def renderedTwice : List PageLabel := [.frame .rejected, .render (some ⟨2⟩), .render (some ⟨3⟩)]

theorem renderedTwice_run : ∃ s,
    (loggedPage 0).Run (.arrived .start 0 (.of 1) (some ⟨1⟩), .start) renderedTwice s ∧
      s.2.received = [.rejected] ∧
        s.2.performed = [(.rejected, some ⟨2⟩), (.rejected, some ⟨3⟩)] := by
  have hexec : ((Lts.exec (loggedStep 0) (.arrived .start 0 (.of 1) (some ⟨1⟩), .start)
      renderedTwice).map fun s => (s.2.received, s.2.performed)) =
        some ([.rejected], [(.rejected, some ⟨2⟩), (.rejected, some ⟨3⟩)]) := rfl
  obtain ⟨s, hs, heq⟩ := Option.map_eq_some_iff.mp hexec
  exact ⟨s, Lts.run_of_exec hs, Prod.mk.inj heq⟩

theorem frame_repeated : ¬ ∀ clock id user ws ls s,
    (loggedPage id).Run (.arrived clock id user ws, .start) ls s → ExactlyOnce id s := by
  intro hall
  obtain ⟨s, hr, hreceived, hperformed⟩ := renderedTwice_run
  obtain ⟨c, -, hlog, -⟩ := hall _ _ _ _ _ _ hr
  rw [hreceived, hperformed] at hlog
  have hlen := congrArg List.length hlog
  simp [List.filter_cons, actionable] at hlen

end Nalang.WaitingRoom
