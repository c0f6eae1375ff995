import Nalang.WaitingRoom.Frames
import Nalang.WaitingRoom.Searching

/-!
# Proposals that nobody accepts

The server has a room end with `matched` when both users have sent 'accept'. A page
enters a room when its own countdown has ended, and the only events it ever sends are
'entered' and 'rejected'. So the handshake of the server is never completed, whatever
is lost, refused or delayed between the pages and the server.
-/

namespace Nalang.Matchmaking
open Python Transition

/-! ### The rooms a reaction leaves -/

section Reacts
variable {ws : Socket} {conn : Conn} {st st' : State} {action : Action} {r : Reaction}

theorem rooms_of_pursues {p : ConnectPoint} {reply : Reply} {t : Turn ConnectPoint}
    (h : Pursues ws conn st p reply t) :
    ∀ e ∈ (settle conn.user.id ws .connect t).state.rooms, e ∈ st.rooms ∨ e.2.accepted = ∅ := by
  intro e he
  cases h with
  | raises hd => exact .inl ((leave_withdraws _).rooms e he)
  | claims _ _ _ =>
    rcases OrderedDict.mem_entries_set.mp he with rfl | ⟨he, _⟩
    · exact .inr rfl
    · exact .inl he
  | registers _ => exact .inl he
  | reads _ => exact .inl he
  | proposes _ _ => exact .inl he
  | deletes _ _ _ => exact .inl he
  | returns _ _ _ => exact .inl he

theorem rooms_of_rejecting {room : String} {t : Turn EventPoint} (h : Rejecting room st' t)
    (hm : st'.matchingCandidates = st.matchingCandidates) :
    ∀ e ∈ (settle conn.user.id ws .event t).state.rooms, e ∈ st.rooms := by
  obtain ⟨-, hrooms, -, -⟩ := h
  obtain ⟨st'', effects, next⟩ := t
  have hsub : ∀ e ∈ st''.rooms, e ∈ st.rooms := by
    intro e he
    have hin := hrooms e he
    unfold State.rooms at hin
    rwa [hm] at hin
  intro e he
  cases next with
  | awaits request p => exact hsub e he
  | returns => exact hsub e he
  | raises error => exact hsub e ((leave_withdraws _).rooms e he)

theorem rooms_of_reacts (hr : Reacts ws conn st action r) (hreg : conn.status.Regular)
    (hp : st.Paired) (hm : ∀ msg, action = .message msg → ClientMessage msg) :
    ∀ e ∈ r.state.rooms, e ∈ st.rooms ∨ e.2.accepted = ∅ := by
  intro e he
  cases hr with
  | @message msg hs =>
    obtain ⟨room, hrej, -⟩ := eventStart_rejecting conn.user.id (hm msg rfl) hp
    exact .inl (rooms_of_rejecting hrej rfl e he)
  | hangup hs => exact .inl ((leave_withdraws _).rooms e he)
  | @serve failure task request hs =>
    obtain ⟨-, hrooms, -⟩ := request.perform_tables failure st
    unfold State.rooms at he
    rw [hrooms] at he
    exact .inl he
  | @resume hex drift task reply hs =>
    have hregular : task.Regular := by
      rw [hs] at hreg
      exact hreg
    cases task with
    | connect p => exact rooms_of_pursues (connectResume_pursues hex p reply) e he
    | event p =>
      obtain ⟨st', hrej, -, hmatch⟩ := eventResume_rejecting conn.user.id st hregular reply
      exact .inl (rooms_of_rejecting hrej hmatch e he)
    | onExcept p =>
      have hwithdraws : Withdraws conn.user.id st (afterExcept conn.user.id
          (disconnectResume conn.user.id drift p reply st)) :=
        afterExcept_withdraws (disconnectResume_tidies drift p reply)
      exact .inl (hwithdraws.rooms e he)
    | onFinally failed p =>
      have htidies : Tidies st (disconnectResume conn.user.id drift p reply st) :=
        disconnectResume_tidies drift p reply
      exact .inl ((afterFinally_withdraws conn.user.id failed htidies).2.rooms e he)

end Reacts

end Nalang.Matchmaking

namespace Nalang.WaitingRoom
open Matchmaking Transition

namespace World

structure Unaccepted (w : World) : Prop where
  owned : w.Owned
  shown : ∀ id c, w.components id = some c → ∀ event, c.message = some event → event.Ordinary
  regular : ∀ s conn, w.sys.conns.get? s = some conn → conn.status.Regular
  paired : w.sys.state.Paired
  rooms : ∀ e ∈ w.sys.state.rooms, e.2.accepted = ∅

section Pages
variable {w w' : World} {id : ℕ} {c c' : Component} {ws : Option Socket} {s : Socket} {l : Link}

theorem Unaccepted.moves (h : w.Unaccepted) (hm : Moves id w w')
    (hc' : w'.components id = some c')
    (hmessage : ∀ event, c'.message = some event → event.Ordinary) : w'.Unaccepted := by
  obtain ⟨howned, hlocal⟩ := hm h.owned
  refine ⟨howned, fun id' c₁ hc₁ => ?_, ?_, ?_, ?_⟩
  · by_cases hid : id' = id
    · rw [hid, hc', Option.some.injEq] at hc₁
      rw [← hc₁]
      exact hmessage
    · rw [hlocal.components id' hid] at hc₁
      exact h.shown id' c₁ hc₁
  · rw [hlocal.sys]
    exact h.regular
  · rw [hlocal.sys]
    exact h.paired
  · rw [hlocal.sys]
    exact h.rooms

theorem Unaccepted.kept (h : w.Unaccepted) (hm : Moves id w w') (hc : w.components id = some c)
    (hc' : w'.components id = some c') (hmessage : c'.message = c.message) : w'.Unaccepted :=
  h.moves hm hc' fun event hevent => h.shown id c hc event (hmessage ▸ hevent)

theorem unaccepted_mount (h : w.Unaccepted) (hnone : w.components id = none) (user : UserId)
    (hf : w.Fresh ws) :
    ((w.setComponent id (.mount user)).locationEffect id (.mount user) ws).Unaccepted := by
  have hset : (w.setComponent id (.mount user)).components id = some (.mount user) :=
    setComponent_self
  have hfresh : (w.setComponent id (.mount user)).Fresh ws := fresh_congr (fun _ h => h) rfl hf
  have hin : ((w.setComponent id (.mount user)).components id).isSome := by
    rw [hset]
    rfl
  obtain ⟨c', hc', -, -, hmessage, -⟩ := locationEffect_component (.mount user) ws hset
  refine h.moves ((moves_mount hnone rfl).trans (moves_locationEffect hfresh hin)) hc' ?_
  intro event hevent
  rw [hmessage] at hevent
  cases hevent

theorem unaccepted_locate (h : w.Unaccepted) (hc : w.components id = some c) (hf : w.Fresh ws) :
    (w.located id c ws).Unaccepted := by
  obtain ⟨c', hc', -, -, hmessage, -⟩ := located_component ws hc
  exact h.kept (moves_located hc hf) hc hc' hmessage

theorem unaccepted_render (h : w.Unaccepted) (hc : w.components id = some c) (hf : w.Fresh ws) :
    (w.rendered id c ws).Unaccepted := by
  obtain ⟨c', hc', -, -, hmessage, -⟩ := rendered_component (w := w) id c ws
  exact h.kept (moves_rendered hc rfl rfl hf) hc hc' hmessage

theorem unaccepted_reject (h : w.Unaccepted) (hc : w.components id = some c) (p : Proposal)
    (hf : w.Fresh ws) : (w.handleReject id c p ws).Unaccepted := by
  have hsend : Moves id w (w.send id (eventOf "rejected" p.room)) :=
    (passes_send (clientMessage_eventOf (.inr rfl))).moves
  have hc₁ : (w.send id (eventOf "rejected" p.room)).components id = some c := by
    rw [send_components, hc]
  have hfresh : (w.send id (eventOf "rejected" p.room)).Fresh ws :=
    fresh_congr (fun _ hs => send_links_none hs) send_sys hf
  have hkept : ∃ c', (w.handleReject id c p ws).components id = some c' ∧
      c'.message = c.message ∧ c'.entering = c.entering := rejected_kept c p ws
  obtain ⟨c', hc', hmessage, -⟩ := hkept
  exact h.kept (hsend.trans (moves_rendered hc₁ rfl rfl hfresh)) hc hc' hmessage

theorem unaccepted_callToken (h : w.Unaccepted) (hc : w.components id = some c)
    (rest : List String) (granted : Bool) :
    (if granted then (w.setComponent id { c with entering := rest }).entered id
        { c with entering := rest }
      else w.setComponent id { c with entering := rest }).Unaccepted := by
  have hasked : Moves id w (w.setComponent id { c with entering := rest }) :=
    moves_setComponent hc rfl rfl
  split_ifs
  · have hkept : ∃ c', ((w.setComponent id { c with entering := rest }).entered id
        { c with entering := rest }).components id = some c' ∧ c'.message = c.message ∧
          c'.entering = rest := entered_entering setComponent_self
    obtain ⟨c', hc', hmessage, -⟩ := hkept
    exact h.kept (hasked.trans moves_entered) hc hc' hmessage
  · exact h.kept hasked hc setComponent_self rfl

theorem unaccepted_setLink {l' : Link} (h : w.Unaccepted) (hl : w.links s = some l)
    (howner : l'.owner = l.owner) (hclient : ∀ event ∈ l'.toClient, event ∈ l.toClient)
    (hserver : l'.toServer = l.toServer) : (w.setLink s l').Unaccepted := by
  obtain ⟨c, hc⟩ := h.owned.owner s l hl
  exact h.kept (moves_setLink hl rfl howner hclient fun _ hmsg => .inl (hserver ▸ hmsg)) hc hc rfl

theorem unaccepted_message (h : w.Unaccepted) (hl : w.links s = some l) {event : ServerEvent}
    {rest : List ServerEvent} (hevents : l.toClient = event :: rest) :
    ((w.setLink s { l with toClient := rest }).onmessage l.owner event).Unaccepted := by
  obtain ⟨c, hc⟩ := h.owned.owner s l hl
  have hpop : (w.setLink s { l with toClient := rest }).Unaccepted := by
    refine unaccepted_setLink h hl rfl (fun e he => ?_) rfl
    rw [hevents]
    exact List.mem_cons_of_mem _ he
  have hordinary : event.Ordinary := h.owned.toClient s l hl event (by simp [hevents])
  have hmoves : Moves l.owner (w.setLink s { l with toClient := rest })
      ((w.setLink s { l with toClient := rest }).onmessage l.owner event) := by
    refine moves_modify fun c' _ => ?_
    split_ifs <;> exact ⟨rfl, .inl rfl⟩
  have hc' : ((w.setLink s { l with toClient := rest }).onmessage l.owner event).components
      l.owner =
        some (if c.mounted then { c with message := some event, stale := true } else c) := by
    simp [onmessage, hc]
  refine hpop.moves hmoves hc' fun event' hevent' => ?_
  by_cases hm : c.mounted
  · rw [if_pos hm] at hevent'
    cases hevent'
    exact hordinary
  · rw [if_neg hm] at hevent'
    exact h.shown _ c hc event' hevent'

theorem unaccepted_close (h : w.Unaccepted) (hl : w.links s = some l) :
    ((w.setLink s { l with ready := .closed, toClient := [] }).onclose l.owner).Unaccepted := by
  obtain ⟨c, hc⟩ := h.owned.owner s l hl
  have hclosed : (w.setLink s { l with ready := .closed, toClient := [] }).Unaccepted :=
    unaccepted_setLink h hl rfl (fun e he => by cases he) rfl
  have hmoves : Moves l.owner (w.setLink s { l with ready := .closed, toClient := [] })
      ((w.setLink s { l with ready := .closed, toClient := [] }).onclose l.owner) := by
    refine moves_modify fun c' _ => ?_
    split_ifs <;> exact ⟨rfl, .inr rfl⟩
  have hkept : ∃ c', ((w.setLink s { l with ready := .closed, toClient := [] }).onclose
      l.owner).components l.owner = some c' ∧ c'.message = c.message := by
    cases hm : c.mounted with
    | false => simp [onclose, hc, hm]
    | true => simp [onclose, hc, hm]
  obtain ⟨c', hc', hmessage⟩ := hkept
  exact hclosed.kept hmoves hc hc' hmessage

end Pages

/-! ### The server -/

section Server
variable {w w₁ w' : World} {s : Socket} {conn : Conn} {action : Action}

theorem unaccepted_acts (h : w.Unaccepted) (hstep : w₁.acts s action = some w')
    (hsys : w₁.sys = w.sys) (hcomp : w₁.components = w.components)
    (hret : Retains everySocket w w₁)
    (hclient : ∀ t l, w₁.links t = some l → ∀ event ∈ l.toClient, event.Ordinary)
    (hserver : ∀ t l, w₁.links t = some l → ∀ msg ∈ l.toServer, ClientMessage msg)
    (hpushed : ∀ conn task request t l, w.sys.conns.get? s = some conn → action = .serve none →
      conn.status = .waiting task request → request.To t → w₁.links t = some l → l.Live →
        l.toClient ≠ [])
    (hmsg : ∀ msg, action = .message msg → ClientMessage msg) : w'.Unaccepted := by
  obtain ⟨conn, r, hc, hr, rfl⟩ := acts_eq_some hstep
  rw [hsys] at hc hr
  have hreacted : Reacted w { w₁ with sys := w₁.sys.reacted s conn r } s conn action r := {
    sys := by rw [hsys]
    components := hcomp
    retains := ⟨hret.forth, hret.back⟩
    pushed := fun task request t l => hpushed conn task request t l hc
    toClient := hclient
    toServer := hserver }
  have hattends := attends_of_reacts hr (h.regular s conn hc) h.paired hmsg
  refine ⟨owned_reacted h.owned hc hreacted, fun id c hcomp' => h.shown id c (hcomp ▸ hcomp'),
    fun t conn' hconn' => ?_, hattends.paired, fun e he => ?_⟩
  · change (w₁.sys.reacted s conn r).conns.get? t = some conn' at hconn'
    rw [hsys] at hconn'
    rcases get?_reacted.mp hconn' with ⟨_, rfl⟩ | ⟨_, hold⟩
    · exact hattends.regular
    · exact h.regular t conn' hold
  · rcases rooms_of_reacts hr (h.regular s conn hc) h.paired hmsg e he with hold | hnew
    · exact h.rooms e hold
    · exact hnew

theorem unaccepted_handedOver {l : Link} {msgs : List Json} (h : w.Unaccepted)
    (hl : w.links s = some l) (hsub : ∀ msg ∈ msgs, msg ∈ l.toServer)
    (hserve : ∀ failure, action ≠ .serve failure)
    (hstep : (w.setLink s { l with toServer := msgs }).acts s action = some w')
    (hmsg : ∀ msg, action = .message msg → msg ∈ l.toServer) : w'.Unaccepted := by
  refine unaccepted_acts h hstep rfl rfl (retains_setLink hl ⟨rfl, Iff.rfl, id⟩) ?_ ?_ ?_ ?_
  · exact fun t l₁ hl₁ => (frames_of_received h.owned hl hsub hl₁).1
  · exact fun t l₁ hl₁ => (frames_of_received h.owned hl hsub hl₁).2
  · intro _ _ _ _ _ _ ha
    exact absurd ha (hserve none)
  · exact fun msg ha => h.owned.toServer s l hl msg (hmsg msg ha)

theorem unaccepted_unsent (h : w.Unaccepted) (hstep : w.acts s action = some w')
    (hpushed : ∀ conn task request t, w.sys.conns.get? s = some conn → action = .serve none →
      conn.status = .waiting task request → ¬ request.To t)
    (hmsg : ∀ msg, action ≠ .message msg) : w'.Unaccepted := by
  refine unaccepted_acts h hstep rfl rfl (retains_of_links fun _ _ => rfl) h.owned.toClient
    h.owned.toServer ?_ ?_
  · intro conn task request t l hc ha hs hto
    exact absurd hto (hpushed conn task request t hc ha hs)
  · intro msg ha
    exact absurd ha (hmsg msg)

theorem unaccepted_serve {failure : Option PyError} (h : w.Unaccepted)
    (hc : w.sys.conns.get? s = some conn)
    (hstep : (match conn.status, failure with
      | .waiting _ (.send target event), none => (w.push target event).acts s (.serve none)
      | _, _ => w.acts s (.serve failure)) = some w') : w'.Unaccepted := by
  by_cases hsend : failure = none ∧
      ∃ task target event, conn.status = .waiting task (.send target event)
  · obtain ⟨rfl, task, target, event, hstatus⟩ := hsend
    rw [hstatus] at hstep
    obtain ⟨hsys, hcomp⟩ := push_frame (w := w) target event
    have hordinary : event.Ordinary := by
      have hreg := h.regular s conn hc
      rw [hstatus] at hreg
      exact hreg.2
    refine unaccepted_acts h hstep hsys hcomp retains_push ?_ ?_ ?_ ?_
    · intro t l hl e he
      obtain ⟨l₀, hl₀, _, hevents⟩ := push_links hl
      rcases hevents e he with he | rfl
      · exact h.owned.toClient t l₀ hl₀ e he
      · exact hordinary
    · intro t l hl msg hm
      obtain ⟨l₀, hl₀, hserver, _⟩ := push_links hl
      exact h.owned.toServer t l₀ hl₀ msg (hserver ▸ hm)
    · intro conn' task' request t l hc' _ hstatus' hto hl hlive
      rw [hc, Option.some.injEq] at hc'
      rw [← hc', hstatus] at hstatus'
      cases hstatus'
      obtain rfl : target = t := hto
      exact push_toClient hl hlive
    · intro msg ha
      cases ha
  · have hacts : w.acts s (.serve failure) = some w' := by
      split at hstep
      · next task target event hstatus => exact absurd ⟨rfl, task, target, event, hstatus⟩ hsend
      · exact hstep
    refine unaccepted_unsent h hacts ?_ fun msg ha => by cases ha
    intro conn' task request t hc' ha hstatus hto
    rw [hc, Option.some.injEq] at hc'
    rw [Action.serve.injEq] at ha
    cases request with
    | send target event => exact hsend ⟨ha, task, target, event, hc' ▸ hstatus⟩
    | _ => exact hto

theorem unaccepted_accept {l : Link} {c : Component} {user : User} {query : QueryParams} {sys : Sys}
    (h : w.Unaccepted) (hl : w.links s = some l) (hcomp : w.components l.owner = some c)
    (huser : user.id = c.user) (hstep : w.sys.step (.connect s user query) = some sys) :
    (({ w with sys := sys } : World).setLink s { l with requested := false }).Unaccepted := by
  have hpassed : (w.setLink s { l with requested := false }).Unaccepted :=
    unaccepted_setLink h hl rfl (fun _ he => he) rfl
  cases steps_of_step (show interleaved.step w.sys (.connect s user query) sys from hstep) with
  | connects hnew =>
    refine ⟨⟨hpassed.owned.owner, hpassed.owned.socketRef, ?_, hpassed.owned.toClient,
      hpassed.owned.toServer⟩, h.shown, ?_, h.paired, h.rooms⟩
    · intro t conn hc
      rcases OrderedDict.get?_set_eq_some.mp hc with ⟨rfl, rfl⟩ | ⟨_, hc⟩
      · exact ⟨{ l with requested := false }, c, setLink_links_self, hcomp, huser⟩
      · exact hpassed.owned.conn t conn hc
    · intro t conn hc
      rcases OrderedDict.get?_set_eq_some.mp hc with ⟨rfl, rfl⟩ | ⟨_, hc⟩
      · exact ⟨trivial, trivial⟩
      · exact h.regular t conn hc

end Server

/-! ### Whole runs -/

section Runs
variable {w w' : World} {l : Label}

theorem unaccepted_step (h : w.Unaccepted) (hstep : w.step l = some w') : w'.Unaccepted := by
  cases l with
  | mount id user ws =>
    obtain ⟨hnew, hstep⟩ := Option.ite_none_right_eq_some.mp hstep
    cases hstep
    exact unaccepted_mount h (Option.isNone_iff_eq_none.mp hnew.1) user hnew.2
  | locate id ws =>
    obtain ⟨c, hc, _, hstep⟩ := inComponent_eq_some hstep
    obtain ⟨hf, hstep⟩ := Option.ite_none_right_eq_some.mp hstep
    cases hstep
    exact unaccepted_locate h hc hf
  | unmount id =>
    obtain ⟨c, hc, _, hstep⟩ := inComponent_eq_some hstep
    cases hstep
    exact h.kept moves_unmounted hc (unmounted_component hc) rfl
  | render id ws =>
    obtain ⟨c, hc, _, hstep⟩ := inComponent_eq_some hstep
    obtain ⟨hf, hstep⟩ := Option.ite_none_right_eq_some.mp hstep
    cases hstep
    exact unaccepted_render h hc hf
  | tick id =>
    obtain ⟨c, hc, _, hstep⟩ := inComponent_eq_some hstep
    obtain ⟨_, hstep⟩ := Option.ite_none_right_eq_some.mp hstep
    cases hstep
    exact h.kept (moves_setComponent hc rfl rfl) hc setComponent_self rfl
  | reject id ws =>
    obtain ⟨c, hc, _, hstep⟩ := inComponent_eq_some hstep
    split at hstep
    · cases hstep
    · next p _ =>
      obtain ⟨hf, hstep⟩ := Option.ite_none_right_eq_some.mp hstep
      cases hstep
      exact unaccepted_reject h hc p hf
  | callToken id index granted =>
    simp only [step] at hstep
    split at hstep
    · cases hstep
    · next c hc =>
      obtain ⟨_, hstep⟩ := Option.ite_none_right_eq_some.mp hstep
      cases hstep
      exact unaccepted_callToken h hc (c.entering.eraseIdx index) granted
  | opens s =>
    simp only [step] at hstep
    split at hstep
    · cases hstep
    · next l hl =>
      obtain ⟨_, hstep⟩ := Option.ite_none_right_eq_some.mp hstep
      cases hstep
      exact unaccepted_setLink h hl rfl (fun _ he => he) rfl
  | message s =>
    simp only [step] at hstep
    split at hstep
    · cases hstep
    · next l hl =>
      split at hstep
      · next event rest _ hevents =>
        cases hstep
        exact unaccepted_message h hl hevents
      · cases hstep
  | closes s =>
    simp only [step] at hstep
    split at hstep
    · cases hstep
    · next l hl =>
      split_ifs at hstep
      cases hstep
      exact unaccepted_close h hl
  | accept s user query =>
    simp only [step] at hstep
    split at hstep
    · cases hstep
    · next l hl =>
      split at hstep
      · cases hstep
      · next c hc =>
        split_ifs at hstep with hrequested
        split at hstep
        · cases hstep
        · next sys hsys =>
          cases hstep
          exact unaccepted_accept h hl hc hrequested.2 hsys
  | refuse s =>
    simp only [step] at hstep
    split at hstep
    · cases hstep
    · next l hl =>
      obtain ⟨_, hstep⟩ := Option.ite_none_right_eq_some.mp hstep
      cases hstep
      exact unaccepted_setLink h hl rfl (fun _ he => he) rfl
  | receive s =>
    simp only [step] at hstep
    split at hstep
    · cases hstep
    · next l hl =>
      split at hstep
      · cases hstep
      · next msg rest hmsgs =>
        refine unaccepted_handedOver h hl (fun m hm => hmsgs ▸ List.mem_cons_of_mem _ hm)
          (fun _ ha => by cases ha) hstep fun m ha => ?_
        cases ha
        rw [hmsgs]
        exact List.mem_cons_self
  | serve s failure =>
    simp only [step] at hstep
    split at hstep
    · cases hstep
    · next conn hc => exact unaccepted_serve h hc hstep
  | resume s hex drift =>
    refine unaccepted_unsent h hstep (fun _ _ _ _ _ ha => by cases ha) fun _ ha => ?_
    cases ha
  | hangup s =>
    simp only [step] at hstep
    split at hstep
    · cases hstep
    · next l hl =>
      exact unaccepted_handedOver h hl (fun m hm => by cases hm) (fun _ ha => by cases ha) hstep
        fun _ ha => by cases ha
  | elapse seconds today =>
    cases hstep
    exact ⟨⟨h.owned.owner, h.owned.socketRef, h.owned.conn, h.owned.toClient, h.owned.toServer⟩,
      h.shown, h.regular, h.paired, h.rooms⟩

theorem unaccepted_initial (clock : Clock) : (initial clock).Unaccepted where
  owned := (coherent_initial clock).owned
  shown _ _ h := by cases h
  regular _ _ h := by cases h
  paired _ h := by cases h
  rooms _ h := by cases h

/-- In every run of any number of pages and the server, no proposal has an accepted user, no
'accept' is on its way to the server and no `matched` on its way to a page or on its screen. -/
theorem nobody_accepts {clock : Clock} {ls : List Label}
    (hr : world.Run (initial clock) ls w) :
    (∀ room data, w.sys.state.matchingCandidates.get? room = some data → data.accepted = ∅) ∧
      (∀ s l, w.links s = some l → ∀ msg ∈ l.toServer, msg.get "event" ≠ .ok (.str "accept")) ∧
      (∀ s l room, w.links s = some l → .matched room ∉ l.toClient) ∧
      ∀ id c room, w.components id = some c → c.message ≠ some (.matched room) := by
  have h : w.Unaccepted :=
    hr.invariant Unaccepted (unaccepted_initial clock) fun _ _ _ h hs => unaccepted_step h hs
  refine ⟨fun room data hdata => ?_, fun s l hl msg hmsg haccept => ?_,
    fun s l room hl hmatched => ?_, fun id c room hc hmatched => ?_⟩
  · exact h.rooms (room, data) (OrderedDict.get?_eq_some.mp hdata)
  · obtain ⟨event, room, hevent, hnames⟩ := h.owned.toServer s l hl msg hmsg
    rw [hnames.1] at haccept
    cases haccept
    revert hevent
    decide
  · exact h.owned.toClient s l hl _ hmatched
  · exact h.shown id c hc _ hmatched

end Runs

/-! ### A room that is entered without being accepted -/

def enteredAlone : List Label :=
  beforeProposal ++ [.resume ⟨2⟩ "b" ⟨[], false⟩] ++ goesOn ⟨2⟩ ++ goesOn ⟨2⟩ ++ goesOn ⟨2⟩ ++
    goesOn ⟨2⟩ ++ isProposed 1 ⟨2⟩ ++ isProposed 0 ⟨1⟩ ++
      (List.replicate 5 [.tick 0, .render 0 (some ⟨0⟩)]).flatten ++ [.receive ⟨1⟩]

set_option maxRecDepth 2000 in
theorem nobody_accepts_applied : ∃ w room data,
    world.Run (initial .start) enteredAlone w ∧
      w.sys.state.matchingCandidates.get? room = some data ∧
      .of 1 ∈ w.sys.state.enteredUsers ∧ data.accepted = ∅ := by
  obtain ⟨w, room, data, hexec, hroom, hentered⟩ : ∃ w room data,
      Lts.exec step (initial .start) enteredAlone = some w ∧
        w.sys.state.matchingCandidates.get? room = some data ∧
        .of 1 ∈ w.sys.state.enteredUsers :=
    ⟨_, "room_3_2_b", _, rfl, rfl, by decide⟩
  have hr : world.Run (initial .start) enteredAlone w := Lts.run_of_exec hexec
  exact ⟨w, room, data, hr, hroom, hentered, (nobody_accepts hr).1 room data hroom⟩

end World
end Nalang.WaitingRoom
