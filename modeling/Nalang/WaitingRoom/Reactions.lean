import Nalang.Matchmaking.Cleanup
import Nalang.Matchmaking.MissedPairs
import Nalang.Matchmaking.ProposalOutcome

/-!
# What the server's handlers do for those who search

A connect ends with its user in the queue, with proposals, or with an exception.
Who leaves the queue is sent a proposal, or has a connection that comes to its end.
-/

namespace Nalang.Matchmaking
open Python Transition

def ServerEvent.Ordinary : ServerEvent → Prop
  | .matched _ => False
  | _ => True

namespace Request

def To (t : Socket) : Request → Prop
  | .send s _ => s = t
  | _ => False

def Ordinary : Request → Prop
  | .send _ event => event.Ordinary
  | _ => True

end Request

def Task.Regular : Task → Prop
  | .event (.matching _ _) => False
  | .event (.rejecting _ sockets _ _ idx rest) => idx + rest.length ≤ sockets.length
  | _ => True

namespace Status

def Regular : Status → Prop
  | .waiting task request => task.Regular ∧ request.Ordinary
  | .ready task _ => task.Regular
  | _ => True

def Unsettled : Status → Prop
  | .waiting (.connect p) _ => p.Undecided
  | .ready (.connect p) reply => p.Undecided ∨ ∃ e, reply = .error e
  | s => s.Leaving

/-- A proposal is being sent to the socket, or will be sent next. -/
def Announces (t : Socket) : Status → Prop
  | .waiting (.connect (.proposing _ ws2 _)) request => ws2 = t ∨ request.To t
  | .ready (.connect (.proposing _ ws2 _)) (.ok _) => ws2 = t
  | .waiting (.connect (.proposingPartner _)) request => request.To t
  | _ => False

theorem Leaving.unsettled {s : Status} (h : s.Leaving) : s.Unsettled := by
  cases s with
  | idle => exact absurd h id
  | waiting task request => cases task <;> first | exact h | exact absurd h id
  | ready task reply => cases task <;> first | exact h | exact absurd h id
  | finished failed => exact h

end Status

def State.Paired (st : State) : Prop := ∀ e ∈ st.rooms, e.2.userIds.length ≤ e.2.sockets.length

namespace Conn

/-- `handle_disconnect` may begin in the step: the client has gone, a handler raises, or the
`except` block comes to its end. -/
def Departs (conn : Conn) (st : State) : Action → Prop
  | .hangup => True
  | .resume _ _ =>
    match conn.status with
    | .ready (.connect _) (.error _) => True
    | .ready (.connect (.reading otherId _)) (.ok (some parsed)) =>
      match mutualMatch st.clock.today parsed conn.user.userData conn.query.filters with
      | .error _ => True
      | .ok found => found = true ∧ ¬ otherId ∈ st.waitingUsers
    | .ready (.event p) _ => ¬ p.room ∈ st.matchingCandidates
    | .ready (.onExcept _) _ => True
    | _ => False
  | _ => False

def Claims (conn : Conn) (st : State) (otherId : UserId) : Action → Prop
  | .resume _ _ => ∃ rest parsed,
    conn.status = .ready (.connect (.reading otherId rest)) (.ok (some parsed)) ∧
      mutualMatch st.clock.today parsed conn.user.userData conn.query.filters = .ok true
  | _ => False

end Conn

/-! ### `handle_connect` -/

inductive Pursues (ws : Socket) (conn : Conn) (st : State) (p : ConnectPoint) (reply : Reply) :
    Turn ConnectPoint → Prop
  | raises {e : PyError} (hd : ∀ hex drift, conn.status = .ready (.connect p) reply →
        conn.Departs st (.resume hex drift)) :
      Pursues ws conn st p reply ⟨st, [], .raises e⟩
  | registers (hp : p.Undecided) : Pursues ws conn st p reply
      ⟨register st conn.user.id ws, [.registered conn.user.id ws], .returns⟩
  | reads {otherId : UserId} {rest : List (UserId × Socket)} (hp : p.Undecided) :
      Pursues ws conn st p reply ⟨st, [], .awaits (.redisGet otherId) (.reading otherId rest)⟩
  | claims {partner : UserId} {ws2 : Socket} {room : String} (hp : p.Undecided)
      (hc : ∀ hex drift, conn.status = .ready (.connect p) reply →
        conn.Claims st partner (.resume hex drift))
      (hg : st.waitingUsers.get? partner = some ws2) :
      Pursues ws conn st p reply ⟨claim st conn.user.id ws partner ws2 room,
        [.claimed conn.user.id partner ws2 room],
        .awaits (.send ws (.matchProposal room partner)) (.proposing partner ws2 room)⟩
  | proposes {partner : UserId} {ws2 : Socket} {room : String} {value : Option CallRecord}
      (hp : p = .proposing partner ws2 room) (hr : reply = .ok value) :
      Pursues ws conn st p reply ⟨st, [],
        .awaits (.send ws2 (.matchProposal room conn.user.id)) (.proposingPartner partner)⟩
  | deletes {id : UserId} {p' : ConnectPoint} {value : Option CallRecord} (hp : ¬ p.Undecided)
      (hr : reply = .ok value) (ht : ∀ partner ws2 room, p ≠ .proposing partner ws2 room) :
      Pursues ws conn st p reply ⟨st, [], .awaits (.redisDelete id) p'⟩
  | returns {value : Option CallRecord} (hp : ¬ p.Undecided) (hr : reply = .ok value)
      (ht : ∀ partner ws2 room, p ≠ .proposing partner ws2 room) :
      Pursues ws conn st p reply ⟨st, [], .returns⟩

section Connect
variable {ws : Socket} {conn : Conn} {st : State}

theorem connectScan_pursues {p : ConnectPoint} (hp : p.Undecided) (reply : Reply)
    (es : List (UserId × Socket)) :
    Pursues ws conn st p reply (connectScan ws conn.user st es) := by
  rcases connectScan_cases ws conn.user st es with ⟨_, h⟩ | ⟨otherId, rest, _, _, h⟩
  · rw [h]
    exact .registers hp
  · rw [h]
    exact .reads hp

theorem connectResume_pursues (hex : String) (p : ConnectPoint) (reply : Reply) :
    Pursues ws conn st p reply (connectResume hex ws conn.user conn.query p reply st) := by
  cases reply with
  | error e => exact .raises fun hex drift hs => by simp [Conn.Departs, hs]
  | ok value =>
    cases p with
    | storing => exact connectScan_pursues (p := .storing) trivial _ _
    | reading otherId rest =>
      have hscan : ∀ value, Pursues ws conn st (.reading otherId rest) (.ok value)
          (connectScan ws conn.user st rest) :=
        fun value => connectScan_pursues (p := .reading otherId rest) trivial _ rest
      cases value with
      | none => exact hscan none
      | some parsed =>
        unfold connectResume
        dsimp only
        cases hm : mutualMatch st.clock.today parsed conn.user.userData conn.query.filters with
        | error e => exact .raises fun hex drift hs => by simp [Conn.Departs, hs, hm]
        | ok found =>
          cases found with
          | false => exact hscan (some parsed)
          | true =>
            dsimp only
            unfold connectClaim
            cases hg : st.waitingUsers.get? otherId with
            | none =>
              have hout := OrderedDict.get?_eq_none.mp hg
              exact .raises fun hex drift hs => by simp [Conn.Departs, hs, hm, hout]
            | some ws2 => exact .claims trivial (fun hex drift hs => ⟨rest, parsed, hs, hm⟩) hg
    | proposing partner ws2 room => exact .proposes rfl rfl
    | proposingPartner partner => exact .deletes id rfl (by simp)
    | deleting partner => exact .deletes id rfl (by simp)
    | deletingPartner => exact .returns id rfl (by simp)

end Connect

/-! ### `handle_disconnect` -/

structure Tidies (st : State) (t : Turn DisconnectPoint) : Prop where
  waiting : t.state.waitingUsers = st.waitingUsers
  rooms : ∀ e ∈ t.state.rooms, e ∈ st.rooms
  request : ∀ request p, t.next = .awaits request p → request.Ordinary

section Disconnect
variable {userId : UserId} {st : State}

theorem tidies_raises (e : PyError) : Tidies st ⟨st, [], .raises e⟩ where
  waiting := rfl
  rooms _ he := he
  request _ _ hn := by cases hn

theorem notifyNext_tidies (room : String) (cursor : OrderedDict.Cursor String)
    (toRemove : List String) (socks : List Socket) :
    Tidies st (notifyNext userId st room cursor toRemove socks) := by
  cases socks with
  | nil => exact ⟨rfl, fun _ he => he, fun _ _ hn => by cases hn; trivial⟩
  | cons sock socks => exact ⟨rfl, fun _ he => he, fun _ _ hn => by cases hn; trivial⟩

theorem disconnectRemove_tidies (rs : List String) : Tidies st (disconnectRemove userId st rs) := by
  induction rs generalizing st with
  | nil => exact ⟨rfl, fun _ he => he, fun _ _ hn => by cases hn⟩
  | cons r rs ih =>
    unfold disconnectRemove
    split_ifs
    · have hrest : Tidies { st with matchingCandidates := st.matchingCandidates.erase r }
          (disconnectRemove userId
            { st with matchingCandidates := st.matchingCandidates.erase r } rs) := ih
      refine ⟨hrest.waiting, fun e he => ?_, hrest.request⟩
      exact (OrderedDict.mem_entries_erase.mp (hrest.rooms e he)).1
    · exact tidies_raises _

theorem disconnectScan_tidies (cursor : OrderedDict.Cursor String) (fails : Bool)
    (keys toRemove : List String) :
    Tidies st (disconnectScan userId st cursor fails keys toRemove) := by
  induction keys generalizing toRemove with
  | nil =>
    unfold disconnectScan
    split_ifs
    · exact tidies_raises _
    · exact disconnectRemove_tidies toRemove
  | cons room keys ih =>
    unfold disconnectScan
    cases st.matchingCandidates.get? room with
    | none => exact ih toRemove
    | some data =>
      dsimp only
      split_ifs
      · exact ih _
      · exact notifyNext_tidies room _ toRemove data.sockets
      · exact ih toRemove

theorem disconnectResume_tidies (drift : OrderedDict.Drift String) (p : DisconnectPoint)
    (reply : Reply) : Tidies st (disconnectResume userId drift p reply st) := by
  cases p with
  | notifying room rest cursor toRemove => exact notifyNext_tidies room cursor toRemove rest
  | deletingOwn =>
    cases reply with
    | error e => exact tidies_raises e
    | ok value => exact disconnectScan_tidies _ _ _ _
  | deletingKey room cursor toRemove =>
    cases reply with
    | error e => exact tidies_raises e
    | ok value => exact disconnectScan_tidies _ _ _ _

structure Withdraws (userId : UserId) (st : State) (r : Reaction) : Prop where
  waiting : ∀ id ∈ st.waitingUsers, id ≠ userId → id ∈ r.state.waitingUsers
  rooms : ∀ e ∈ r.state.rooms, e ∈ st.rooms
  leaving : r.status.Leaving
  regular : r.status.Regular

theorem Withdraws.after {st₀ : State} {r : Reaction} (h : Withdraws userId st r)
    (hw : ∀ id ∈ st₀.waitingUsers, id ≠ userId → id ∈ st.waitingUsers)
    (hr : ∀ e ∈ st.rooms, e ∈ st₀.rooms) : Withdraws userId st₀ r where
  waiting id hid hne := h.waiting id (hw id hid hne) hne
  rooms e he := hr e (h.rooms e he)
  leaving := h.leaving
  regular := h.regular

theorem afterFinally_withdraws (userId : UserId) (failed : Option PyError)
    {t : Turn DisconnectPoint} (h : Tidies st t) :
    (afterFinally failed t).state.waitingUsers = st.waitingUsers ∧
      Withdraws userId st (afterFinally failed t) := by
  have hleaves := (afterFinally_leaves failed t).status
  obtain ⟨hw, hr, hreq⟩ := h
  obtain ⟨st', effects, next⟩ := t
  have hwaiting : ∀ id ∈ st.waitingUsers, id ≠ userId → id ∈ st'.waitingUsers :=
    fun id hid _ => hw ▸ hid
  cases next with
  | awaits request p => exact ⟨hw, hwaiting, hr, hleaves, trivial, hreq request p rfl⟩
  | returns => exact ⟨hw, hwaiting, hr, hleaves, trivial⟩
  | raises e => exact ⟨hw, hwaiting, hr, hleaves, trivial⟩

theorem disconnectStart_withdraws (failed : Option PyError) :
    Withdraws userId st (afterFinally failed (disconnectStart userId st)) := by
  unfold disconnectStart
  split_ifs with hin
  · refine ⟨fun id hid hne => ?_, fun _ he => he, trivial, trivial, trivial⟩
    exact OrderedDict.mem_erase.mpr ⟨hne, hid⟩
  · exact (afterFinally_withdraws userId failed (disconnectScan_tidies _ _ _ _)).2

theorem afterExcept_withdraws {t : Turn DisconnectPoint} (h : Tidies st t) :
    Withdraws userId st (afterExcept userId t) := by
  obtain ⟨hw, hr, hreq⟩ := h
  obtain ⟨st', effects, next⟩ := t
  have hlast : ∀ failed, Withdraws userId st (afterFinally failed (disconnectStart userId st')) :=
    fun failed => (disconnectStart_withdraws failed).after (fun id hid _ => hw ▸ hid) hr
  cases next with
  | awaits request p =>
    exact ⟨fun id hid _ => hw ▸ hid, hr, trivial, trivial, hreq request p rfl⟩
  | returns => exact hlast none
  | raises e => exact hlast (some e)

theorem leave_withdraws (raised : Option PyError) :
    Withdraws userId st (leave userId raised st) := by
  unfold leave
  split_ifs
  · unfold disconnectStart
    split_ifs with hin
    · refine ⟨fun id hid hne => ?_, fun _ he => he, trivial, trivial, trivial⟩
      exact OrderedDict.mem_erase.mpr ⟨hne, hid⟩
    · exact afterExcept_withdraws (disconnectScan_tidies _ _ _ _)
  · exact disconnectStart_withdraws none

end Disconnect

/-! ### `handle_receive_event` -/

structure Rejecting (room : String) (st : State) (t : Turn EventPoint) : Prop where
  waiting : t.state.waitingUsers = st.waitingUsers
  rooms : ∀ e ∈ t.state.rooms, e ∈ st.rooms
  raises : ∀ e, t.next = .raises e → ¬ room ∈ st.matchingCandidates
  regular : ∀ request p, t.next = .awaits request p → (Task.event p).Regular ∧ request.Ordinary

section Event
variable {st : State} {room : String}

theorem deleteRoom_rejecting : Rejecting room st (deleteRoom st room) := by
  have hrooms : ∀ e ∈ (deleteRoom st room).state.rooms, e ∈ st.rooms := fun e => deleteRoom_rooms
  unfold deleteRoom at hrooms ⊢
  split_ifs at hrooms ⊢ with hin
  · exact ⟨rfl, hrooms, fun _ hn => (by cases hn), fun _ _ hn => by cases hn⟩
  · exact ⟨rfl, hrooms, fun _ _ => hin, fun _ _ hn => by cases hn⟩

theorem rejectNext_rejecting (userId : UserId) {sockets : List Socket} {idx : ℕ}
    {uids : List UserId} (hlen : idx + uids.length ≤ sockets.length) :
    Rejecting room st (rejectNext userId room sockets st idx uids) := by
  induction uids generalizing idx with
  | nil => exact deleteRoom_rejecting
  | cons uid uids ih =>
    rw [List.length_cons] at hlen
    unfold rejectNext
    split_ifs with hu
    · have hget : sockets[idx]? = some (sockets.get ⟨idx, by omega⟩) := by simp
      rw [hget]
      refine ⟨rfl, fun _ he => he, fun _ hn => (by cases hn), fun _ _ hn => ?_⟩
      cases hn
      exact ⟨show idx + 1 + uids.length ≤ sockets.length by omega, trivial⟩
    · exact ih (by omega)

def ClientMessage (msg : Json) : Prop :=
  ∃ event room, (event = "entered" ∨ event = "rejected") ∧ Names msg (.str event) room

theorem eventStart_rejecting (userId : UserId) {msg : Json} (hm : ClientMessage msg)
    (hp : st.Paired) : ∃ room, Rejecting room st (eventStart userId msg st) ∧
      ∀ e, (eventStart userId msg st).next ≠ .raises e := by
  obtain ⟨event, room, hevent, hn⟩ := hm
  refine ⟨room, ?_⟩
  rw [eventStart_of_names userId hn rfl]
  cases hg : st.matchingCandidates.get? room with
  | none => exact ⟨⟨rfl, fun _ he => he, fun _ hn => (by cases hn), fun _ _ hn => by cases hn⟩,
      fun _ hn => by cases hn⟩
  | some data =>
    rcases hevent with rfl | rfl
    · exact ⟨⟨rfl, fun _ he => he, fun _ hn => (by cases hn), fun _ _ hn => by cases hn⟩,
        fun _ hn => by cases hn⟩
    · have hlen : data.userIds.length ≤ data.sockets.length :=
        hp (room, data) (OrderedDict.get?_eq_some.mp hg)
      have hrej : Rejecting room st (rejectNext userId room data.sockets st 0 data.userIds) :=
        rejectNext_rejecting userId (by omega)
      refine ⟨hrej, fun e hraise => ?_⟩
      exact hrej.raises e hraise (OrderedDict.mem_of_get? hg)

theorem eventResume_rejecting (userId : UserId) (st : State) {p : EventPoint}
    (hreg : (Task.event p).Regular) (reply : Reply) :
    ∃ st', Rejecting p.room st' (eventResume userId p reply st) ∧
      (∀ id ∈ st.waitingUsers, id ∈ st'.waitingUsers) ∧
      st'.matchingCandidates = st.matchingCandidates := by
  cases p with
  | matching room rest => exact absurd hreg id
  | rejecting room sockets uid sock idx rest =>
    cases reply with
    | error e => exact ⟨st, rejectNext_rejecting userId hreg, fun _ hid => hid, rfl⟩
    | ok value =>
      have hrej : Rejecting room (requeue st uid sock)
          (rejectNext userId room sockets (requeue st uid sock) idx rest) :=
        rejectNext_rejecting userId hreg
      refine ⟨requeue st uid sock, ⟨hrej.waiting, hrej.rooms, hrej.raises, hrej.regular⟩, ?_, rfl⟩
      exact fun id hid => OrderedDict.mem_set.mpr (.inr hid)

end Event

/-! ### A reaction of a connection -/

/-- What a reaction leaves to the user of the connection, to those in the queue and to those who are
about to get a proposal. -/
structure Attends (ws : Socket) (conn : Conn) (st : State) (action : Action) (r : Reaction) :
    Prop where
  waiting : ∀ id ∈ st.waitingUsers, id ∈ r.state.waitingUsers ∨
    (id = conn.user.id ∧ conn.Departs st action ∧ r.status.Unsettled) ∨
      ∃ ws2, conn.Claims st id action ∧ st.waitingUsers.get? id = some ws2 ∧ r.status.Announces ws2
  unsettled : conn.status.Unsettled →
    r.status.Unsettled ∨ conn.user.id ∈ r.state.waitingUsers ∨ r.status.Announces ws
  announced : ∀ t, conn.status.Announces t → r.status.Announces t ∨
    (∃ task request, conn.status = .waiting task request ∧ action = .serve none ∧ request.To t) ∨
      ∃ e, action = .serve (some e) ∧ r.status.Unsettled
  regular : r.status.Regular
  paired : r.state.Paired

section Reacts
variable {ws : Socket} {conn : Conn} {st : State} {action : Action} {r : Reaction}

theorem State.Paired.mono {st st' : State} (h : st.Paired) (hr : ∀ e ∈ st'.rooms, e ∈ st.rooms) :
    st'.Paired := fun e he => h e (hr e he)

theorem Conn.Departs.not_announces (h : conn.Departs st action) (hr : Reacts ws conn st action r)
    (t : Socket) : ¬ conn.status.Announces t := by
  cases hr with
  | message hs => exact absurd h id
  | hangup hs => simp [hs, Status.Announces]
  | serve hs => exact absurd h id
  | @resume hex drift task reply hs =>
    simp only [Conn.Departs, hs] at h
    rw [hs]
    cases task with
    | connect p =>
      cases reply with
      | error e => cases p <;> exact id
      | ok value => cases p <;> cases value <;> first | exact id | exact absurd h id
    | event p => exact id
    | onExcept p => exact id
    | onFinally failed p => exact id

theorem Withdraws.attends (h : Withdraws conn.user.id st r) (hd : conn.Departs st action)
    (hann : ∀ t, ¬ conn.status.Announces t) (hp : st.Paired) : Attends ws conn st action r where
  waiting id hid := by
    by_cases hown : id = conn.user.id
    · exact .inr (.inl ⟨hown, hd, h.leaving.unsettled⟩)
    · exact .inl (h.waiting id hid hown)
  unsettled _ := .inl h.leaving.unsettled
  announced t ht := absurd ht (hann t)
  regular := h.regular
  paired := hp.mono h.rooms

theorem Withdraws.with_notes (h : Withdraws conn.user.id st r) (notes : List Note) :
    Withdraws conn.user.id st { r with notes := notes } :=
  ⟨h.waiting, h.rooms, h.leaving, h.regular⟩

theorem attends_serve {failure : Option PyError} {task : Task} {request : Request}
    (hs : conn.status = .waiting task request) (hreg : conn.status.Regular) (hp : st.Paired) :
    Attends ws conn st (.serve failure) ⟨(request.perform failure st).1,
      .ready task (request.perform failure st).2, request.notes ws failure⟩ := by
  obtain ⟨hw, hm, _⟩ := request.perform_tables failure st
  rw [hs] at hreg
  refine ⟨fun id hid => .inl (hw ▸ hid), fun hu => .inl ?_, fun t ht => ?_, hreg.1, fun e he => ?_⟩
  · rw [hs] at hu
    cases task with
    | connect p => exact .inl hu
    | event p => exact absurd hu id
    | onExcept p => exact trivial
    | onFinally failed p => exact trivial
  · rw [hs] at ht
    cases task with
    | connect p =>
      cases request with
      | send sock event =>
        cases failure with
        | none =>
          by_cases hto : sock = t
          · exact .inr (.inl ⟨_, _, hs, rfl, hto⟩)
          · cases p with
            | proposing partner ws2 room => exact .inl (ht.resolve_right hto)
            | proposingPartner partner => exact absurd ht hto
            | _ => exact absurd ht (fun h => h)
        | some e => exact .inr (.inr ⟨e, rfl, .inr ⟨e, rfl⟩⟩)
      | _ =>
        -- Redis does not fail, and the next send is still to come
        cases p with
        | proposing partner ws2 room => exact .inl (ht.resolve_right fun h => h)
        | _ => exact absurd ht (fun h => h)
    | _ => exact absurd ht (fun h => h)
  · unfold State.rooms at he
    rw [hm] at he
    exact hp e he

theorem attends_connect {hex : String} {drift : OrderedDict.Drift String} {p : ConnectPoint}
    {reply : Reply} (hs : conn.status = .ready (.connect p) reply) (hp : st.Paired)
    (hr : Reacts ws conn st (.resume hex drift) r) {t : Turn ConnectPoint}
    (h : Pursues ws conn st p reply t) :
    Attends ws conn st (.resume hex drift) (settle conn.user.id ws .connect t) := by
  have hundecided : p.Undecided → ∀ t, ¬ conn.status.Announces t := by
    intro hu t
    rw [hs]
    cases p <;> first | exact id | exact absurd hu id
  have hsettled : ∀ value, ¬ p.Undecided → reply = .ok value → ¬ conn.status.Unsettled := by
    intro value hu hv hunsettled
    rw [hs, hv] at hunsettled
    rcases hunsettled with hunsettled | ⟨e, he⟩
    · exact hu hunsettled
    · cases he
  cases h with
  | raises hd =>
    have hdep := hd hex drift hs
    exact ((leave_withdraws _).with_notes _).attends hdep (fun t => hdep.not_announces hr t) hp
  | registers hu =>
    refine ⟨fun id hid => .inl ?_, fun _ => .inr (.inl ?_), fun t ht => ?_, trivial, hp⟩
    · exact OrderedDict.mem_set.mpr (.inr hid)
    · exact OrderedDict.mem_set.mpr (.inl rfl)
    · exact absurd ht (hundecided hu t)
  | reads hu =>
    refine ⟨fun id hid => .inl hid, fun _ => .inl trivial, fun t ht => ?_, ⟨trivial, trivial⟩, hp⟩
    exact absurd ht (hundecided hu t)
  | @claims partner ws2 room hu hc hg =>
    refine ⟨fun id hid => ?_, fun _ => .inr (.inr (.inr rfl)), fun t ht => ?_, ⟨trivial, trivial⟩,
      fun e he => ?_⟩
    · by_cases hpartner : id = partner
      · rw [hpartner]
        exact .inr (.inr ⟨ws2, hc hex drift hs, hg, .inl rfl⟩)
      · exact .inl (OrderedDict.mem_erase.mpr ⟨hpartner, hid⟩)
    · exact absurd ht (hundecided hu t)
    · rcases OrderedDict.mem_entries_set.mp he with rfl | ⟨he, _⟩
      · exact Nat.le_refl 2
      · exact hp e he
  | @proposes partner ws2 room value hpoint hv =>
    refine ⟨fun id hid => .inl hid, fun hu => ?_, fun t ht => .inl ?_, ⟨trivial, trivial⟩, hp⟩
    · exact absurd hu (hsettled value (hpoint ▸ id) hv)
    · rw [hs, hpoint, hv] at ht
      exact ht
  | @deletes id p' value hu hv hne =>
    refine ⟨fun id hid => .inl hid, fun hun => ?_, fun t ht => ?_, ⟨trivial, trivial⟩, hp⟩
    · exact absurd hun (hsettled value hu hv)
    · rw [hs, hv] at ht
      cases p with
      | proposing partner ws2 room => exact absurd rfl (hne partner ws2 room)
      | _ => exact absurd ht (fun h => h)
  | @returns value hu hv hne =>
    refine ⟨fun id hid => .inl hid, fun hun => ?_, fun t ht => ?_, trivial, hp⟩
    · exact absurd hun (hsettled value hu hv)
    · rw [hs, hv] at ht
      cases p with
      | proposing partner ws2 room => exact absurd rfl (hne partner ws2 room)
      | _ => exact absurd ht (fun h => h)

theorem attends_event {room : String} {st' : State} {t : Turn EventPoint}
    (h : Rejecting room st' t) (hw : ∀ id ∈ st.waitingUsers, id ∈ st'.waitingUsers)
    (hm : st'.matchingCandidates = st.matchingCandidates)
    (hd : ∀ e, t.next = .raises e → conn.Departs st action) (hs : ¬ conn.status.Unsettled)
    (hann : ∀ t, ¬ conn.status.Announces t) (hp : st.Paired) :
    Attends ws conn st action (settle conn.user.id ws .event t) := by
  obtain ⟨hwaiting, hrooms, hraises, hreg⟩ := h
  obtain ⟨st'', effects, next⟩ := t
  have hkept : ∀ id ∈ st.waitingUsers, id ∈ st''.waitingUsers := fun id hid => hwaiting ▸ hw id hid
  have hsub : ∀ e ∈ st''.rooms, e ∈ st.rooms := by
    intro e he
    have hin := hrooms e he
    unfold State.rooms at hin
    rwa [hm] at hin
  cases next with
  | awaits request p =>
    exact ⟨fun id hid => .inl (hkept id hid), fun hu => absurd hu hs,
      fun t ht => absurd ht (hann t), hreg request p rfl, hp.mono hsub⟩
  | returns =>
    exact ⟨fun id hid => .inl (hkept id hid), fun hu => absurd hu hs,
      fun t ht => absurd ht (hann t), trivial, hp.mono hsub⟩
  | raises e =>
    have hdep := hd e rfl
    have hleave : Withdraws conn.user.id st (leave conn.user.id (some e) st'') :=
      (leave_withdraws _).after (fun id hid _ => hkept id hid) hsub
    exact (hleave.with_notes _).attends hdep hann hp

theorem attends_of_reacts (hr : Reacts ws conn st action r) (hreg : conn.status.Regular)
    (hp : st.Paired) (hm : ∀ msg, action = .message msg → ClientMessage msg) :
    Attends ws conn st action r := by
  have hr' := hr
  cases hr with
  | @message msg hs =>
    obtain ⟨room, hrej, hraise⟩ := eventStart_rejecting conn.user.id (hm msg rfl) hp
    refine attends_event hrej (fun _ hid => hid) rfl (fun e he => absurd he (hraise e)) ?_
      (fun t => ?_) hp
    · rw [hs]
      exact id
    · rw [hs]
      exact id
  | hangup hs =>
    exact (leave_withdraws _).attends trivial (fun t => by rw [hs]; exact id) hp
  | serve hs => exact attends_serve hs hreg hp
  | @resume hex drift task reply hs =>
    have hregular : task.Regular := by
      rw [hs] at hreg
      exact hreg
    cases task with
    | connect p => exact attends_connect hs hp hr' (connectResume_pursues hex p reply)
    | event p =>
      obtain ⟨st', hrej, hw, hmatch⟩ := eventResume_rejecting conn.user.id st hregular reply
      refine attends_event hrej hw hmatch (fun e he => ?_) ?_ (fun t => ?_) hp
      · have hout := hrej.raises e he
        rw [hmatch] at hout
        simpa [Conn.Departs, hs] using hout
      · rw [hs]
        exact id
      · rw [hs]
        exact id
    | onExcept p =>
      have hwithdraws : Withdraws conn.user.id st (afterExcept conn.user.id
          (disconnectResume conn.user.id drift p reply st)) :=
        afterExcept_withdraws (disconnectResume_tidies drift p reply)
      refine hwithdraws.attends ?_ (fun t => ?_) hp
      · simp [Conn.Departs, hs]
      · rw [hs]
        exact id
    | onFinally failed p =>
      have htidies : Tidies st (disconnectResume conn.user.id drift p reply st) :=
        disconnectResume_tidies drift p reply
      obtain ⟨hw, hwithdraws⟩ := afterFinally_withdraws conn.user.id failed htidies
      refine ⟨fun id hid => .inl (hw ▸ hid), fun _ => .inl hwithdraws.leaving.unsettled,
        fun t ht => ?_, hwithdraws.regular, hp.mono hwithdraws.rooms⟩
      rw [hs] at ht
      exact absurd ht id

end Reacts

end Nalang.Matchmaking
