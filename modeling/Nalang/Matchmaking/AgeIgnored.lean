import Nalang.Accounts.RefreshTokens
import Nalang.Matchmaking.Calls
import Nalang.Matchmaking.Commands
import Nalang.Profiles.Images

/-!
# The age filter while nobody has a birth date

`create_user` gives no `birth_date`, and no other statement of the server writes
the column. So the bounds that a browser sends with its connects are stored, read
and tested in vain: the server does the same without them.
-/

namespace Nalang.Accounts

/-! ### The column -/

def Users.Undated (t : Users) : Prop := ∀ user ∈ t.rows, user.birthDate = none

theorem undated_obtains {t t' : Users} {account : Account} {user : User} (h : t.Undated)
    (hobt : Obtains t account user t') : t'.Undated := by
  cases hobt with
  | found _ => exact h
  | added _ _ _ hnone hrows =>
    intro u hu
    rw [hrows] at hu
    rcases List.mem_append.mp hu with hu | hu
    · exact h u hu
    · rw [List.mem_singleton.mp hu]
      exact hnone

/-- No sign-up and no login puts a birth date into the table. -/
theorem undated_handle {env : Env} {st st' : State} {req : Request} {answer : Answer}
    (h : st.users.Undated) (hhandle : handle env st req = (answer, st')) : st'.users.Undated := by
  have heffect := effect_of_handle env st req
  rw [hhandle] at heffect
  cases heffect with
  | refused _ hrows =>
    intro u hu
    exact h u (hrows ▸ hu)
  | tokenless _ hobt _ => exact undated_obtains h hobt
  | registers _ _ hobt _ => exact undated_obtains h hobt
  | signsIn _ _ hobt _ => exact undated_obtains h hobt
  | refreshes _ => exact h
  | logsOut => exact h
  | elapses => exact h

theorem undated_updateImage {t : Users} (h : t.Undated) (id : ℕ) (url : String) :
    (Profiles.updateImage t id url).Undated := by
  intro u hu
  obtain ⟨old, hold, rfl⟩ := List.mem_map.mp hu
  unfold Profiles.withImage
  split_ifs
  · exact h old hold
  · exact h old hold

end Nalang.Accounts

namespace Nalang.Matchmaking
open Python Transition

/-! ### Dropping the bounds -/

def Filters.ageless (f : Filters) : Filters := { f with minAge := none, maxAge := none }

def CallRecord.ageless (r : CallRecord) : CallRecord := { r with filters := r.filters.ageless }

def QueryParams.ageless (q : QueryParams) : QueryParams :=
  ⟨q.items.filter fun item => item.1 ≠ "filter_min_age" ∧ item.1 ≠ "filter_max_age"⟩

def State.ageless (st : State) : State :=
  { st with redis := ⟨fun id => (st.redis.slot id).map fun x => (x.1.ageless, x.2)⟩ }

def Request.ageless : Request → Request
  | .redisSet id record => .redisSet id record.ageless
  | request => request

def Reply.ageless (reply : Reply) : Reply := reply.map (Option.map CallRecord.ageless)

def Next.ageless {π : Type} : Next π → Next π
  | .awaits request p => .awaits request.ageless p
  | next => next

def Turn.ageless {π : Type} (t : Turn π) : Turn π := ⟨t.state.ageless, t.effects, t.next.ageless⟩

def Status.ageless : Status → Status
  | .waiting task request => .waiting task request.ageless
  | .ready task reply => .ready task (Reply.ageless reply)
  | status => status

def Conn.ageless (conn : Conn) : Conn := ⟨conn.user, conn.query.ageless, conn.status.ageless⟩

def Reaction.ageless (r : Reaction) : Reaction := ⟨r.state.ageless, r.status.ageless, r.notes⟩

def Sys.ageless (sys : Sys) : Sys :=
  ⟨sys.state.ageless, sys.conns.mapValues Conn.ageless, sys.log⟩

def Label.ageless : Label → Label
  | .connect ws user query => .connect ws user query.ageless
  | l => l

theorem get_ageless_of_ne (q : QueryParams) {name : String} (hmin : name ≠ "filter_min_age")
    (hmax : name ≠ "filter_max_age") : q.ageless.get name = q.get name := by
  unfold QueryParams.get QueryParams.ageless
  rw [← List.filter_reverse, List.find?_filter]
  congr 2
  funext item
  by_cases h : item.1 = name
  · simp [h, hmin, hmax]
  · simp [h]

theorem get_ageless_bound (q : QueryParams) {name : String}
    (h : name = "filter_min_age" ∨ name = "filter_max_age") : q.ageless.get name = none := by
  unfold QueryParams.get QueryParams.ageless
  rw [Option.map_eq_none_iff, List.find?_eq_none]
  intro item hitem
  have hname := (List.mem_filter.mp (List.mem_reverse.mp hitem)).2
  rcases h with rfl | rfl
  · simp_all
  · simp_all

theorem filters_ageless (q : QueryParams) : q.ageless.filters = q.filters.ageless := by
  unfold QueryParams.filters Filters.ageless
  rw [get_ageless_of_ne q (by decide) (by decide), get_ageless_of_ne q (by decide) (by decide),
    get_ageless_bound q (.inl rfl), get_ageless_bound q (.inr rfl)]

theorem recordOf_ageless (user : User) (q : QueryParams) :
    recordOf user q.ageless = (recordOf user q).ageless := by
  unfold recordOf CallRecord.ageless
  rw [filters_ageless]

@[simp] theorem getRecord_ageless (st : State) (id : UserId) :
    st.ageless.getRecord id = (st.getRecord id).map CallRecord.ageless := by
  unfold State.getRecord State.ageless ExpiringStore.get
  cases h : st.redis.slot id with
  | none => simp [h]
  | some x =>
    by_cases hlive : st.clock.now < x.2
    · simp [h, hlive]
    · simp [h, hlive]

theorem setRecord_ageless (st : State) (id : UserId) (r : CallRecord) :
    st.ageless.setRecord id r.ageless = (st.setRecord id r).ageless := by
  unfold State.setRecord State.ageless ExpiringStore.set
  congr 2
  funext id'
  by_cases h : id' = id
  · subst h
    simp
  · simp [h]

theorem deleteRecord_ageless (st : State) (id : UserId) :
    st.ageless.deleteRecord id = (st.deleteRecord id).ageless := by
  unfold State.deleteRecord State.ageless ExpiringStore.delete
  congr 2
  funext id'
  by_cases h : id' = id
  · subst h
    simp
  · simp [h]

/-! ### Users without a birth date -/

structure Conn.Undated (conn : Conn) : Prop where
  user : conn.user.birthDate = none
  request : ∀ task id record, conn.status = .waiting task (.redisSet id record) →
    record.user.birthDate = none
  reply : ∀ task record, conn.status = .ready task (.ok (some record)) →
    record.user.birthDate = none

/-- Nobody who is connected or whose record is in Redis or on its way has a birth date. -/
structure Sys.Undated (sys : Sys) : Prop where
  slots : ∀ id x, sys.state.redis.slot id = some x → x.1.user.birthDate = none
  conns : ∀ ws conn, sys.conns.get? ws = some conn → conn.Undated

def Label.Undated : Label → Prop
  | .connect _ user _ => user.birthDate = none
  | _ => True

theorem userData_undated {user : User} (h : user.birthDate = none) :
    user.userData.birthDate = none := by
  simp [User.userData, h]

theorem isMatch_ageless {today : Date} {userData : UserData} {filters : Filters}
    (h : userData.birthDate = none) :
    isMatch today userData filters.ageless = isMatch today userData filters := by
  have hage : ∀ f, ageRefused today userData f = false := by
    intro f
    unfold ageRefused
    rw [h]
    rfl
  unfold isMatch
  rw [hage, hage]
  rfl

theorem mutualMatch_ageless (today : Date) {other : CallRecord} {userData : UserData}
    (ho : other.user.birthDate = none) (hu : userData.birthDate = none) (filters : Filters) :
    mutualMatch today other.ageless userData filters.ageless =
      mutualMatch today other userData filters := by
  unfold mutualMatch CallRecord.ageless
  rw [isMatch_ageless ho, isMatch_ageless hu]

/-! ### The handlers do the same -/

section Connect
variable {ws : Socket} {user : User} {st : State}

theorem connectScan_ageless (es : List (UserId × Socket)) :
    connectScan ws user st.ageless es = (connectScan ws user st es).ageless := by
  induction es with
  | nil => rfl
  | cons e es ih =>
    unfold connectScan
    split_ifs
    · exact ih
    · rfl

theorem connectClaim_ageless (hex : String) (partner : UserId) :
    connectClaim hex ws user st.ageless partner =
      (connectClaim hex ws user st partner).ageless := by
  have hw : st.ageless.waitingUsers = st.waitingUsers := rfl
  unfold connectClaim
  rw [hw]
  cases st.waitingUsers.get? partner <;> rfl

theorem connectResume_ageless (hex : String) (query : QueryParams) (p : ConnectPoint)
    {reply : Reply} (hu : user.birthDate = none)
    (hr : ∀ record, reply = .ok (some record) → record.user.birthDate = none) :
    connectResume hex ws user query.ageless p (Reply.ageless reply) st.ageless =
      (connectResume hex ws user query p reply st).ageless := by
  cases reply with
  | error e => rfl
  | ok value =>
    cases p with
    | storing => exact connectScan_ageless _
    | reading otherId rest =>
      cases value with
      | none => exact connectScan_ageless rest
      | some parsed =>
        have hm := mutualMatch_ageless st.clock.today (hr parsed rfl)
          (userData_undated hu) query.filters
        have hclock : st.ageless.clock = st.clock := rfl
        unfold connectResume
        dsimp only [Reply.ageless, Except.map, Option.map_some]
        rw [filters_ageless, hclock, hm]
        cases mutualMatch st.clock.today parsed user.userData query.filters with
        | error e => rfl
        | ok b =>
          cases b with
          | true => exact connectClaim_ageless hex otherId
          | false => exact connectScan_ageless rest
    | proposing partner ws2 room => rfl
    | proposingPartner partner => rfl
    | deleting partner => rfl
    | deletingPartner => rfl

end Connect

section Event
variable (userId : UserId) (st : State)

theorem deleteRoom_ageless (room : String) :
    deleteRoom st.ageless room = (deleteRoom st room).ageless := by
  have hm : st.ageless.matchingCandidates = st.matchingCandidates := rfl
  unfold deleteRoom
  rw [hm]
  split_ifs <;> rfl

theorem matchNext_ageless (room : String) (socks : List Socket) :
    matchNext room st.ageless socks = (matchNext room st socks).ageless := by
  cases socks with
  | nil => exact deleteRoom_ageless st room
  | cons sock socks => rfl

theorem rejectNext_ageless (room : String) (sockets : List Socket) (idx : ℕ) (uids : List UserId) :
    rejectNext userId room sockets st.ageless idx uids =
      (rejectNext userId room sockets st idx uids).ageless := by
  induction uids generalizing idx with
  | nil => exact deleteRoom_ageless st room
  | cons uid uids ih =>
    unfold rejectNext
    split_ifs
    · cases sockets[idx]? <;> rfl
    · exact ih (idx + 1)

theorem acceptStart_ageless (room : String) (data : MatchCandidate) :
    acceptStart userId room data st.ageless = (acceptStart userId room data st).ageless := by
  unfold acceptStart
  dsimp only
  split_ifs
  · have hnext := matchNext_ageless { st with matchingCandidates := (st.matchingCandidates.set room
      { data with accepted := insert userId data.accepted }) } room data.sockets
    exact congrArg (fun t : Turn EventPoint =>
      { t with effects := .accepted room userId :: t.effects }) hnext
  · rfl

theorem eventStart_ageless (msg : Json) :
    eventStart userId msg st.ageless = (eventStart userId msg st).ageless := by
  have hm : st.ageless.matchingCandidates = st.matchingCandidates := rfl
  unfold eventStart
  rw [hm]
  rcases msg.get "event" with e | event
  · rfl
  rcases msg.get "room" with e | room
  · rfl
  dsimp only
  split_ifs
  swap
  · rfl
  rcases room.asRoomKey with e | key
  · rfl
  cases key with
  | none => rfl
  | some room =>
    dsimp only
    cases st.matchingCandidates.get? room with
    | none => rfl
    | some data =>
      dsimp only
      unfold roomEventStart
      split
      · rfl
      · exact acceptStart_ageless userId st room data
      · exact rejectNext_ageless userId st room data.sockets 0 data.userIds
      · rfl

theorem eventResume_ageless (p : EventPoint) (reply : Reply) :
    eventResume userId p (Reply.ageless reply) st.ageless =
      (eventResume userId p reply st).ageless := by
  cases p with
  | matching room rest =>
    cases reply with
    | error e => rfl
    | ok value => exact matchNext_ageless st room rest
  | rejecting room sockets uid sock idx rest =>
    cases reply with
    | error e => exact rejectNext_ageless userId st room sockets idx rest
    | ok value =>
      have hnext := rejectNext_ageless userId (requeue st uid sock) room sockets idx rest
      exact congrArg (fun t : Turn EventPoint =>
        { t with effects := .requeued room uid sock :: t.effects }) hnext

end Event

section Disconnect
variable (userId : UserId) (st : State)

theorem disconnectRemove_ageless (rs : List String) :
    disconnectRemove userId st.ageless rs = (disconnectRemove userId st rs).ageless := by
  induction rs generalizing st with
  | nil => rfl
  | cons r rs ih =>
    have hm : st.ageless.matchingCandidates = st.matchingCandidates := rfl
    unfold disconnectRemove
    rw [hm]
    split_ifs
    · exact ih { st with matchingCandidates := st.matchingCandidates.erase r }
    · rfl

theorem notifyNext_ageless (room : String) (cursor : OrderedDict.Cursor String)
    (toRemove : List String) (socks : List Socket) :
    notifyNext userId st.ageless room cursor toRemove socks =
      (notifyNext userId st room cursor toRemove socks).ageless := by
  cases socks <;> rfl

theorem disconnectScan_ageless (cursor : OrderedDict.Cursor String) (fails : Bool)
    (keys toRemove : List String) :
    disconnectScan userId st.ageless cursor fails keys toRemove =
      (disconnectScan userId st cursor fails keys toRemove).ageless := by
  induction keys generalizing toRemove with
  | nil =>
    unfold disconnectScan
    split_ifs
    · rfl
    · exact disconnectRemove_ageless userId st toRemove
  | cons room keys ih =>
    have hm : st.ageless.matchingCandidates = st.matchingCandidates := rfl
    have he : st.ageless.enteredUsers = st.enteredUsers := rfl
    unfold disconnectScan
    rw [hm, he]
    cases st.matchingCandidates.get? room with
    | none => exact ih toRemove
    | some data =>
      dsimp only
      split_ifs
      · exact ih _
      · exact notifyNext_ageless userId st room _ toRemove data.sockets
      · exact ih toRemove

theorem disconnectStart_ageless :
    disconnectStart userId st.ageless = (disconnectStart userId st).ageless := by
  have hw : st.ageless.waitingUsers = st.waitingUsers := rfl
  unfold disconnectStart
  rw [hw]
  split_ifs
  · rfl
  · exact disconnectScan_ageless userId st _ _ _ _

theorem disconnectResume_ageless (drift : OrderedDict.Drift String) (p : DisconnectPoint)
    (reply : Reply) :
    disconnectResume userId drift p (Reply.ageless reply) st.ageless =
      (disconnectResume userId drift p reply st).ageless := by
  cases p with
  | notifying room rest cursor toRemove =>
    exact notifyNext_ageless userId st room cursor toRemove rest
  | deletingOwn =>
    cases reply with
    | error e => rfl
    | ok value => exact disconnectScan_ageless userId st _ _ _ _
  | deletingKey room cursor toRemove =>
    cases reply with
    | error e => rfl
    | ok value => exact disconnectScan_ageless userId st _ _ _ _

end Disconnect

/-! ### The connections do the same -/

section Reaction
variable (userId : UserId) (st : State) {ws : Socket} {conn : Conn}

theorem afterFinally_ageless (failed : Option PyError) (t : Turn DisconnectPoint) :
    afterFinally failed t.ageless = (afterFinally failed t).ageless := by
  obtain ⟨st, effects, next⟩ := t
  cases next <;> rfl

theorem afterExcept_ageless (t : Turn DisconnectPoint) :
    afterExcept userId t.ageless = (afterExcept userId t).ageless := by
  obtain ⟨st, effects, next⟩ := t
  have hlast : ∀ failed, afterFinally failed (disconnectStart userId st.ageless) =
      (afterFinally failed (disconnectStart userId st)).ageless := by
    intro failed
    rw [disconnectStart_ageless, afterFinally_ageless]
  cases next with
  | awaits request p => rfl
  | returns => exact hlast none
  | raises e => exact hlast (some e)

theorem leave_ageless (raised : Option PyError) :
    leave userId raised st.ageless = (leave userId raised st).ageless := by
  unfold leave
  rw [disconnectStart_ageless, afterExcept_ageless, afterFinally_ageless]
  split_ifs <;> rfl

theorem settle_ageless {π : Type} (task : π → Task) (t : Turn π) :
    settle userId ws task t.ageless = (settle userId ws task t).ageless := by
  obtain ⟨st, effects, next⟩ := t
  cases next with
  | awaits request p => rfl
  | returns => rfl
  | raises e =>
    have hleave := leave_ageless userId st (some e)
    exact congrArg (fun r : Reaction => { r with notes := Turn.notes ws (Turn.mk st effects
      (.raises e : Next π)) }) hleave

theorem perform_ageless (failure : Option PyError) (request : Request) :
    request.ageless.perform failure st.ageless =
      ((request.perform failure st).1.ageless, Reply.ageless (request.perform failure st).2) := by
  cases request with
  | redisSet id record =>
    change (st.ageless.setRecord id record.ageless, _) = _
    rw [setRecord_ageless]
    rfl
  | redisGet id =>
    change (st.ageless, (.ok (st.ageless.getRecord id) : Reply)) = _
    rw [getRecord_ageless]
    rfl
  | redisDelete id =>
    change (st.ageless.deleteRecord id, _) = _
    rw [deleteRecord_ageless]
    rfl
  | send socket event => cases failure <;> rfl

theorem resumeTask_ageless (hex : String) (drift : OrderedDict.Drift String) {reply : Reply}
    (hu : conn.user.birthDate = none)
    (hr : ∀ record, reply = .ok (some record) → record.user.birthDate = none) (task : Task) :
    resumeTask hex drift ws conn.ageless (Reply.ageless reply) st.ageless task =
      (resumeTask hex drift ws conn reply st task).ageless := by
  cases task with
  | connect p =>
    change settle conn.user.id ws .connect
      (connectResume hex ws conn.user conn.query.ageless p _ _) = _
    rw [connectResume_ageless hex conn.query p hu hr, settle_ageless]
    rfl
  | event p =>
    change settle conn.user.id ws .event (eventResume conn.user.id p _ _) = _
    rw [eventResume_ageless, settle_ageless]
    rfl
  | onExcept p =>
    change afterExcept conn.user.id (disconnectResume conn.user.id drift p _ _) = _
    rw [disconnectResume_ageless, afterExcept_ageless]
    rfl
  | onFinally failed p =>
    change afterFinally failed (disconnectResume conn.user.id drift p _ _) = _
    rw [disconnectResume_ageless, afterFinally_ageless]
    rfl

theorem react_ageless (h : conn.Undated) (action : Action) :
    react ws conn.ageless st.ageless action = (react ws conn st action).map Reaction.ageless := by
  have hu := h.user
  have hreply := h.reply
  obtain ⟨user, query, status⟩ := conn
  cases status with
  | idle =>
    cases action with
    | message msg =>
      change some (settle user.id ws .event (eventStart user.id msg st.ageless)) = _
      rw [eventStart_ageless, settle_ageless]
      rfl
    | hangup =>
      change some (leave user.id none st.ageless) = _
      rw [leave_ageless]
      rfl
    | serve failure => rfl
    | resume hex drift => rfl
  | waiting task request =>
    cases action with
    | message msg => rfl
    | hangup => rfl
    | serve failure =>
      change some (Reaction.mk (request.ageless.perform failure st.ageless).1
        (.ready task (request.ageless.perform failure st.ageless).2)
        (request.ageless.notes ws failure)) = _
      have hnotes : request.ageless.notes ws failure = request.notes ws failure := by
        cases request <;> rfl
      rw [perform_ageless, hnotes]
      rfl
    | resume hex drift => rfl
  | ready task reply =>
    cases action with
    | message msg => rfl
    | hangup => rfl
    | serve failure => rfl
    | resume hex drift =>
      have hr : ∀ record, reply = .ok (some record) → record.user.birthDate = none := by
        rintro record rfl
        exact hreply task record rfl
      exact congrArg some (resumeTask_ageless st hex drift hu hr task)
  | finished failed => cases action <;> rfl

end Reaction

/-! ### Every step -/

section Step
variable {sys sys' : Sys} {l : Label}

theorem step_ageless (h : sys.Undated) (hstep : interleaved.step sys l sys') :
    interleaved.step sys.ageless l.ageless sys'.ageless := by
  cases steps_of_step hstep with
  | @connects ws user query hnew =>
    have hnew' : ¬ ws ∈ sys.ageless.conns := fun hin => hnew (OrderedDict.mem_mapValues.mp hin)
    have hset := OrderedDict.set_mapValues Conn.ageless sys.conns ws
      ⟨user, query, .waiting (.connect .storing) (.redisSet user.id (recordOf user query))⟩
    change sys.ageless.step (.connect ws user query.ageless) = some _
    simp only [Sys.step, hnew', if_false, settle, connectStart, Turn.notes, List.map_nil,
      List.append_nil, Option.some.injEq]
    change Sys.mk _ ((sys.conns.mapValues Conn.ageless).set ws ⟨user, query.ageless,
      .waiting (.connect .storing) (.redisSet user.id (recordOf user query.ageless))⟩) _ = _
    rw [recordOf_ageless]
    exact congrArg (fun conns => Sys.mk sys.state.ageless conns sys.log) hset
  | elapses => rfl
  | @acts ws action conn r hc hr =>
    have hc' : sys.ageless.conns.get? ws = some conn.ageless := by
      change (sys.conns.mapValues Conn.ageless).get? ws = _
      rw [OrderedDict.get?_mapValues, hc]
      rfl
    have hreact : react ws conn.ageless sys.ageless.state action = some r.ageless := by
      rw [show sys.ageless.state = sys.state.ageless from rfl,
        react_ageless sys.state (h.conns ws conn hc), hr]
      rfl
    change sys.ageless.step (.act ws action) = _
    simp only [Sys.step, hc', hreact]
    exact congrArg (fun conns => some (Sys.mk r.state.ageless conns (sys.log ++ r.notes)))
      (OrderedDict.set_mapValues Conn.ageless sys.conns ws { conn with status := r.status })

theorem undated_perform {st : State} {request : Request}
    (h : ∀ id x, st.redis.slot id = some x → x.1.user.birthDate = none) (failure : Option PyError)
    (hreq : ∀ id record, request = .redisSet id record → record.user.birthDate = none) :
    (∀ id x, (request.perform failure st).1.redis.slot id = some x →
      x.1.user.birthDate = none) ∧
      ∀ record, (request.perform failure st).2 = .ok (some record) →
        record.user.birthDate = none := by
  cases request with
  | redisSet id record =>
    refine ⟨fun id' x hx => ?_, fun _ hr => by cases hr⟩
    rcases ExpiringStore.slot_set.mp hx with ⟨_, hx⟩ | ⟨_, rfl⟩
    · exact h id' x hx
    · exact hreq id record rfl
  | redisGet id =>
    refine ⟨h, fun record hr => ?_⟩
    obtain ⟨expiry, hslot⟩ := ExpiringStore.slot_of_get (Except.ok.inj hr)
    exact h id _ hslot
  | redisDelete id =>
    exact ⟨fun id' x hx => h id' x (ExpiringStore.slot_of_delete hx), fun _ hr => by cases hr⟩
  | send socket event =>
    cases failure with
    | none => exact ⟨h, fun _ hr => by cases hr⟩
    | some e => exact ⟨h, fun _ hr => by cases hr⟩

theorem undated_next (h : sys.Undated) (hl : l.Undated) (hstep : interleaved.step sys l sys') :
    sys'.Undated := by
  cases steps_of_step hstep with
  | @connects ws user query hnew =>
    refine ⟨h.slots, fun ws' conn hc => ?_⟩
    rcases OrderedDict.get?_set_eq_some.mp hc with ⟨_, rfl⟩ | ⟨_, hc⟩
    · refine ⟨hl, fun task id record hs => ?_, fun _ _ hs => by cases hs⟩
      cases hs
      exact userData_undated hl
    · exact h.conns ws' conn hc
  | elapses => exact ⟨h.slots, h.conns⟩
  | @acts ws action conn r hc hr =>
    have hconn := h.conns ws conn hc
    -- Redis and the status of the connection are all that a step can change
    have hkeep : (∀ id x, r.state.redis.slot id = some x → x.1.user.birthDate = none) →
        ({ conn with status := r.status } : Conn).Undated → (sys.reacted ws conn r).Undated := by
      intro hslots hnew
      refine ⟨hslots, fun ws' conn' hc' => ?_⟩
      obtain ⟨rfl, rfl⟩ | ⟨_, hc'⟩ := get?_reacted.mp hc'
      · exact hnew
      · exact h.conns ws' conn' hc'
    by_cases hserve : ∃ failure, action = .serve failure
    · obtain ⟨failure, rfl⟩ := hserve
      cases reacts_of_react hr with
      | @serve failure task request hs =>
        have hperform := undated_perform h.slots failure
          fun id record he => hconn.request task id record (he ▸ hs)
        refine hkeep hperform.1 ⟨hconn.user, fun _ _ _ hs' => ?_, fun task' record hs' => ?_⟩
        · cases hs'
        · exact hperform.2 record (Status.ready.inj hs').2
    · have htame := tame_of_reacts (reacts_of_react hr) fun failure ha => hserve ⟨failure, ha⟩
      refine hkeep (fun id x hx => h.slots id x (htame.redis ▸ hx)) ⟨hconn.user, ?_, ?_⟩
      · exact fun task id record hs => absurd hs (htame.request task id record)
      · exact fun task record hs => absurd hs (htame.unserved task _)

end Step

/-! ### The matchmaking beside the accounts -/

/-- The row as `handle_connect` loads it, with the ids of its links. -/
def loaded (u : Accounts.User) (hpos : 0 < u.id) (genderLinks languageLinks : List ℤ) : User :=
  ⟨⟨u.id, hpos⟩, genderLinks, languageLinks, u.birthDate⟩

structure Host where
  accounts : Accounts.State
  matchmaking : Sys

def Host.ageless (s : Host) : Host := { s with matchmaking := s.matchmaking.ageless }

/-- A request to the accounts with its answer, the commit of a new profile image, or a step of the
matchmaking with what it notes. -/
inductive HostLabel
  | auth (req : Accounts.Request) (answer : Accounts.Answer)
  | image (id : ℕ) (url : String)
  | work (l : Label) (notes : List Note)

def HostLabel.ageless : HostLabel → HostLabel
  | .work l notes => .work l.ageless notes
  | l => l

def FromTable (users : Accounts.Users) : Label → Prop
  | .connect _ user _ => ∃ u ∈ users.rows, ∃ hpos genderLinks languageLinks,
      user = loaded u hpos genderLinks languageLinks
  | _ => True

inductive HostStep (env : Accounts.Env) (s : Host) : HostLabel → Host → Prop
  | auth {req : Accounts.Request} {answer : Accounts.Answer} {accounts : Accounts.State}
      (h : Accounts.handle env s.accounts req = (answer, accounts)) :
      HostStep env s (.auth req answer) { s with accounts := accounts }
  | image {id : ℕ} {url : String} :
      HostStep env s (.image id url) { s with accounts := { s.accounts with
        users := Profiles.updateImage s.accounts.users id url } }
  | work {l : Label} {notes : List Note} {sys : Sys} (hfrom : FromTable s.accounts.users l)
      (h : interleaved.step s.matchmaking l sys) (hlog : sys.log = s.matchmaking.log ++ notes) :
      HostStep env s (.work l notes) { s with matchmaking := sys }

def host (env : Accounts.Env) : Lts Host HostLabel := ⟨HostStep env⟩

structure Host.Undated (s : Host) : Prop where
  users : s.accounts.users.Undated
  matchmaking : s.matchmaking.Undated

theorem FromTable.undated {users : Accounts.Users} {l : Label} (h : FromTable users l)
    (hu : users.Undated) : l.Undated := by
  cases l with
  | connect ws user query =>
    obtain ⟨u, hmem, _, _, _, rfl⟩ := h
    exact hu u hmem
  | act ws action => trivial
  | elapse seconds today => trivial

theorem FromTable.ageless {users : Accounts.Users} {l : Label} (h : FromTable users l) :
    FromTable users l.ageless := by
  cases l with
  | connect ws user query => exact h
  | act ws action => trivial
  | elapse seconds today => trivial

section Host
variable {env : Accounts.Env} {s s' : Host} {l : HostLabel}

theorem host_undated (h : s.Undated) (hstep : (host env).step s l s') : s'.Undated := by
  cases hstep with
  | auth hhandle => exact ⟨Accounts.undated_handle h.users hhandle, h.matchmaking⟩
  | image => exact ⟨Accounts.undated_updateImage h.users _ _, h.matchmaking⟩
  | work hfrom hnext _ =>
    exact ⟨h.users, undated_next h.matchmaking (hfrom.undated h.users) hnext⟩

theorem host_ageless (h : s.Undated) (hstep : (host env).step s l s') :
    (host env).step s.ageless l.ageless s'.ageless := by
  cases hstep with
  | auth hhandle => exact .auth hhandle
  | image => exact .image
  | work hfrom hnext hlog =>
    exact HostStep.work (s := s.ageless) hfrom.ageless (step_ageless h.matchmaking hnext) hlog

/-- From a table in which nobody has a birth date nobody gets one, and every run of the server is,
answer by answer and note by note, also the run in which no query string has an age bound. -/
theorem age_bounds_without_effect {accounts : Accounts.State} {clock : Clock} {ls : List HostLabel}
    (hundated : accounts.users.Undated)
    (hr : (host env).Run ⟨accounts, Sys.initial clock⟩ ls s) :
    s.accounts.users.Undated ∧ (host env).Run ⟨accounts, Sys.initial clock⟩
      (ls.map HostLabel.ageless) s.ageless := by
  have h₀ : Host.Undated ⟨accounts, Sys.initial clock⟩ := by
    refine ⟨hundated, ⟨fun _ _ hx => ?_, fun _ _ hc => ?_⟩⟩
    · cases hx
    · cases hc
  have hkeep : ∀ s l s', Host.Undated s → (host env).step s l s' → Host.Undated s' :=
    fun _ _ _ => host_undated
  exact ⟨(hr.invariant Host.Undated h₀ hkeep).users,
    hr.maps Host.Undated h₀ hkeep fun _ _ _ => host_ageless⟩

end Host

def HostLabel.worked : HostLabel → Option Label
  | .work l _ => some l
  | _ => none

theorem host_of_interleaved (env : Accounts.Env) {accounts : Accounts.State} {sys₀ sys : Sys}
    {ls : List Label}
    (hr : (interleaved.guard fun _ l => FromTable accounts.users l).Run sys₀ ls sys) :
    ∃ hls, (host env).Run ⟨accounts, sys₀⟩ hls ⟨accounts, sys⟩ ∧
      hls.filterMap HostLabel.worked = ls := by
  induction hr with
  | nil => exact ⟨[], .nil, rfl⟩
  | @snoc ls sys sys' l _ hs ih =>
    obtain ⟨hls, hrun, hls'⟩ := ih
    obtain ⟨notes, hlog⟩ := log_of_step hs.2
    have hstep : (host env).step ⟨accounts, sys⟩ (.work l notes) ⟨accounts, sys'⟩ :=
      HostStep.work (s := ⟨accounts, sys⟩) hs.1 hs.2 hlog
    refine ⟨hls ++ [.work l notes], hrun.snoc hstep, ?_⟩
    rw [List.filterMap_append, hls']
    rfl

/-! ### Two users who ask for adults -/

def signsUp (email : Accounts.EmailStr) : Accounts.Request :=
  .register "salt" { Accounts.kimsForm with email := email }

def oneSignedUp : Accounts.State :=
  (Accounts.handle Accounts.plainEnv Accounts.start (signsUp Accounts.kimsEmail)).2

def bothSignedUp : Accounts.State :=
  (Accounts.handle Accounts.plainEnv oneSignedUp (signsUp Accounts.leesEmail)).2

def signUps : List HostLabel :=
  [.auth (signsUp Accounts.kimsEmail)
    (Accounts.handle Accounts.plainEnv Accounts.start (signsUp Accounts.kimsEmail)).1,
  .auth (signsUp Accounts.leesEmail)
    (Accounts.handle Accounts.plainEnv oneSignedUp (signsUp Accounts.leesEmail)).1]

def adults : QueryParams := ⟨[("filter_min_age", "18")]⟩

def guestsConnect : List Label :=
  .connect ⟨1⟩ (.plain (.of 0)) .empty :: [Action.serve none, .goesOn].map (.act ⟨1⟩) ++
  .connect ⟨2⟩ (.plain (.of 1)) adults ::
    [Action.serve none, .goesOn, .serve none, .goesOn].map (.act ⟨2⟩)

theorem guestsConnect_fromTable : ∀ l ∈ guestsConnect, FromTable bothSignedUp.users l := by
  obtain ⟨u, v, hrows, ⟨hu, hplain₁⟩, ⟨hv, hplain₂⟩⟩ : ∃ u v, bothSignedUp.users.rows = [u, v] ∧
      (∃ hpos, loaded u hpos [] [] = .plain (.of 0)) ∧
      ∃ hpos, loaded v hpos [] [] = .plain (.of 1) :=
    ⟨_, _, rfl, ⟨Nat.one_pos, rfl⟩, ⟨Nat.two_pos, rfl⟩⟩
  intro l hl
  cases l with
  | connect ws user query =>
    have huser : user = .plain (.of 0) ∨ user = .plain (.of 1) := by
      simp [guestsConnect] at hl
      exact hl.imp (fun h => h.2.1) fun h => h.2.1
    rcases huser with rfl | rfl
    · exact ⟨u, hrows ▸ List.mem_cons_self, hu, [], [], hplain₁.symm⟩
    · exact ⟨v, hrows ▸ List.mem_cons_of_mem _ List.mem_cons_self, hv, [], [], hplain₂.symm⟩
  | act ws action => trivial
  | elapse seconds today => trivial

theorem age_bounds_without_effect_applied : ∃ ls sys,
    (host Accounts.plainEnv).Run ⟨Accounts.start, .initial .start⟩ (signUps ++ ls)
        ⟨bothSignedUp, sys⟩ ∧
      ls.filterMap HostLabel.worked = guestsConnect ∧
      .did ⟨2⟩ (.claimed (.of 1) (.of 0) ⟨1⟩ (roomName (.of 1) (.of 0) "b")) ∈ sys.log ∧
      adults.ageless = .empty ∧ bothSignedUp.users.Undated ∧
      (host Accounts.plainEnv).Run ⟨Accounts.start, .initial .start⟩
        ((signUps ++ ls).map HostLabel.ageless) ⟨bothSignedUp, sys.ageless⟩ := by
  obtain ⟨sys, hsys, hlog⟩ : ∃ sys,
      Lts.exec Sys.step (.initial .start) guestsConnect = some sys ∧
      sys.log = [.did ⟨1⟩ (.registered (.of 0) ⟨1⟩),
        .did ⟨2⟩ (.claimed (.of 1) (.of 0) ⟨1⟩ (roomName (.of 1) (.of 0) "b"))] :=
    ⟨_, rfl, rfl⟩
  have hwork := Lts.Run.guard_labels (T := interleaved) (Lts.run_of_exec hsys)
    guestsConnect_fromTable
  obtain ⟨ls, hrun, hls⟩ := host_of_interleaved Accounts.plainEnv hwork
  have hsign : (host Accounts.plainEnv).Run ⟨Accounts.start, .initial .start⟩ signUps
      ⟨bothSignedUp, .initial .start⟩ :=
    .cons (.auth rfl) (.single (.auth rfl))
  have hall := hsign.append hrun
  have hundated : Accounts.start.users.Undated := fun _ hu => by cases hu
  have h := age_bounds_without_effect hundated hall
  exact ⟨ls, sys, hall, hls, by rw [hlog]; simp, rfl, h.1, h.2⟩

end Nalang.Matchmaking
