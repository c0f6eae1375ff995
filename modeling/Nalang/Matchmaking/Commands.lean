import Nalang.Matchmaking.Interleaving

/-!
# What happens between two commands

Only the start of a connect stores a record. What runs between two `await`s leaves Redis and the
clock alone, and takes from the queue its own user, or the one whose record it has got.
-/

namespace Nalang.Matchmaking
open Python

/-- `found` is the user whose record the code has just got. -/
structure Turn.Tame {π : Type} (userId : UserId) (found : Option UserId) (st : State) (t : Turn π) :
    Prop where
  redis : t.state.redis = st.redis
  clock : t.state.clock = st.clock
  request : ∀ id record p, t.next ≠ .awaits (.redisSet id record) p
  waiting : ∀ id ∈ st.waitingUsers, id ∈ t.state.waitingUsers ∨ id = userId ∨ found = some id
  claims : ∀ id partner ws2 room, .claimed id partner ws2 room ∈ t.effects → found = some partner

def ConnectPoint.found : ConnectPoint → Reply → Option UserId
  | .reading otherId _, .ok (some _) => some otherId
  | _, _ => none

theorem ConnectPoint.found_eq_some {p : ConnectPoint} {reply : Reply} {id : UserId}
    (h : p.found reply = some id) :
    ∃ rest record, p = .reading id rest ∧ reply = .ok (some record) := by
  unfold ConnectPoint.found at h
  split at h
  · cases h
    exact ⟨_, _, rfl, rfl⟩
  · cases h

section Tame
variable {π : Type} {userId : UserId} {found : Option UserId} {st : State} {ws : Socket}
  {user : User}

theorem tame_awaits {request : Request} (p : π) (h : ∀ id record, request ≠ .redisSet id record) :
    Turn.Tame userId found st ⟨st, [], .awaits request p⟩ where
  redis := rfl
  clock := rfl
  request id record _ hn := by
    cases hn
    exact h id record rfl
  waiting _ hid := .inl hid
  claims _ _ _ _ hc := absurd hc List.not_mem_nil

theorem tame_ends {next : Next π} (h : ∀ request p, next ≠ .awaits request p) :
    Turn.Tame userId found st ⟨st, [], next⟩ where
  redis := rfl
  clock := rfl
  request _ _ p := h _ p
  waiting _ hid := .inl hid
  claims _ _ _ _ hc := absurd hc List.not_mem_nil

theorem tame_returns : Turn.Tame userId found st (⟨st, [], .returns⟩ : Turn π) :=
  tame_ends fun _ _ h => by cases h

theorem tame_raises (e : PyError) : Turn.Tame userId found st (⟨st, [], .raises e⟩ : Turn π) :=
  tame_ends fun _ _ h => by cases h

theorem Turn.Tame.after {st' : State} {t : Turn π} (h : t.Tame userId found st')
    (hredis : st'.redis = st.redis) (hclock : st'.clock = st.clock)
    (hwait : ∀ id ∈ st.waitingUsers, id ∈ st'.waitingUsers ∨ id = userId) :
    t.Tame userId found st where
  redis := h.redis.trans hredis
  clock := h.clock.trans hclock
  request := h.request
  waiting id hid := by
    rcases hwait id hid with hid | hid
    · exact h.waiting id hid
    · exact .inr (.inl hid)
  claims := h.claims

theorem Turn.Tame.with_effect {t : Turn π} (h : t.Tame userId found st) (effect : Effect)
    (heffect : ∀ id partner ws2 room, effect ≠ .claimed id partner ws2 room) :
    ({ t with effects := effect :: t.effects } : Turn π).Tame userId found st where
  redis := h.redis
  clock := h.clock
  request := h.request
  waiting := h.waiting
  claims id partner ws2 room hc := by
    rcases List.mem_cons.mp hc with he | hc
    · exact absurd he.symm (heffect id partner ws2 room)
    · exact h.claims id partner ws2 room hc

/-! ### `handle_connect` -/

theorem connectScan_tame (es : List (UserId × Socket)) :
    (connectScan ws user st es).Tame user.id found st := by
  induction es with
  | nil =>
    exact {
      redis := rfl
      clock := rfl
      request := fun _ _ _ hn => by cases hn
      waiting := fun id hid => .inl (OrderedDict.mem_set.mpr (.inr hid))
      claims := fun _ _ _ _ hc => by simp [connectScan] at hc }
  | cons e es ih =>
    unfold connectScan
    split_ifs with hself
    · exact ih
    · exact tame_awaits _ (fun _ _ h => by cases h)

theorem connectClaim_tame (hex : String) (partner : UserId) :
    (connectClaim hex ws user st partner).Tame user.id (some partner) st := by
  unfold connectClaim
  cases st.waitingUsers.get? partner with
  | none => exact tame_raises _
  | some ws2 =>
    exact {
      redis := rfl
      clock := rfl
      request := fun _ _ _ hn => by simp at hn
      waiting := by
        intro id hid
        by_cases hp : id = partner
        · exact .inr (.inr (congrArg some hp.symm))
        · exact .inl (OrderedDict.mem_erase.mpr ⟨hp, hid⟩)
      claims := fun _ _ _ _ hc => by simp_all }

theorem connectResume_tame (hex : String) (query : QueryParams) (p : ConnectPoint)
    (reply : Reply) :
    (connectResume hex ws user query p reply st).Tame user.id (p.found reply) st := by
  unfold connectResume
  cases reply with
  | error e => exact tame_raises e
  | ok value =>
    cases p with
    | storing => exact connectScan_tame _
    | reading otherId rest =>
      cases value with
      | none => exact connectScan_tame rest
      | some parsed =>
        dsimp only
        cases mutualMatch st.clock.today parsed user.userData query.filters with
        | error e => exact tame_raises e
        | ok b =>
          cases b with
          | true => exact connectClaim_tame hex otherId
          | false => exact connectScan_tame rest
    | proposing partner ws2 room => exact tame_awaits _ (fun _ _ h => by cases h)
    | proposingPartner partner => exact tame_awaits _ (fun _ _ h => by cases h)
    | deleting partner => exact tame_awaits _ (fun _ _ h => by cases h)
    | deletingPartner => exact tame_returns

theorem connectScan_reads {es rest : List (UserId × Socket)} {request : Request} {otherId : UserId}
    (h : (connectScan ws user st es).next = .awaits request (.reading otherId rest)) :
    request = .redisGet otherId := by
  induction es with
  | nil => cases h
  | cons e es ih =>
    unfold connectScan at h
    split_ifs at h with hself
    · exact ih h
    · cases h
      rfl

theorem connectResume_reads {hex : String} {query : QueryParams} {p : ConnectPoint} {reply : Reply}
    {rest : List (UserId × Socket)} {request : Request} {otherId : UserId}
    (h : (connectResume hex ws user query p reply st).next =
      .awaits request (.reading otherId rest)) : request = .redisGet otherId := by
  unfold connectResume at h
  cases reply with
  | error e => cases h
  | ok value =>
    cases p with
    | storing => exact connectScan_reads h
    | reading otherId' rest' =>
      cases value with
      | none => exact connectScan_reads h
      | some parsed =>
        dsimp only at h
        cases hm : mutualMatch st.clock.today parsed user.userData query.filters with
        | error e =>
          rw [hm] at h
          cases h
        | ok b =>
          rw [hm] at h
          cases b with
          | false => exact connectScan_reads h
          | true =>
            dsimp only [connectClaim] at h
            cases hg : st.waitingUsers.get? otherId' with
            | none =>
              rw [hg] at h
              cases h
            | some ws2 =>
              rw [hg] at h
              cases h
    | proposing partner ws2 room => cases h
    | proposingPartner partner => cases h
    | deleting partner => cases h
    | deletingPartner => cases h

/-! ### `handle_receive_event` -/

theorem deleteRoom_tame (room : String) : (deleteRoom st room).Tame userId none st := by
  unfold deleteRoom
  split_ifs
  · exact Turn.Tame.after tame_returns rfl rfl fun _ hid => .inl hid
  · exact tame_raises _

theorem matchNext_tame (room : String) (socks : List Socket) :
    (matchNext room st socks).Tame userId none st := by
  cases socks with
  | nil => exact deleteRoom_tame room
  | cons sock socks => exact tame_awaits _ (fun _ _ h => by cases h)

theorem rejectNext_tame (room : String) (sockets : List Socket) (idx : ℕ) (uids : List UserId) :
    (rejectNext userId room sockets st idx uids).Tame userId none st := by
  induction uids generalizing idx with
  | nil => exact deleteRoom_tame room
  | cons uid uids ih =>
    unfold rejectNext
    split_ifs
    · cases sockets[idx]? with
      | none => exact tame_raises _
      | some sock => exact tame_awaits _ (fun _ _ h => by cases h)
    · exact ih (idx + 1)

theorem acceptStart_tame (room : String) (data : MatchCandidate) :
    (acceptStart userId room data st).Tame userId none st := by
  have haccepted : ∀ id partner ws2 room', Effect.accepted room userId ≠
      .claimed id partner ws2 room' := fun _ _ _ _ h => by cases h
  unfold acceptStart
  dsimp only
  split_ifs
  · apply Turn.Tame.with_effect _ _ haccepted
    exact (matchNext_tame room _).after rfl rfl fun _ hid => .inl hid
  · apply Turn.Tame.with_effect (t := ⟨_, [], .returns⟩) _ _ haccepted
    exact Turn.Tame.after tame_returns rfl rfl fun _ hid => .inl hid

theorem eventStart_tame (msg : Json) : (eventStart userId msg st).Tame userId none st := by
  unfold eventStart
  split
  · exact tame_raises _
  · exact tame_raises _
  · split_ifs
    swap
    · exact tame_raises _
    split
    · exact tame_raises _
    · exact tame_returns
    · split
      · exact tame_returns
      · rename_i data _
        unfold roomEventStart
        split
        · exact Turn.Tame.after tame_returns rfl rfl fun _ hid => .inl hid
        · exact acceptStart_tame _ data
        · exact rejectNext_tame _ _ _ _
        · exact tame_returns

theorem eventResume_tame (p : EventPoint) (reply : Reply) :
    (eventResume userId p reply st).Tame userId none st := by
  unfold eventResume
  cases p with
  | matching room rest =>
    cases reply with
    | error e => exact tame_raises e
    | ok value => exact matchNext_tame room rest
  | rejecting room sockets uid sock idx rest =>
    cases reply with
    | error e => exact rejectNext_tame room sockets idx rest
    | ok value =>
      have hnext : (rejectNext userId room sockets (requeue st uid sock) idx rest).Tame userId none
          (requeue st uid sock) := rejectNext_tame room sockets idx rest
      apply Turn.Tame.with_effect _ _ (fun _ _ _ _ h => by cases h)
      refine hnext.after rfl rfl ?_
      intro id hid
      exact .inl (OrderedDict.mem_set.mpr (.inr hid))

/-! ### `handle_disconnect` -/

theorem disconnectRemove_tame (rs : List String) :
    (disconnectRemove userId st rs).Tame userId none st := by
  induction rs generalizing st with
  | nil => exact Turn.Tame.after tame_returns rfl rfl fun _ hid => .inl hid
  | cons r rs ih =>
    unfold disconnectRemove
    split_ifs
    · exact ih.after rfl rfl fun _ hid => .inl hid
    · exact tame_raises _

theorem notifyNext_tame (room : String) (cursor : OrderedDict.Cursor String)
    (toRemove : List String) (socks : List Socket) :
    (notifyNext userId st room cursor toRemove socks).Tame userId none st := by
  cases socks with
  | nil => exact tame_awaits _ (fun _ _ h => by cases h)
  | cons sock socks => exact tame_awaits _ (fun _ _ h => by cases h)

theorem disconnectScan_tame (cursor : OrderedDict.Cursor String) (fails : Bool)
    (keys toRemove : List String) :
    (disconnectScan userId st cursor fails keys toRemove).Tame userId none st := by
  induction keys generalizing toRemove with
  | nil =>
    unfold disconnectScan
    split_ifs
    · exact tame_raises _
    · exact disconnectRemove_tame toRemove
  | cons room keys ih =>
    unfold disconnectScan
    cases st.matchingCandidates.get? room with
    | none => exact ih toRemove
    | some data =>
      dsimp only
      split_ifs
      · exact ih _
      · exact notifyNext_tame room _ toRemove data.sockets
      · exact ih toRemove

theorem disconnectStart_tame : (disconnectStart userId st).Tame userId none st := by
  unfold disconnectStart
  split_ifs
  · refine ⟨rfl, rfl, fun _ _ _ hn => ?_, ?_, fun _ _ _ _ hc => absurd hc List.not_mem_nil⟩
    · cases hn
    intro id hid
    by_cases hu : id = userId
    · exact .inr (.inl hu)
    · exact .inl (OrderedDict.mem_erase.mpr ⟨hu, hid⟩)
  · exact disconnectScan_tame _ _ _ _

theorem disconnectResume_tame (drift : OrderedDict.Drift String) (p : DisconnectPoint)
    (reply : Reply) : (disconnectResume userId drift p reply st).Tame userId none st := by
  cases p with
  | notifying room rest cursor toRemove => exact notifyNext_tame room cursor toRemove rest
  | deletingOwn =>
    cases reply with
    | error e => exact tame_raises e
    | ok value => exact disconnectScan_tame _ _ _ _
  | deletingKey room cursor toRemove =>
    cases reply with
    | error e => exact tame_raises e
    | ok value => exact disconnectScan_tame _ _ _ _

end Tame

/-! ### The reaction of a connection -/

structure Reaction.Tame (userId : UserId) (found : Option UserId) (st : State) (r : Reaction) :
    Prop where
  redis : r.state.redis = st.redis
  clock : r.state.clock = st.clock
  request : ∀ task id record, r.status ≠ .waiting task (.redisSet id record)
  unserved : ∀ task reply, r.status ≠ .ready task reply
  reads : ∀ otherId rest request, r.status = .waiting (.connect (.reading otherId rest)) request →
    request = .redisGet otherId
  waiting : ∀ id ∈ st.waitingUsers, id ∈ r.state.waitingUsers ∨ id = userId ∨ found = some id
  claims : ∀ ws id partner ws2 room, .did ws (.claimed id partner ws2 room) ∈ r.notes →
    found = some partner

def Status.found : Status → Option UserId
  | .ready (.connect p) reply => p.found reply
  | _ => none

section Reaction
variable {userId : UserId} {found : Option UserId} {st : State} {ws : Socket}

theorem afterFinally_tame {t : Turn DisconnectPoint} (failed : Option PyError)
    (h : t.Tame userId none st) : (afterFinally failed t).Tame userId none st := by
  obtain ⟨st', effects, next⟩ := t
  cases next with
  | awaits request p =>
    refine ⟨h.redis, h.clock, fun task id record hs => ?_, (fun _ _ hs => by cases hs),
      (fun _ _ _ hs => by cases hs), h.waiting, fun _ _ _ _ _ hc => absurd hc List.not_mem_nil⟩
    cases hs
    exact h.request id record p rfl
  | returns =>
    exact ⟨h.redis, h.clock, (fun _ _ _ hs => by cases hs), (fun _ _ hs => by cases hs),
      (fun _ _ _ hs => by cases hs), h.waiting, fun _ _ _ _ _ hc => absurd hc List.not_mem_nil⟩
  | raises e =>
    exact ⟨h.redis, h.clock, (fun _ _ _ hs => by cases hs), (fun _ _ hs => by cases hs),
      (fun _ _ _ hs => by cases hs), h.waiting, fun _ _ _ _ _ hc => absurd hc List.not_mem_nil⟩

theorem Reaction.Tame.after {st' : State} {r : Reaction} (h : r.Tame userId found st')
    (hredis : st'.redis = st.redis) (hclock : st'.clock = st.clock)
    (hwait : ∀ id ∈ st.waitingUsers, id ∈ st'.waitingUsers ∨ id = userId ∨ found = some id) :
    r.Tame userId found st where
  redis := h.redis.trans hredis
  clock := h.clock.trans hclock
  request := h.request
  unserved := h.unserved
  reads := h.reads
  waiting id hid := by
    rcases hwait id hid with hid | hid
    · exact h.waiting id hid
    · exact .inr hid
  claims := h.claims

theorem afterExcept_tame {t : Turn DisconnectPoint} (h : t.Tame userId none st) :
    (afterExcept userId t).Tame userId none st := by
  obtain ⟨st', effects, next⟩ := t
  have hlast : ∀ failed,
      (afterFinally failed (disconnectStart userId st')).Tame userId none st := by
    intro failed
    exact (afterFinally_tame failed disconnectStart_tame).after h.redis h.clock h.waiting
  cases next with
  | awaits request p =>
    refine ⟨h.redis, h.clock, fun task id record hs => ?_, (fun _ _ hs => by cases hs),
      (fun _ _ _ hs => by cases hs), h.waiting, fun _ _ _ _ _ hc => absurd hc List.not_mem_nil⟩
    cases hs
    exact h.request id record p rfl
  | returns => exact hlast none
  | raises e => exact hlast (some e)

theorem leave_tame (raised : Option PyError) : (leave userId raised st).Tame userId none st := by
  unfold leave
  split_ifs
  · exact afterExcept_tame disconnectStart_tame
  · exact afterFinally_tame none disconnectStart_tame

theorem Turn.Tame.notes {π : Type} {t : Turn π} (h : t.Tame userId found st) (ws ws' : Socket)
    (id partner : UserId) (ws2 : Socket) (room : String)
    (hc : .did ws' (.claimed id partner ws2 room) ∈ t.notes ws) : found = some partner := by
  obtain ⟨st', effects, next⟩ := t
  have hin : Effect.claimed id partner ws2 room ∈ effects ∧ ws = ws' := by
    cases next <;> simpa [Turn.notes] using hc
  exact h.claims id partner ws2 room hin.1

theorem settle_tame {π : Type} {task : π → Task} {t : Turn π} (h : t.Tame userId found st)
    (hreads : ∀ request p, t.next = .awaits request p → ∀ otherId rest,
      task p = .connect (.reading otherId rest) → request = .redisGet otherId) :
    (settle userId ws task t).Tame userId found st := by
  have hclaims := h.notes ws
  obtain ⟨st', effects, next⟩ := t
  cases next with
  | awaits request p =>
    refine ⟨h.redis, h.clock, fun task' id record hs => ?_, (fun _ _ hs => by cases hs),
      fun otherId rest request' hs => ?_, h.waiting, hclaims⟩
    · cases hs
      exact h.request id record p rfl
    · obtain ⟨htask, rfl⟩ := Status.waiting.inj hs
      exact hreads request p rfl otherId rest htask
  | returns =>
    exact ⟨h.redis, h.clock, (fun _ _ _ hs => by cases hs), (fun _ _ hs => by cases hs),
      (fun _ _ _ hs => by cases hs), h.waiting, hclaims⟩
  | raises e =>
    have hleave : (leave userId (some e) st').Tame userId none st' := leave_tame (some e)
    refine ⟨hleave.redis.trans h.redis, hleave.clock.trans h.clock, hleave.request, hleave.unserved,
      hleave.reads, fun id hid => ?_, hclaims⟩
    rcases h.waiting id hid with hid | hid
    · exact (hleave.waiting id hid).imp_right fun hid => hid.imp_right fun hno => by cases hno
    · exact .inr hid

theorem resumeTask_tame (hex : String) (drift : OrderedDict.Drift String) (conn : Conn)
    (reply : Reply) (task : Task) :
    (resumeTask hex drift ws conn reply st task).Tame conn.user.id
      (Status.found (.ready task reply)) st := by
  cases task with
  | connect p =>
    apply settle_tame (connectResume_tame hex conn.query p reply)
    intro request p' hn otherId rest htask
    cases htask
    exact connectResume_reads hn
  | event p =>
    exact settle_tame (eventResume_tame p reply) fun _ _ _ _ _ htask => by cases htask
  | onExcept p => exact afterExcept_tame (disconnectResume_tame drift p reply)
  | onFinally failed p => exact afterFinally_tame failed (disconnectResume_tame drift p reply)

theorem tame_of_reacts {conn : Conn} {action : Action} {r : Reaction}
    (h : Reacts ws conn st action r) (hserve : ∀ failure, action ≠ .serve failure) :
    r.Tame conn.user.id conn.status.found st := by
  cases h with
  | message hs =>
    rw [hs]
    exact settle_tame (eventStart_tame _) fun _ _ _ _ _ htask => by cases htask
  | hangup hs =>
    rw [hs]
    exact leave_tame none
  | serve hs => exact absurd rfl (hserve _)
  | resume hs =>
    rw [hs]
    exact resumeTask_tame _ _ conn _ _

end Reaction

theorem frame_of_step {sys sys' : Sys} {l : Label} (h : interleaved.step sys l sys')
    (hserve : ∀ ws failure, l ≠ .act ws (.serve failure)) :
    sys'.state.redis = sys.state.redis ∧
      ((∀ seconds today, l ≠ .elapse seconds today) → sys'.state.clock = sys.state.clock) := by
  cases steps_of_step h with
  | connects hnew => exact ⟨rfl, fun _ => rfl⟩
  | elapses => exact ⟨rfl, fun hl => absurd rfl (hl _ _)⟩
  | @acts ws action conn r hc hr =>
    have htame := tame_of_reacts (reacts_of_react hr) fun failure ha => hserve ws failure (ha ▸ rfl)
    exact ⟨htame.redis, fun _ => htame.clock⟩

end Nalang.Matchmaking
