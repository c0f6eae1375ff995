import Mathlib.Data.Prod.Lex
import Nalang.Matchmaking.Calls
import Nalang.Matchmaking.Interleaving

/-!
# Connects that race for the same waiting user

A connect reads the queue once and Redis after every `await`; the user it has
found may meanwhile have been claimed by another connect, or have left. As long
as the user that is found is still in the queue, every connect registers its own
user or claims exactly one waiting user, and ends.
-/

namespace Nalang.Matchmaking
open Python Transition

/-! ### What the log tells of a connect -/

def outcomeOf (ws : Socket) : Note → Option Effect
  | .did ws' effect => if ws' = ws then some effect else none
  | _ => none

def outcomes (ws : Socket) (log : List Note) : List Effect := log.filterMap (outcomeOf ws)

def claimedSocket : Note → Option Socket
  | .did _ (.claimed _ _ ws2 _) => some ws2
  | _ => none

def claimedSockets (log : List Note) : List Socket := log.filterMap claimedSocket

theorem outcomes_append (ws : Socket) (log log' : List Note) :
    outcomes ws (log ++ log') = outcomes ws log ++ outcomes ws log' := List.filterMap_append

theorem claimedSockets_append (log log' : List Note) :
    claimedSockets (log ++ log') = claimedSockets log ++ claimedSockets log' :=
  List.filterMap_append

def Note.Truthful (st st' : State) : Note → Prop
  | .did ws (.registered id ws') =>
    ws' = ws ∧ st'.waitingUsers = st.waitingUsers.set id ws ∧
      st'.matchingCandidates = st.matchingCandidates
  | .did ws (.claimed id partner ws2 room) =>
    st.waitingUsers.get? partner = some ws2 ∧
      st'.waitingUsers = st.waitingUsers.erase partner ∧
      st'.matchingCandidates = st.matchingCandidates.set room ⟨[id, partner], [ws, ws2], ∅⟩
  | _ => True

namespace ConnectPoint

/-- Every `await` brings a connect nearer to its end; how many there are is known when it has read
the queue. -/
def rank : ConnectPoint → ℕ × ℕ
  | .storing => (2, 0)
  | .reading _ rest => (1, rest.length)
  | .proposing _ _ _ => (0, 3)
  | .proposingPartner _ => (0, 2)
  | .deleting _ => (0, 1)
  | .deletingPartner => (0, 0)

end ConnectPoint

namespace Status

def Connecting : Status → Prop
  | .waiting (.connect _) _ => True
  | .ready (.connect _) _ => True
  | _ => False

def Undecided : Status → Prop
  | .waiting (.connect p) _ => p.Undecided
  | .ready (.connect p) _ => p.Undecided
  | _ => False

theorem Undecided.connecting {s : Status} (h : s.Undecided) : s.Connecting := by
  cases s with
  | idle => exact absurd h id
  | waiting task request => cases task <;> trivial
  | ready task reply => cases task <;> trivial
  | finished failed => exact absurd h id

def rank : Status → ℕ ×ₗ ℕ
  | .waiting (.connect p) _ => toLex (p.rank.1, 2 * p.rank.2 + 1)
  | .ready (.connect p) _ => toLex (p.rank.1, 2 * p.rank.2)
  | _ => toLex (0, 0)

end Status

/-! ### The steps considered -/

def Label.Admitted : Label → Prop
  | .connect _ _ query => query.filters.WellFormed
  | .act _ (.message _) => False
  | .act _ (.serve failure) => failure = none
  | _ => True

/-- A connect that has just read the record of a user with whom it matches finds the user still in
the queue. -/
def StillWaiting (sys : Sys) (l : Label) : Prop :=
  ∀ ws hex drift conn otherId rest parsed, l = .act ws (.resume hex drift) →
    sys.conns.get? ws = some conn →
    conn.status = .ready (.connect (.reading otherId rest)) (.ok (some parsed)) →
    mutualMatch sys.state.clock.today parsed conn.user.userData conn.query.filters = .ok true →
    otherId ∈ sys.state.waitingUsers

def State.Sane (st : State) : Prop :=
  ∀ id record, st.getRecord id = some record → record.filters.WellFormed

structure Opening (start : Sys) : Prop where
  log : start.log = []
  idle : ∀ ws conn, start.conns.get? ws = some conn → conn.status = .idle
  records : start.state.Sane
  waiting : ∀ e ∈ start.state.waitingUsers.entries, ∃ conn,
    start.conns.get? e.2 = some conn ∧ conn.user.id = e.1

def CleanOutcome (ws : Socket) (conn : Conn) (effects : List Effect) : Prop :=
  (conn.status.Undecided ∧ effects = []) ∨
    (¬ conn.status.Undecided ∧ (effects = [.registered conn.user.id ws] ∨
      ∃ partner ws2 room, effects = [.claimed conn.user.id partner ws2 room]))

structure Clean (start sys : Sys) : Prop where
  unraised : ∀ ws e, .raised ws e ∉ sys.log
  outcome : ∀ ws conn, sys.conns.get? ws = some conn → ¬ ws ∈ start.conns →
    CleanOutcome ws conn (outcomes ws sys.log)
  claims : (claimedSockets sys.log).Nodup

/-- The outcomes in the log are those of the tables: a connect changes the queue and the rooms only
when it notes one. -/
def Accounted (sys : Sys) (l : Label) (sys' : Sys) : Prop :=
  ∃ notes, sys'.log = sys.log ++ notes ∧
    (∀ note ∈ notes, note.Truthful sys.state sys'.state) ∧
    ∀ ws action conn, l = .act ws action → sys.conns.get? ws = some conn →
      conn.status.Connecting → outcomes ws notes = [] →
      sys'.state.waitingUsers = sys.state.waitingUsers ∧
        sys'.state.matchingCandidates = sys.state.matchingCandidates

/-! ### A stretch of `handle_connect` -/

def Request.Sane : Request → Prop
  | .redisSet _ record => record.filters.WellFormed
  | _ => True

inductive Decides (ws : Socket) (user : User) (st : State) (p : ConnectPoint) :
    Turn ConnectPoint → Prop
  | goesOn {request : Request} {p' : ConnectPoint} (hrank : toLex p'.rank < toLex p.rank)
      (hp : p'.Undecided ↔ p.Undecided) (hreq : request.Sane) :
      Decides ws user st p ⟨st, [], .awaits request p'⟩
  | registers (hp : p.Undecided) :
      Decides ws user st p ⟨register st user.id ws, [.registered user.id ws], .returns⟩
  | claims {partner : UserId} {ws2 : Socket} {room : String} (hp : p.Undecided)
      (hg : st.waitingUsers.get? partner = some ws2) :
      Decides ws user st p ⟨claim st user.id ws partner ws2 room,
        [.claimed user.id partner ws2 room],
        .awaits (.send ws (.matchProposal room partner)) (.proposing partner ws2 room)⟩
  | ends (hp : ¬ p.Undecided) : Decides ws user st p ⟨st, [], .returns⟩

section Connect
variable {ws : Socket} {user : User} {st : State} {p : ConnectPoint}

theorem connectScan_decides (hp : p.Undecided) (es : List (UserId × Socket))
    (hlt : p = .storing ∨ ∃ otherId rest, p = .reading otherId rest ∧ es.length ≤ rest.length) :
    Decides ws user st p (connectScan ws user st es) := by
  induction es with
  | nil => exact .registers hp
  | cons e es ih =>
    unfold connectScan
    split_ifs with hself
    · apply ih
      obtain rfl | ⟨otherId, rest, rfl, hle⟩ := hlt
      · exact .inl rfl
      · exact .inr ⟨otherId, rest, rfl, by rw [List.length_cons] at hle; omega⟩
    · refine .goesOn ?_ ⟨fun _ => hp, fun _ => trivial⟩ trivial
      rw [Prod.Lex.toLex_lt_toLex]
      obtain rfl | ⟨otherId, rest, rfl, hle⟩ := hlt
      · exact .inl (Nat.lt_succ_self 1)
      · exact .inr ⟨rfl, hle⟩

theorem connectResume_decides (hex : String) {query : QueryParams} {value : Option CallRecord}
    (hq : query.filters.WellFormed) (hv : ∀ record, value = some record → record.filters.WellFormed)
    (hstill : ∀ otherId rest parsed, p = .reading otherId rest → value = some parsed →
      mutualMatch st.clock.today parsed user.userData query.filters = .ok true →
      otherId ∈ st.waitingUsers) :
    Decides ws user st p (connectResume hex ws user query p (.ok value) st) := by
  cases p with
  | storing => exact connectScan_decides (p := .storing) trivial _ (.inl rfl)
  | reading otherId rest =>
    have hscan : Decides ws user st (.reading otherId rest) (connectScan ws user st rest) :=
      connectScan_decides (p := .reading otherId rest) trivial rest
        (.inr ⟨otherId, rest, rfl, le_refl _⟩)
    cases value with
    | none => exact hscan
    | some parsed =>
      obtain ⟨b, hb⟩ := mutualMatch_of_wellFormed hq (hv parsed rfl) st.clock.today user.userData
      unfold connectResume
      dsimp only
      rw [hb]
      cases b with
      | false => exact hscan
      | true =>
        obtain ⟨ws2, hg⟩ := OrderedDict.get?_isSome (hstill otherId rest parsed rfl rfl hb)
        dsimp only
        unfold connectClaim
        rw [hg]
        exact .claims trivial hg
  | proposing partner ws2 room =>
    exact .goesOn (by simp [ConnectPoint.rank, Prod.Lex.toLex_lt_toLex]) Iff.rfl trivial
  | proposingPartner partner =>
    exact .goesOn (by simp [ConnectPoint.rank, Prod.Lex.toLex_lt_toLex]) Iff.rfl trivial
  | deleting partner =>
    exact .goesOn (by simp [ConnectPoint.rank, Prod.Lex.toLex_lt_toLex]) Iff.rfl trivial
  | deletingPartner => exact .ends id

end Connect

/-! ### A stretch of `handle_disconnect` -/

structure Retreats (st : State) (t : Turn DisconnectPoint) : Prop where
  waiting : ∀ e ∈ t.state.waitingUsers.entries, e ∈ st.waitingUsers.entries
  redis : t.state.redis = st.redis
  clock : t.state.clock = st.clock
  request : ∀ request p, t.next = .awaits request p → request.Sane

section Disconnect
variable {userId : UserId} {st : State}

theorem notifyNext_retreats (room : String) (cursor : OrderedDict.Cursor String)
    (toRemove : List String) (socks : List Socket) :
    Retreats st (notifyNext userId st room cursor toRemove socks) := by
  cases socks with
  | nil => exact ⟨fun _ he => he, rfl, rfl, fun _ _ hn => by cases hn; trivial⟩
  | cons sock socks => exact ⟨fun _ he => he, rfl, rfl, fun _ _ hn => by cases hn; trivial⟩

theorem disconnectRemove_retreats (rs : List String) :
    Retreats st (disconnectRemove userId st rs) := by
  induction rs generalizing st with
  | nil => exact ⟨fun _ he => he, rfl, rfl, fun _ _ hn => by cases hn⟩
  | cons r rs ih =>
    unfold disconnectRemove
    split_ifs
    · have hrest : Retreats { st with matchingCandidates := st.matchingCandidates.erase r }
          (disconnectRemove userId
            { st with matchingCandidates := st.matchingCandidates.erase r } rs) := ih
      exact ⟨hrest.waiting, hrest.redis, hrest.clock, hrest.request⟩
    · exact ⟨fun _ he => he, rfl, rfl, fun _ _ hn => by cases hn⟩

theorem disconnectScan_retreats (cursor : OrderedDict.Cursor String) (fails : Bool)
    (keys toRemove : List String) :
    Retreats st (disconnectScan userId st cursor fails keys toRemove) := by
  induction keys generalizing toRemove with
  | nil =>
    unfold disconnectScan
    split_ifs
    · exact ⟨fun _ he => he, rfl, rfl, fun _ _ hn => by cases hn⟩
    · exact disconnectRemove_retreats toRemove
  | cons room keys ih =>
    unfold disconnectScan
    cases st.matchingCandidates.get? room with
    | none => exact ih toRemove
    | some data =>
      dsimp only
      split_ifs
      · exact ih _
      · exact notifyNext_retreats room _ toRemove data.sockets
      · exact ih toRemove

theorem disconnectStart_retreats : Retreats st (disconnectStart userId st) := by
  unfold disconnectStart
  split_ifs
  · refine ⟨fun e he => ?_, rfl, rfl, fun _ _ hn => by cases hn; trivial⟩
    exact (OrderedDict.mem_entries_erase.mp he).1
  · exact disconnectScan_retreats _ _ _ _

theorem disconnectResume_retreats (drift : OrderedDict.Drift String) (p : DisconnectPoint)
    (reply : Reply) : Retreats st (disconnectResume userId drift p reply st) := by
  cases p with
  | notifying room rest cursor toRemove => exact notifyNext_retreats room cursor toRemove rest
  | deletingOwn =>
    cases reply with
    | error e => exact ⟨fun _ he => he, rfl, rfl, fun _ _ hn => by cases hn⟩
    | ok value => exact disconnectScan_retreats _ _ _ _
  | deletingKey room cursor toRemove =>
    cases reply with
    | error e => exact ⟨fun _ he => he, rfl, rfl, fun _ _ hn => by cases hn⟩
    | ok value => exact disconnectScan_retreats _ _ _ _

end Disconnect

structure Left (st : State) (r : Reaction) : Prop where
  waiting : ∀ e ∈ r.state.waitingUsers.entries, e ∈ st.waitingUsers.entries
  redis : r.state.redis = st.redis
  clock : r.state.clock = st.clock
  leaves : r.Leaves
  request : ∀ task request, r.status = .waiting task request → request.Sane

theorem Status.Leaving.not_connecting {s : Status} (h : s.Leaving) : ¬ s.Connecting := by
  cases s with
  | idle => exact id
  | waiting task request => cases task <;> first | exact id | exact absurd h id
  | ready task reply => cases task <;> first | exact id | exact absurd h id
  | finished failed => exact id

theorem afterFinally_left {st : State} {t : Turn DisconnectPoint} (failed : Option PyError)
    (h : Retreats st t) : Left st (afterFinally failed t) := by
  have hleaves := afterFinally_leaves failed t
  obtain ⟨st', effects, next⟩ := t
  cases next with
  | awaits request p =>
    refine ⟨h.waiting, h.redis, h.clock, hleaves, fun task request' hs => ?_⟩
    cases hs
    exact h.request request p rfl
  | returns => exact ⟨h.waiting, h.redis, h.clock, hleaves, fun _ _ hs => by cases hs⟩
  | raises e => exact ⟨h.waiting, h.redis, h.clock, hleaves, fun _ _ hs => by cases hs⟩

theorem afterExcept_left {userId : UserId} {st : State} {t : Turn DisconnectPoint}
    (h : Retreats st t) : Left st (afterExcept userId t) := by
  have hleaves := afterExcept_leaves userId t
  obtain ⟨st', effects, next⟩ := t
  have hlast : ∀ failed, Left st (afterFinally failed (disconnectStart userId st')) := by
    intro failed
    have hd : Retreats st' (disconnectStart userId st') := disconnectStart_retreats
    have hl := afterFinally_left failed hd
    exact ⟨fun e he => h.waiting e (hl.waiting e he), hl.redis.trans h.redis,
      hl.clock.trans h.clock, hl.leaves, hl.request⟩
  cases next with
  | awaits request p =>
    refine ⟨h.waiting, h.redis, h.clock, hleaves, fun task request' hs => ?_⟩
    cases hs
    exact h.request request p rfl
  | returns => exact hlast none
  | raises e => exact hlast (some e)

/-! ### The reaction of a connection -/

def Conn.Steady (conn : Conn) : Prop :=
  match conn.status with
  | .waiting (.connect _) request => request.Sane ∧ conn.query.filters.WellFormed
  | .ready (.connect _) reply =>
    (∃ value, reply = .ok value ∧ ∀ record, value = some record → record.filters.WellFormed) ∧
      conn.query.filters.WellFormed
  | .waiting (.event _) _ => False
  | .ready (.event _) _ => False
  | .waiting _ request => request.Sane
  | _ => True

inductive Calm (ws : Socket) (conn : Conn) (st : State) : Reaction → Prop
  | serves {task : Task} {request : Request} (hs : conn.status = .waiting task request) :
      Calm ws conn st ⟨(request.perform none st).1, .ready task (request.perform none st).2,
        request.notes ws none⟩
  | decides {p : ConnectPoint} {value : Option CallRecord} {t : Turn ConnectPoint}
      (hs : conn.status = .ready (.connect p) (.ok value)) (ht : Decides ws conn.user st p t) :
      Calm ws conn st (settle conn.user.id ws .connect t)
  | leaves {r : Reaction} (hs : ¬ conn.status.Connecting) (hr : Left st r) : Calm ws conn st r

theorem calm_of_reacts {ws : Socket} {conn : Conn} {st : State} {action : Action} {r : Reaction}
    (hsteady : conn.Steady) (hadm : (Label.act ws action).Admitted)
    (hstill : ∀ hex drift otherId rest parsed, action = .resume hex drift →
      conn.status = .ready (.connect (.reading otherId rest)) (.ok (some parsed)) →
      mutualMatch st.clock.today parsed conn.user.userData conn.query.filters = .ok true →
      otherId ∈ st.waitingUsers)
    (h : Reacts ws conn st action r) : Calm ws conn st r := by
  cases h with
  | message hs => exact absurd hadm id
  | hangup hs =>
    refine .leaves (by rw [hs]; exact id) ?_
    exact afterFinally_left none disconnectStart_retreats
  | @serve failure task request hs =>
    obtain rfl : failure = none := hadm
    exact .serves hs
  | @resume hex drift task reply hs =>
    unfold Conn.Steady at hsteady
    rw [hs] at hsteady
    cases task with
    | connect p =>
      obtain ⟨⟨value, rfl, hv⟩, hq⟩ := hsteady
      refine .decides hs (connectResume_decides hex hq hv ?_)
      intro otherId rest parsed hp hval
      exact hstill hex drift otherId rest parsed rfl (by rw [hs, hp, hval])
    | event p => exact absurd hsteady id
    | onExcept p =>
      exact .leaves (by rw [hs]; exact id) (afterExcept_left (disconnectResume_retreats _ _ _))
    | onFinally failed p =>
      exact .leaves (by rw [hs]; exact id) (afterFinally_left _ (disconnectResume_retreats _ _ _))

/-! ### What is in Redis and what the connections wait for -/

section Sane
variable {st : State}

theorem sane_of_redis {st' : State} (h : st.Sane) (hr : st'.redis = st.redis)
    (hc : st'.clock = st.clock) : st'.Sane := by
  intro id record hrec
  unfold State.getRecord at hrec
  rw [hr, hc] at hrec
  exact h id record hrec

theorem sane_perform (h : st.Sane) {request : Request} (hreq : request.Sane) :
    (request.perform none st).1.Sane ∧ ∃ value, (request.perform none st).2 = .ok value ∧
      ∀ record, value = some record → record.filters.WellFormed := by
  cases request with
  | redisSet id record =>
    refine ⟨fun id' record' hrec => ?_, none, rfl, fun _ hv => nomatch hv⟩
    change (st.redis.set st.clock.now id record 600).get st.clock.now id' = some record' at hrec
    by_cases he : id' = id
    · rw [he] at hrec
      rw [ExpiringStore.get_of_set hrec]
      exact hreq
    · rw [ExpiringStore.get_set_ne _ _ _ _ _ he] at hrec
      exact h id' record' hrec
  | redisGet id => exact ⟨h, _, rfl, fun record hv => h id record hv⟩
  | redisDelete id =>
    refine ⟨fun id' record' hrec => ?_, none, rfl, fun _ hv => nomatch hv⟩
    change (st.redis.delete id).get st.clock.now id' = some record' at hrec
    by_cases he : id' = id
    · rw [he, ExpiringStore.get_delete_self] at hrec
      cases hrec
    · rw [ExpiringStore.get_delete_ne _ _ he] at hrec
      exact h id' record' hrec
  | send sock event => exact ⟨h, none, rfl, fun _ hv => nomatch hv⟩

theorem sane_elapse {clock : Clock} (h : st.Sane) (hle : st.clock.now ≤ clock.now) :
    ({ st with clock := clock } : State).Sane := by
  intro id record hrec
  exact h id record (ExpiringStore.get_of_later hle hrec)

theorem calm_sane {ws : Socket} {conn : Conn} {r : Reaction} (h : Calm ws conn st r)
    (hst : st.Sane) (hsteady : conn.Steady) :
    r.state.Sane ∧ ({ conn with status := r.status } : Conn).Steady := by
  cases h with
  | @serves task request hs =>
    unfold Conn.Steady at hsteady
    rw [hs] at hsteady
    cases task with
    | connect p =>
      obtain ⟨hst', hv⟩ := sane_perform hst hsteady.1
      exact ⟨hst', hv, hsteady.2⟩
    | event p => exact absurd hsteady id
    | onExcept p => exact ⟨(sane_perform hst hsteady).1, trivial⟩
    | onFinally failed p => exact ⟨(sane_perform hst hsteady).1, trivial⟩
  | @decides p value t hs ht =>
    unfold Conn.Steady at hsteady
    rw [hs] at hsteady
    cases ht with
    | goesOn hrank hp hreq => exact ⟨hst, hreq, hsteady.2⟩
    | registers hp => exact ⟨sane_of_redis hst rfl rfl, trivial⟩
    | claims hp hg => exact ⟨sane_of_redis hst rfl rfl, trivial, hsteady.2⟩
    | ends hp => exact ⟨hst, trivial⟩
  | @leaves r hs hr =>
    refine ⟨sane_of_redis hst hr.redis hr.clock, ?_⟩
    have hleaving := hr.leaves.status
    unfold Conn.Steady
    cases hstatus : r.status with
    | idle => trivial
    | finished failed => trivial
    | waiting task request =>
      rw [hstatus] at hleaving
      cases task with
      | connect p => exact absurd hleaving id
      | event p => exact absurd hleaving id
      | onExcept p => exact hr.request _ _ hstatus
      | onFinally failed p => exact hr.request _ _ hstatus
    | ready task reply =>
      rw [hstatus] at hleaving
      cases task with
      | connect p => exact absurd hleaving id
      | event p => exact absurd hleaving id
      | onExcept p => trivial
      | onFinally failed p => trivial

end Sane

/-! ### The queue and the outcomes -/

def Settled (sys : Sys) (s : Socket) (id : UserId) : Prop :=
  ∃ conn, sys.conns.get? s = some conn ∧ conn.user.id = id ∧ ¬ conn.status.Undecided

structure Orderly (start sys : Sys) : Prop where
  clean : Clean start sys
  fresh : ∀ ws, ¬ ws ∈ sys.conns → outcomes ws sys.log = []
  waiting : ∀ e ∈ sys.state.waitingUsers.entries,
    Settled sys e.2 e.1 ∧ e.2 ∉ claimedSockets sys.log
  claimed : ∀ s ∈ claimedSockets sys.log, ∃ id, Settled sys s id

structure Quiet (ws : Socket) (conn : Conn) (st : State) (r : Reaction) : Prop where
  waiting : ∀ e ∈ r.state.waitingUsers.entries, e ∈ st.waitingUsers.entries
  notes : ∀ note ∈ r.notes, ∃ socket event, note = .sent ws socket event
  undecided : r.status.Undecided ↔ conn.status.Undecided

section Step
variable {start sys : Sys} {ws : Socket} {conn : Conn}

theorem settled_reacted {r : Reaction} {s : Socket} {id : UserId}
    (hc : sys.conns.get? ws = some conn) (h : Settled sys s id)
    (hkeep : r.status.Undecided → conn.status.Undecided) :
    Settled (sys.reacted ws conn r) s id := by
  obtain ⟨conn', hc', hid, hnot⟩ := h
  by_cases he : s = ws
  · rw [he, hc, Option.some.injEq] at hc'
    rw [← hc'] at hid hnot
    refine ⟨_, get?_reacted.mpr (.inl ⟨he, rfl⟩), hid, fun hu => hnot (hkeep hu)⟩
  · exact ⟨conn', get?_reacted.mpr (.inr ⟨he, hc'⟩), hid, hnot⟩

theorem settled_unique {s : Socket} {id id' : UserId} (h : Settled sys s id)
    (h' : Settled sys s id') : id = id' := by
  obtain ⟨conn, hc, hid, _⟩ := h
  obtain ⟨conn', hc', hid', _⟩ := h'
  rw [hc, Option.some.injEq] at hc'
  rw [← hid, ← hid', hc']

theorem filterMap_sent {β : Type} {f : Note → Option β} {notes : List Note}
    (hn : ∀ note ∈ notes, ∃ socket event, note = .sent ws socket event)
    (hf : ∀ socket event, f (.sent ws socket event) = none) : notes.filterMap f = [] := by
  rw [List.filterMap_eq_nil_iff]
  intro note hnote
  obtain ⟨socket, event, rfl⟩ := hn note hnote
  exact hf socket event

theorem orderly_quiet {r : Reaction} (h : Orderly start sys) (hc : sys.conns.get? ws = some conn)
    (hq : Quiet ws conn sys.state r) : Orderly start (sys.reacted ws conn r) := by
  have hout : ∀ ws', outcomes ws' (sys.reacted ws conn r).log = outcomes ws' sys.log := by
    intro ws'
    rw [show (sys.reacted ws conn r).log = sys.log ++ r.notes from rfl, outcomes_append,
      show outcomes ws' r.notes = [] from filterMap_sent hq.notes fun _ _ => rfl, List.append_nil]
  have hclaimed : claimedSockets (sys.reacted ws conn r).log = claimedSockets sys.log := by
    rw [show (sys.reacted ws conn r).log = sys.log ++ r.notes from rfl, claimedSockets_append,
      show claimedSockets r.notes = [] from filterMap_sent hq.notes fun _ _ => rfl,
      List.append_nil]
  refine ⟨⟨fun ws' e hmem => ?_, fun ws' conn' hc' hnew => ?_, ?_⟩, fun ws' hnew => ?_,
    fun e he => ?_, fun s hs => ?_⟩
  · rcases List.mem_append.mp hmem with hold | hnew
    · exact h.clean.unraised ws' e hold
    · obtain ⟨_, _, heq⟩ := hq.notes _ hnew
      cases heq
  · rw [hout]
    obtain ⟨rfl, rfl⟩ | ⟨_, hold⟩ := get?_reacted.mp hc'
    · have hclean := h.clean.outcome ws' conn hc hnew
      unfold CleanOutcome at hclean ⊢
      dsimp only
      rw [hq.undecided]
      exact hclean
    · exact h.clean.outcome ws' conn' hold hnew
  · rw [hclaimed]
    exact h.clean.claims
  · rw [hout]
    exact h.fresh ws' fun hin => hnew (OrderedDict.mem_set.mpr (.inr hin))
  · obtain ⟨hsettled, hnot⟩ := h.waiting e (hq.waiting e he)
    exact ⟨settled_reacted hc hsettled hq.undecided.mp, hclaimed ▸ hnot⟩
  · obtain ⟨id, hsettled⟩ := h.claimed s (hclaimed ▸ hs)
    exact ⟨id, settled_reacted hc hsettled hq.undecided.mp⟩

theorem outcome_decided {r : Reaction} {effect : Effect} (h : Orderly start sys)
    (hc : sys.conns.get? ws = some conn) (hu : conn.status.Undecided)
    (hs : ¬ r.status.Undecided) (hn : r.notes = [.did ws effect])
    (heff : effect = .registered conn.user.id ws ∨
      ∃ partner ws2 room, effect = .claimed conn.user.id partner ws2 room) :
    (∀ ws' e, .raised ws' e ∉ (sys.reacted ws conn r).log) ∧
      (∀ ws' conn', (sys.reacted ws conn r).conns.get? ws' = some conn' → ¬ ws' ∈ start.conns →
        CleanOutcome ws' conn' (outcomes ws' (sys.reacted ws conn r).log)) ∧
      ∀ ws', ¬ ws' ∈ (sys.reacted ws conn r).conns →
        outcomes ws' (sys.reacted ws conn r).log = [] := by
  have hlog : (sys.reacted ws conn r).log = sys.log ++ [.did ws effect] := congrArg _ hn
  have hself : outcomes ws [.did ws effect] = [effect] := by simp [outcomes, outcomeOf]
  have hother : ∀ ws', ws' ≠ ws → outcomes ws' [.did ws effect] = [] := by
    intro ws' hne
    simp [outcomes, outcomeOf, hne.symm]
  refine ⟨fun ws' e hmem => ?_, fun ws' conn' hc' hnew => ?_, fun ws' hnew => ?_⟩
  · rw [hlog] at hmem
    rcases List.mem_append.mp hmem with hold | hlast
    · exact h.clean.unraised ws' e hold
    · cases List.mem_singleton.mp hlast
  · rw [hlog, outcomes_append]
    obtain ⟨rfl, rfl⟩ | ⟨hne, hold⟩ := get?_reacted.mp hc'
    · obtain ⟨_, hnone⟩ | ⟨hnot, _⟩ := h.clean.outcome ws' conn hc hnew
      · rw [hnone, hself]
        refine .inr ⟨hs, ?_⟩
        exact heff.imp (congrArg fun x => [x]) fun ⟨partner, ws2, room, he⟩ =>
          ⟨partner, ws2, room, congrArg (fun x => [x]) he⟩
      · exact absurd hu hnot
    · rw [hother ws' hne, List.append_nil]
      exact h.clean.outcome ws' conn' hold hnew
  · have hne : ws' ≠ ws := fun he => hnew (OrderedDict.mem_set.mpr (.inl he))
    rw [hlog, outcomes_append, hother ws' hne, List.append_nil]
    exact h.fresh ws' fun hin => hnew (OrderedDict.mem_set.mpr (.inr hin))

theorem orderly_registers {r : Reaction} (h : Orderly start sys)
    (hc : sys.conns.get? ws = some conn) (hu : conn.status.Undecided)
    (hst : r.state.waitingUsers = sys.state.waitingUsers.set conn.user.id ws)
    (hs : ¬ r.status.Undecided) (hn : r.notes = [.did ws (.registered conn.user.id ws)]) :
    Orderly start (sys.reacted ws conn r) := by
  obtain ⟨hraised, hout, hfresh⟩ := outcome_decided h hc hu hs hn (.inl rfl)
  have hclaimed : claimedSockets (sys.reacted ws conn r).log = claimedSockets sys.log := by
    rw [show (sys.reacted ws conn r).log = sys.log ++ r.notes from rfl, hn, claimedSockets_append]
    exact List.append_nil _
  refine ⟨⟨hraised, hout, hclaimed ▸ h.clean.claims⟩, hfresh, fun e he => ?_, fun s hmem => ?_⟩
  · rw [hclaimed]
    have he' : e ∈ (sys.state.waitingUsers.set conn.user.id ws).entries := hst ▸ he
    rcases OrderedDict.mem_entries_set.mp he' with rfl | ⟨hold, _⟩
    · refine ⟨⟨_, OrderedDict.get?_set_self _ _ _, rfl, hs⟩, fun hin => ?_⟩
      -- a socket that was claimed belongs to a connection that has decided
      obtain ⟨id, conn', hc', _, hnot⟩ := h.claimed ws hin
      rw [hc, Option.some.injEq] at hc'
      exact hnot (hc' ▸ hu)
    · obtain ⟨hsettled, hnot⟩ := h.waiting e hold
      exact ⟨settled_reacted hc hsettled fun hr => absurd hr hs, hnot⟩
  · obtain ⟨id, hsettled⟩ := h.claimed s (hclaimed ▸ hmem)
    exact ⟨id, settled_reacted hc hsettled fun hr => absurd hr hs⟩

theorem orderly_claims {r : Reaction} {partner : UserId} {ws2 : Socket} {room : String}
    (h : Orderly start sys) (hc : sys.conns.get? ws = some conn) (hu : conn.status.Undecided)
    (hg : sys.state.waitingUsers.get? partner = some ws2)
    (hst : r.state.waitingUsers = sys.state.waitingUsers.erase partner)
    (hs : ¬ r.status.Undecided)
    (hn : r.notes = [.did ws (.claimed conn.user.id partner ws2 room)]) :
    Orderly start (sys.reacted ws conn r) := by
  obtain ⟨hraised, hout, hfresh⟩ :=
    outcome_decided h hc hu hs hn (.inr ⟨partner, ws2, room, rfl⟩)
  have hclaimed : claimedSockets (sys.reacted ws conn r).log = claimedSockets sys.log ++ [ws2] := by
    rw [show (sys.reacted ws conn r).log = sys.log ++ r.notes from rfl, hn, claimedSockets_append]
    rfl
  obtain ⟨howner, hunclaimed⟩ := h.waiting (partner, ws2) (OrderedDict.get?_eq_some.mp hg)
  refine ⟨⟨hraised, hout, ?_⟩, hfresh, fun e he => ?_, fun s hmem => ?_⟩
  · rw [hclaimed]
    exact List.nodup_append_comm.mp (List.nodup_cons.mpr ⟨hunclaimed, h.clean.claims⟩)
  · have he' : e ∈ (sys.state.waitingUsers.erase partner).entries := hst ▸ he
    obtain ⟨hold, hne⟩ := OrderedDict.mem_entries_erase.mp he'
    obtain ⟨hsettled, hnot⟩ := h.waiting e hold
    refine ⟨settled_reacted hc hsettled fun hr => absurd hr hs, fun hin => ?_⟩
    rw [hclaimed] at hin
    rcases List.mem_append.mp hin with hin | hin
    · exact hnot hin
    · rw [List.mem_singleton.mp hin] at hsettled
      exact hne (settled_unique hsettled howner)
  · rw [hclaimed] at hmem
    have hold : ∃ id, Settled sys s id := by
      rcases List.mem_append.mp hmem with hin | hin
      · exact h.claimed s hin
      · exact ⟨partner, List.mem_singleton.mp hin ▸ howner⟩
    obtain ⟨id, hsettled⟩ := hold
    exact ⟨id, settled_reacted hc hsettled fun hr => absurd hr hs⟩

theorem orderly_calm {r : Reaction} (h : Orderly start sys) (hc : sys.conns.get? ws = some conn)
    (hr : Calm ws conn sys.state r) : Orderly start (sys.reacted ws conn r) := by
  cases hr with
  | @serves task request hs =>
    refine orderly_quiet h hc ⟨?_, ?_, ?_⟩
    · cases request <;> exact fun e he => he
    · cases request with
      | send socket event => exact fun note hnote => ⟨socket, event, List.mem_singleton.mp hnote⟩
      | redisSet id record => exact fun note hnote => nomatch hnote
      | redisGet id => exact fun note hnote => nomatch hnote
      | redisDelete id => exact fun note hnote => nomatch hnote
    · rw [hs]
      cases task <;> exact Iff.rfl
  | @decides p value t hs ht =>
    cases ht with
    | goesOn hrank hp hreq =>
      refine orderly_quiet h hc ⟨fun e he => he, fun _ hn => absurd hn List.not_mem_nil, ?_⟩
      rw [hs]
      exact hp
    | registers hp => exact orderly_registers h hc (by rw [hs]; exact hp) rfl id rfl
    | claims hp hg => exact orderly_claims h hc (by rw [hs]; exact hp) hg rfl id rfl
    | ends hp =>
      refine orderly_quiet h hc ⟨fun e he => he, fun _ hn => absurd hn List.not_mem_nil, ?_⟩
      rw [hs]
      exact ⟨fun hu => absurd hu id, fun hu => absurd hu hp⟩
  | leaves hs hr =>
    refine orderly_quiet h hc ⟨hr.waiting, fun note hnote => ?_, ?_⟩
    · rw [hr.leaves.notes] at hnote
      cases hnote
    · exact ⟨fun hu => absurd hu.connecting hr.leaves.status.not_connecting,
        fun hu => absurd hu.connecting hs⟩

end Step

/-! ### Every run -/

structure Uncontested (sys : Sys) (l : Label) : Prop where
  admitted : l.Admitted
  still : StillWaiting sys l

structure Safe (start sys : Sys) : Prop where
  orderly : Orderly start sys
  sane : sys.state.Sane
  steady : ∀ ws conn, sys.conns.get? ws = some conn → conn.Steady

section Run
variable {start sys sys' : Sys}

theorem safe_opening (h : Opening start) : Safe start start := by
  have hdecided : ∀ ws conn, start.conns.get? ws = some conn → ¬ conn.status.Undecided := by
    intro ws conn hc hu
    rw [h.idle ws conn hc] at hu
    exact hu
  refine ⟨⟨⟨?_, ?_, ?_⟩, ?_, ?_, ?_⟩, h.records, ?_⟩
  · rw [h.log]
    exact fun _ _ => List.not_mem_nil
  · intro ws conn hc hnew
    exact absurd (OrderedDict.mem_of_get? hc) hnew
  · rw [h.log]
    exact List.nodup_nil
  · intro ws _
    rw [h.log]
    rfl
  · intro e he
    obtain ⟨conn, hc, hid⟩ := h.waiting e he
    rw [h.log]
    exact ⟨⟨conn, hc, hid, hdecided e.2 conn hc⟩, List.not_mem_nil⟩
  · intro s hs
    rw [h.log] at hs
    cases hs
  · intro ws conn hc
    unfold Conn.Steady
    rw [h.idle ws conn hc]
    trivial

theorem calm_of_step {ws : Socket} {action : Action} {conn : Conn} {r : Reaction}
    (h : Safe start sys) (hu : Uncontested sys (.act ws action))
    (hc : sys.conns.get? ws = some conn) (hr : react ws conn sys.state action = some r) :
    Calm ws conn sys.state r := by
  refine calm_of_reacts (h.steady ws conn hc) hu.admitted ?_ (reacts_of_react hr)
  intro hex drift otherId rest parsed ha hs
  exact hu.still ws hex drift conn otherId rest parsed (ha ▸ rfl) hc hs

theorem safe_connects {ws : Socket} {user : User} {query : QueryParams} (h : Safe start sys)
    (hnew : ¬ ws ∈ sys.conns) (hq : query.filters.WellFormed) :
    Safe start { sys with
      conns := sys.conns.set ws ⟨user, query,
        .waiting (.connect .storing) (.redisSet user.id (recordOf user query))⟩ } := by
  have hnone := OrderedDict.get?_eq_none.mpr hnew
  have hsettled : ∀ s id, Settled sys s id → Settled { sys with
      conns := sys.conns.set ws ⟨user, query,
        .waiting (.connect .storing) (.redisSet user.id (recordOf user query))⟩ } s id := by
    intro s id hs
    obtain ⟨conn, hc, hid, hd⟩ := hs
    refine ⟨conn, OrderedDict.get?_set_eq_some.mpr (.inr ⟨fun he => ?_, hc⟩), hid, hd⟩
    rw [he, hnone] at hc
    cases hc
  refine ⟨⟨⟨h.orderly.clean.unraised, fun ws' conn hc hold => ?_, h.orderly.clean.claims⟩,
    fun ws' hin => ?_, fun e he => ?_, fun s hs => ?_⟩, h.sane, fun ws' conn hc => ?_⟩
  · obtain ⟨rfl, rfl⟩ | ⟨_, hc⟩ := OrderedDict.get?_set_eq_some.mp hc
    · exact .inl ⟨trivial, h.orderly.fresh ws' hnew⟩
    · exact h.orderly.clean.outcome ws' conn hc hold
  · exact h.orderly.fresh ws' fun hm => hin (OrderedDict.mem_set.mpr (.inr hm))
  · obtain ⟨hs, hnot⟩ := h.orderly.waiting e he
    exact ⟨hsettled _ _ hs, hnot⟩
  · obtain ⟨id, hid⟩ := h.orderly.claimed s hs
    exact ⟨id, hsettled _ _ hid⟩
  · obtain ⟨rfl, rfl⟩ | ⟨_, hc⟩ := OrderedDict.get?_set_eq_some.mp hc
    · exact ⟨hq, hq⟩
    · exact h.steady ws' conn hc

theorem safe_step {l : Label} (h : Safe start sys) (hu : Uncontested sys l)
    (hstep : interleaved.step sys l sys') : Safe start sys' := by
  cases steps_of_step hstep with
  | connects hnew => exact safe_connects h hnew hu.admitted
  | @acts ws action conn r hc hr =>
    have hcalm := calm_of_step h hu hc hr
    obtain ⟨hsane, hsteady⟩ := calm_sane hcalm h.sane (h.steady ws conn hc)
    refine ⟨orderly_calm h.orderly hc hcalm, hsane, fun ws' conn' hc' => ?_⟩
    obtain ⟨_, rfl⟩ | ⟨_, hc'⟩ := get?_reacted.mp hc'
    · exact hsteady
    · exact h.steady ws' conn' hc'
  | elapses =>
    obtain ⟨⟨⟨hraised, hout, hclaims⟩, hfresh, hwait, hclaimed⟩, hsane, hsteady⟩ := h
    exact ⟨⟨⟨hraised, hout, hclaims⟩, hfresh, hwait, hclaimed⟩,
      sane_elapse hsane (Nat.le_add_right _ _), hsteady⟩

theorem safe_run {ls : List Label} (h : Opening start)
    (hr : (interleaved.guard Uncontested).Run start ls sys) : Safe start sys := by
  refine hr.invariant (Safe start) (safe_opening h) ?_
  intro s l s' hs hstep
  exact safe_step hs hstep.1 hstep.2

theorem calm_accounted {ws : Socket} {conn : Conn} {st : State} {r : Reaction}
    (h : Calm ws conn st r) : (∀ note ∈ r.notes, note.Truthful st r.state) ∧
      (conn.status.Connecting → outcomes ws r.notes = [] →
        r.state.waitingUsers = st.waitingUsers ∧
          r.state.matchingCandidates = st.matchingCandidates) := by
  cases h with
  | @serves task request hs =>
    cases request with
    | send socket event =>
      refine ⟨fun note hnote => ?_, fun _ _ => ⟨rfl, rfl⟩⟩
      rw [List.mem_singleton.mp hnote]
      trivial
    | redisSet id record => exact ⟨fun _ hn => absurd hn List.not_mem_nil, fun _ _ => ⟨rfl, rfl⟩⟩
    | redisGet id => exact ⟨fun _ hn => absurd hn List.not_mem_nil, fun _ _ => ⟨rfl, rfl⟩⟩
    | redisDelete id => exact ⟨fun _ hn => absurd hn List.not_mem_nil, fun _ _ => ⟨rfl, rfl⟩⟩
  | decides hs ht =>
    cases ht with
    | goesOn hrank hp hreq => exact ⟨fun _ hn => absurd hn List.not_mem_nil, fun _ _ => ⟨rfl, rfl⟩⟩
    | registers hp =>
      refine ⟨fun note hnote => ?_, fun _ hnone => absurd hnone (by simp [settle, Turn.notes,
        outcomes, outcomeOf])⟩
      rw [List.mem_singleton.mp hnote]
      exact ⟨rfl, rfl, rfl⟩
    | claims hp hg =>
      refine ⟨fun note hnote => ?_, fun _ hnone => absurd hnone (by simp [settle, Turn.notes,
        outcomes, outcomeOf])⟩
      rw [List.mem_singleton.mp hnote]
      exact ⟨hg, rfl, rfl⟩
    | ends hp => exact ⟨fun _ hn => absurd hn List.not_mem_nil, fun _ _ => ⟨rfl, rfl⟩⟩
  | leaves hs hr =>
    refine ⟨fun note hnote => ?_, fun hcon => absurd hcon hs⟩
    rw [hr.leaves.notes] at hnote
    cases hnote

theorem accounted_step {l : Label} (h : Safe start sys) (hu : Uncontested sys l)
    (hstep : interleaved.step sys l sys') : Accounted sys l sys' := by
  cases steps_of_step hstep with
  | connects hnew =>
    exact ⟨[], (List.append_nil _).symm, fun _ hn => absurd hn List.not_mem_nil,
      fun _ _ _ hl => nomatch hl⟩
  | elapses =>
    exact ⟨[], (List.append_nil _).symm, fun _ hn => absurd hn List.not_mem_nil,
      fun _ _ _ hl => nomatch hl⟩
  | @acts ws action conn r hc hr =>
    obtain ⟨htrue, hkeep⟩ := calm_accounted (calm_of_step h hu hc hr)
    refine ⟨r.notes, rfl, htrue, fun ws' action' conn' hl hc' hcon hnone => ?_⟩
    cases hl
    rw [hc, Option.some.injEq] at hc'
    exact hkeep (hc' ▸ hcon) hnone

/-! ### Every connect ends -/

def Sys.Connecting (sys : Sys) (ws : Socket) : Prop :=
  ∃ conn, sys.conns.get? ws = some conn ∧ conn.status.Connecting

def Sys.rank (sys : Sys) (ws : Socket) : ℕ ×ₗ ℕ :=
  match sys.conns.get? ws with
  | some conn => conn.status.rank
  | none => toLex (0, 0)

def Label.Of (ws : Socket) (l : Label) : Prop := ∃ action, l = .act ws action

theorem rank_of_calm {ws : Socket} {conn : Conn} {st : State} {r : Reaction}
    (h : Calm ws conn st r) (hcon : conn.status.Connecting) (hcon' : r.status.Connecting) :
    r.status.rank < conn.status.rank := by
  cases h with
  | @serves task request hs =>
    rw [hs] at hcon ⊢
    cases task with
    | connect p => exact Prod.Lex.toLex_lt_toLex.mpr (.inr ⟨rfl, Nat.lt_succ_self _⟩)
    | event p => exact absurd hcon id
    | onExcept p => exact absurd hcon id
    | onFinally failed p => exact absurd hcon id
  | @decides p value t hs ht =>
    rw [hs]
    cases ht with
    | @goesOn request p' hrank hp hreq =>
      rw [Prod.Lex.toLex_lt_toLex] at hrank
      refine Prod.Lex.toLex_lt_toLex.mpr (hrank.imp id fun hlt => ⟨hlt.1, ?_⟩)
      have h := hlt.2
      dsimp only
      omega
    | registers hp => exact absurd hcon' id
    | claims hp hg =>
      refine Prod.Lex.toLex_lt_toLex.mpr (.inl ?_)
      cases p with
      | storing => exact Nat.succ_pos _
      | reading otherId rest => exact Nat.succ_pos _
      | proposing partner ws2 room => exact absurd hp id
      | proposingPartner partner => exact absurd hp id
      | deleting partner => exact absurd hp id
      | deletingPartner => exact absurd hp id
    | ends hp => exact absurd hcon' id
  | leaves hs hr => exact absurd hcon hs

theorem rank_eq {ws : Socket} {conn : Conn} (hc : sys.conns.get? ws = some conn) :
    sys.rank ws = conn.status.rank := by
  unfold Sys.rank
  rw [hc]

theorem rank_step {l : Label} {ws : Socket} (h : Safe start sys) (hu : Uncontested sys l)
    (hstep : interleaved.step sys l sys') (hcon : sys.Connecting ws) (hcon' : sys'.Connecting ws) :
    (l.Of ws → sys'.rank ws < sys.rank ws) ∧ (¬ l.Of ws → sys'.rank ws = sys.rank ws) := by
  obtain ⟨conn, hc, hconn⟩ := hcon
  obtain ⟨conn', hc', hconn'⟩ := hcon'
  rw [rank_eq hc, rank_eq hc']
  cases steps_of_step hstep with
  | connects hnew =>
    refine ⟨fun ho => absurd ho (by simp [Label.Of]), fun _ => ?_⟩
    obtain ⟨he, _⟩ | ⟨_, hold⟩ := OrderedDict.get?_set_eq_some.mp hc'
    · exact absurd (he ▸ OrderedDict.mem_of_get? hc) hnew
    · rw [hc, Option.some.injEq] at hold
      rw [hold]
  | elapses =>
    rw [hc, Option.some.injEq] at hc'
    exact ⟨fun ho => absurd ho (by simp [Label.Of]), fun _ => by rw [hc']⟩
  | @acts ws' action acting r hacting hr =>
    obtain ⟨rfl, rfl⟩ | ⟨hne, hold⟩ := get?_reacted.mp hc'
    · rw [hc, Option.some.injEq] at hacting
      subst hacting
      refine ⟨fun _ => ?_, fun ho => absurd ⟨action, rfl⟩ ho⟩
      exact rank_of_calm (calm_of_step h hu hc hr) hconn hconn'
    · rw [hc, Option.some.injEq] at hold
      refine ⟨fun ho => ?_, fun _ => by rw [hold]⟩
      obtain ⟨action', hl⟩ := ho
      cases hl
      exact absurd rfl hne

theorem connect_ends (h : Opening start) (p : (interleaved.guard Uncontested).Path)
    (h₀ : p.state 0 = start) {ws : Socket}
    (hfair : ∀ n, (p.state n).Connecting ws → ∃ m ≥ n, (p.label m).Of ws) (n : ℕ) :
    ∃ m ≥ n, ¬ (p.state m).Connecting ws := by
  have hsafe : ∀ n, Safe start (p.state n) := by
    intro n
    obtain ⟨ls, hr⟩ := p.run n
    exact safe_run h (h₀ ▸ hr)
  refine p.ends (fun sys => sys.Connecting ws) (fun l => l.Of ws) (fun sys => sys.rank ws)
    ?_ ?_ hfair n
  · intro n hn hn'
    obtain ⟨hlt, heq⟩ := rank_step (hsafe n) (p.step n).1 (p.step n).2 hn hn'
    by_cases ho : (p.label n).Of ws
    · exact (hlt ho).le
    · exact (heq ho).le
  · intro n hn hn' ho
    exact (rank_step (hsafe n) (p.step n).1 (p.step n).2 hn hn').1 ho

/-- In every run in which the user that a connect has found is still waiting, each connect registers
its user or claims one waiting user, none raises, and all end that go on. -/
theorem connects_end_cleanly (h : Opening start) :
    (∀ ls sys, (interleaved.guard Uncontested).Run start ls sys →
      Clean start sys ∧ ∀ l sys', (interleaved.guard Uncontested).step sys l sys' →
        Accounted sys l sys') ∧
    ∀ p : (interleaved.guard Uncontested).Path, p.state 0 = start → ∀ ws,
      (∀ n, (p.state n).Connecting ws → ∃ m ≥ n, (p.label m).Of ws) →
      ∀ n, ∃ m ≥ n, ¬ (p.state m).Connecting ws := by
  refine ⟨fun ls sys hr => ?_, fun p h₀ ws hfair n => connect_ends h p h₀ hfair n⟩
  have hsafe := safe_run h hr
  refine ⟨hsafe.orderly.clean, fun l sys' hstep => ?_⟩
  exact accounted_step hsafe hstep.1 hstep.2

end Run

/-! ### One connect, and two connects at once -/

def oneWaiting : Sys :=
  ⟨{ (State.initial .start).setRecord (.of 1) (recordOf (.plain (.of 1)) .empty) with
      waitingUsers := OrderedDict.empty.set (.of 1) ⟨1⟩ },
    OrderedDict.empty.set ⟨1⟩ ⟨.plain (.of 1), .empty, .idle⟩, []⟩

theorem opening_oneWaiting : Opening oneWaiting where
  log := rfl
  idle := by
    intro ws conn hc
    cases List.mem_singleton.mp (OrderedDict.get?_eq_some.mp hc)
    rfl
  records := by
    intro id record hrec
    by_cases he : id = .of 1
    · rw [he] at hrec
      rw [ExpiringStore.get_of_set hrec]
      decide
    · exact absurd ((ExpiringStore.get_set_ne _ _ _ _ _ he).symm.trans hrec) (fun h => nomatch h)
  waiting := by
    intro e he
    rw [List.mem_singleton.mp he]
    exact ⟨_, rfl, rfl⟩

def Sys.uncontested (sys : Sys) : Label → Bool
  | .connect _ _ query => query.filters.WellFormed
  | .act _ (.message _) => false
  | .act _ (.serve failure) => failure.isNone
  | .act ws (.resume _ _) =>
    match (sys.conns.get? ws).map Conn.status with
    | some (.ready (.connect (.reading otherId _)) _) => otherId ∈ sys.state.waitingUsers
    | _ => true
  | _ => true

theorem uncontested_of_check (sys : Sys) (l : Label) (h : sys.uncontested l = true) :
    Uncontested sys l := by
  refine ⟨?_, ?_⟩
  · cases l with
    | connect ws user query => exact (of_decide_eq_true h : query.filters.WellFormed)
    | elapse seconds today => trivial
    | act ws action =>
      cases action with
      | message msg => exact absurd h Bool.false_ne_true
      | hangup => trivial
      | serve failure => exact Option.isNone_iff_eq_none.mp h
      | resume hex drift => trivial
  · intro ws hex drift conn otherId rest parsed hl hc hs _
    subst hl
    simpa [Sys.uncontested, hc, hs] using h

def quietConnect : List Label :=
  .connect ⟨2⟩ (.plain (.of 2)) .empty ::
    ((List.replicate 5 [Action.serve none, .goesOn]).flatten ++ [Action.serve none]).map (.act ⟨2⟩)

theorem connects_end_cleanly_applied :
    Opening oneWaiting ∧ ∃ sys, (interleaved.guard Uncontested).Run oneWaiting quietConnect sys ∧
      claimedSockets sys.log = [⟨1⟩] ∧ Clean oneWaiting sys ∧
      ∃ p : (interleaved.guard Uncontested).Path, p.state 0 = oneWaiting ∧
        ∃ n, (p.state n).Connecting ⟨2⟩ ∧ ∃ m ≥ n, ¬ (p.state m).Connecting ⟨2⟩ := by
  obtain ⟨sys, last, hsys, hlast, hclaimed, hcon, hdone, hstay⟩ : ∃ sys last,
      Lts.exec (Lts.checked Sys.step Sys.uncontested) oneWaiting quietConnect = some sys ∧
      Lts.checked Sys.step Sys.uncontested sys (.act ⟨2⟩ .goesOn) = some last ∧
      claimedSockets sys.log = [⟨1⟩] ∧ sys.Connecting ⟨2⟩ ∧
      (last.conns.get? ⟨2⟩).map Conn.status = some .idle ∧
      last.step (.elapse 0 last.state.clock.today) = some last :=
    ⟨_, _, rfl, rfl, rfl, ⟨_, rfl, trivial⟩, rfl, rfl⟩
  have hr : (interleaved.guard Uncontested).Run oneWaiting quietConnect sys :=
    Lts.guard_run_of_checked uncontested_of_check hsys
  have hends : (interleaved.guard Uncontested).step sys (.act ⟨2⟩ .goesOn) last :=
    Lts.guard_step_of_checked uncontested_of_check hlast
  have hidle : ¬ last.Connecting ⟨2⟩ := by
    intro h
    obtain ⟨conn, hc, hs⟩ := h
    rw [hc, Option.map_some, Option.some.injEq] at hdone
    rw [hdone] at hs
    exact hs
  -- time passes when the connect has ended
  have hwait : (interleaved.guard Uncontested).step last
      (.elapse 0 last.state.clock.today) last :=
    ⟨uncontested_of_check _ _ rfl, hstay⟩
  obtain ⟨p, hp, N, hN⟩ := hr.extend (.cons sys _ (.constant hwait) hends) rfl
  have hpending : (p.state N).Connecting ⟨2⟩ := by
    have h := (hN 0).1
    rw [Nat.zero_add] at h
    exact h ▸ hcon
  have hdecided := connects_end_cleanly opening_oneWaiting
  refine ⟨opening_oneWaiting, sys, hr, hclaimed, (hdecided.1 _ _ hr).1, p, hp, N, hpending, ?_⟩
  apply hdecided.2 p hp ⟨2⟩
  intro n hn
  by_cases hle : n ≤ N
  · have h := (hN 0).2
    rw [Nat.zero_add] at h
    exact ⟨N, hle, .goesOn, h⟩
  · have h := (hN (n - N - 1 + 1)).1
    rw [show n - N - 1 + 1 + N = n by omega] at h
    rw [h] at hn
    exact absurd hn hidle

def contention : List Label :=
  [.connect ⟨2⟩ (.plain (.of 2)) .empty, .connect ⟨3⟩ (.plain (.of 3)) .empty] ++
  [Action.serve none, .goesOn, .serve none].map (.act ⟨2⟩) ++
  [Action.serve none, .goesOn, .serve none].map (.act ⟨3⟩) ++
  [.act ⟨2⟩ .goesOn, .act ⟨3⟩ .goesOn]

theorem contended_connect_raises :
    ¬ ∀ start, Opening start →
      (∀ id ∈ start.state.waitingUsers, ∃ record, start.state.getRecord id = some record) →
      ∀ ls sys, (interleaved.guard fun _ l => l.Admitted).Run start ls sys → Clean start sys := by
  intro h
  obtain ⟨sys, hsys, hraised⟩ : ∃ sys, Lts.exec Sys.step oneWaiting contention = some sys ∧
      .raised ⟨3⟩ .keyError ∈ sys.log := ⟨_, rfl, by decide +kernel⟩
  have hadm : ∀ l ∈ contention, l.Admitted := by
    intro l hl
    simp only [contention, List.map_cons, List.map_nil, List.cons_append, List.nil_append,
      List.mem_cons, List.not_mem_nil, or_false] at hl
    rcases hl with rfl | rfl | rfl | rfl | rfl | rfl | rfl | rfl | rfl | rfl
    · exact (by decide : QueryParams.empty.filters.WellFormed)
    · exact (by decide : QueryParams.empty.filters.WellFormed)
    all_goals first | rfl | trivial
  have hrecords : ∀ id ∈ oneWaiting.state.waitingUsers, ∃ record,
      oneWaiting.state.getRecord id = some record := by
    intro id hid
    obtain ⟨ws, hmem⟩ := OrderedDict.mem_iff_exists.mp hid
    cases List.mem_singleton.mp hmem
    exact ⟨recordOf (.plain (.of 1)) .empty, by decide +kernel⟩
  have hclean := h oneWaiting opening_oneWaiting hrecords _ _
    ((Lts.run_of_exec hsys).guard_labels hadm)
  exact hclean.unraised ⟨3⟩ .keyError hraised

end Nalang.Matchmaking
