import Nalang.Library.OrderedDict
import Nalang.Library.ExpiringStore
import Nalang.Matchmaking.IsMatch
import Mathlib.Data.Finset.Card

/-!
# The matchmaking handlers, each run without interruption

`handleConnect`, `handleReceiveEvent` and `handleDisconnect` read and write the
three module tables and the `call:user:{id}` keys of Redis. The network decides
the fate of every `send_json`; exceptions leave the writes made so far in place.
-/

namespace Nalang.Matchmaking
open Python

structure MatchCandidate where
  userIds : List UserId
  sockets : List Socket
  accepted : Finset UserId

structure Clock where
  now : ℕ
  today : Date

structure State where
  waitingUsers : OrderedDict UserId Socket
  matchingCandidates : OrderedDict String MatchCandidate
  enteredUsers : Finset UserId
  redis : ExpiringStore UserId CallRecord
  clock : Clock

def State.initial (clock : Clock) : State :=
  ⟨.empty, .empty, ∅, .empty, clock⟩

/-- `none` if the `n`-th `send_json` of the call succeeds when it goes to the given socket,
otherwise the exception it raises. -/
abbrev Net := ℕ → Socket → Option PyError

/-- An attempt to send, with the exception it raised, if any. -/
structure Sent where
  socket : Socket
  event : ServerEvent
  failure : Option PyError
  deriving DecidableEq

structure Outcome where
  state : State
  sent : List Sent
  raised : Option PyError

namespace State

def rooms (st : State) : List (String × MatchCandidate) := st.matchingCandidates.entries

def getRecord (st : State) (id : UserId) : Option CallRecord := st.redis.get st.clock.now id

def setRecord (st : State) (id : UserId) (record : CallRecord) : State :=
  { st with redis := st.redis.set st.clock.now id record 600 }

def deleteRecord (st : State) (id : UserId) : State :=
  { st with redis := st.redis.delete id }

@[simp] theorem setRecord_waitingUsers (st : State) (id : UserId) (r : CallRecord) :
    (st.setRecord id r).waitingUsers = st.waitingUsers := rfl
@[simp] theorem setRecord_matchingCandidates (st : State) (id : UserId) (r : CallRecord) :
    (st.setRecord id r).matchingCandidates = st.matchingCandidates := rfl
@[simp] theorem setRecord_enteredUsers (st : State) (id : UserId) (r : CallRecord) :
    (st.setRecord id r).enteredUsers = st.enteredUsers := rfl
@[simp] theorem setRecord_clock (st : State) (id : UserId) (r : CallRecord) :
    (st.setRecord id r).clock = st.clock := rfl
@[simp] theorem deleteRecord_waitingUsers (st : State) (id : UserId) :
    (st.deleteRecord id).waitingUsers = st.waitingUsers := rfl
@[simp] theorem deleteRecord_matchingCandidates (st : State) (id : UserId) :
    (st.deleteRecord id).matchingCandidates = st.matchingCandidates := rfl
@[simp] theorem deleteRecord_enteredUsers (st : State) (id : UserId) :
    (st.deleteRecord id).enteredUsers = st.enteredUsers := rfl
@[simp] theorem deleteRecord_clock (st : State) (id : UserId) :
    (st.deleteRecord id).clock = st.clock := rfl

end State

/-! ### `handle_connect` -/

def findPartner (st : State) (userId : UserId) (userData : UserData) (filters : Filters) :
    List (UserId × Socket) → Except PyError (Option UserId)
  | [] => .ok none
  | (otherId, _) :: rest =>
    if otherId = userId then findPartner st userId userData filters rest
    else
      match st.getRecord otherId with
      | none => findPartner st userId userData filters rest
      | some parsed =>
        match mutualMatch st.clock.today parsed userData filters with
        | .error e => .error e
        | .ok true => .ok (some otherId)
        | .ok false => findPartner st userId userData filters rest

/-- `if matched_user_id:` tests the number, not only its presence. -/
def truthyId : Option UserId → Option UserId
  | none => none
  | some id => if id.val = 0 then none else some id

@[simp] theorem truthyId_eq (id : Option UserId) : truthyId id = id := by
  cases id with
  | none => rfl
  | some id => exact if_neg (Nat.ne_of_gt id.pos)

def register (st : State) (userId : UserId) (ws : Socket) : State :=
  { st with waitingUsers := st.waitingUsers.set userId ws }

def claim (st : State) (userId : UserId) (ws : Socket) (partner : UserId) (ws2 : Socket)
    (room : String) : State :=
  { st with
    waitingUsers := st.waitingUsers.erase partner
    matchingCandidates := st.matchingCandidates.set room ⟨[userId, partner], [ws, ws2], ∅⟩ }

def propose (net : Net) (st : State) (userId : UserId) (ws1 : Socket) (partner : UserId)
    (ws2 : Socket) (room : String) : Outcome :=
  match net 0 ws1 with
  | some e => ⟨st, [⟨ws1, .matchProposal room partner, some e⟩], some e⟩
  | none =>
    match net 1 ws2 with
    | some e => ⟨st, [⟨ws1, .matchProposal room partner, none⟩,
        ⟨ws2, .matchProposal room userId, some e⟩], some e⟩
    | none => ⟨(st.deleteRecord userId).deleteRecord partner,
        [⟨ws1, .matchProposal room partner, none⟩, ⟨ws2, .matchProposal room userId, none⟩], none⟩

def handleConnect (net : Net) (hex : String) (ws : Socket) (user : User) (query : QueryParams)
    (st : State) : Outcome :=
  let userData := user.userData
  let filters := query.filters
  let st := st.setRecord user.id ⟨userData, filters⟩
  match findPartner st user.id userData filters st.waitingUsers.entries with
  | .error e => ⟨st, [], some e⟩
  | .ok matchedUserId =>
    match truthyId matchedUserId with
    | none => ⟨register st user.id ws, [], none⟩
    | some partner =>
      match st.waitingUsers.get? partner with
      | none => ⟨st, [], some .keyError⟩
      | some ws2 =>
        let room := roomName user.id partner hex
        propose net (claim st user.id ws partner ws2 room) user.id ws partner ws2 room

/-! ### `handle_receive_event` -/

/-- A loop of unguarded sends: the first exception ends it. -/
def sendEach (net : Net) (event : ServerEvent) : ℕ → List Socket → List Sent × Option PyError
  | _, [] => ([], none)
  | n, sock :: socks =>
    match net n sock with
    | some e => ([⟨sock, event, some e⟩], some e)
    | none =>
      let r := sendEach net event (n + 1) socks
      (⟨sock, event, none⟩ :: r.1, r.2)

def handleAccept (net : Net) (userId : UserId) (room : String) (data : MatchCandidate)
    (st : State) : Outcome :=
  let data := { data with accepted := insert userId data.accepted }
  let st := { st with matchingCandidates := st.matchingCandidates.set room data }
  if data.accepted.card = 2 then
    match sendEach net (.matched room) 0 data.sockets with
    | (sent, some e) => ⟨st, sent, some e⟩
    | (sent, none) =>
      ⟨{ st with matchingCandidates := st.matchingCandidates.erase room }, sent, none⟩
  else ⟨st, [], none⟩

/-- The loop over `enumerate(user_ids)`: `idx` counts the ids, `n` the sends. -/
def rejectLoop (net : Net) (userId : UserId) (sockets : List Socket) :
    ℕ → ℕ → List UserId → OrderedDict UserId Socket →
      OrderedDict UserId Socket × List Sent × Option PyError
  | _, _, [], waiting => (waiting, [], none)
  | idx, n, uid :: uids, waiting =>
    if uid ≠ userId then
      match sockets[idx]? with
      | none => (waiting, [], some .indexError)
      | some sock =>
        let waiting := if (net n sock).isNone then waiting.set uid sock else waiting
        let r := rejectLoop net userId sockets (idx + 1) (n + 1) uids waiting
        (r.1, ⟨sock, .rejected, net n sock⟩ :: r.2.1, r.2.2)
    else rejectLoop net userId sockets (idx + 1) n uids waiting

def handleRejected (net : Net) (userId : UserId) (room : String) (data : MatchCandidate)
    (st : State) : Outcome :=
  match rejectLoop net userId data.sockets 0 0 data.userIds st.waitingUsers with
  | (waiting, sent, some e) => ⟨{ st with waitingUsers := waiting }, sent, some e⟩
  | (waiting, sent, none) =>
    ⟨{ st with waitingUsers := waiting, matchingCandidates := st.matchingCandidates.erase room },
      sent, none⟩

def handleRoomEvent (net : Net) (userId : UserId) (event : Json) (room : String)
    (data : MatchCandidate) (st : State) : Outcome :=
  match event with
  | .str "entered" => ⟨{ st with enteredUsers := insert userId st.enteredUsers }, [], none⟩
  | .str "accept" => handleAccept net userId room data st
  | .str "rejected" => handleRejected net userId room data st
  | _ => ⟨st, [], none⟩

def handleReceiveEvent (net : Net) (userId : UserId) (msg : Json) (st : State) : Outcome :=
  match msg.get "event", msg.get "room" with
  | .error e, _ => ⟨st, [], some e⟩
  | .ok _, .error e => ⟨st, [], some e⟩
  | .ok event, .ok room =>
    if event.printable ∧ room.printable then
      match room.asRoomKey with
      | .error e => ⟨st, [], some e⟩
      | .ok none => ⟨st, [], none⟩
      | .ok (some room) =>
        match st.matchingCandidates.get? room with
        | none => ⟨st, [], none⟩
        | some data => handleRoomEvent net userId event room data st
    else ⟨st, [], some .unicodeEncodeError⟩

/-! ### `handle_disconnect` -/

/-- A loop of sends each in its own `try`. -/
def notifyEach (net : Net) (event : ServerEvent) : ℕ → List Socket → List Sent
  | _, [] => []
  | n, sock :: socks => ⟨sock, event, net n sock⟩ :: notifyEach net event (n + 1) socks

/-- The loop over `matching_candidates.items()`: the state, the sends and `to_remove`. -/
def disconnectLoop (net : Net) (userId : UserId) :
    ℕ → List (String × MatchCandidate) → State → State × List Sent × List String
  | _, [], st => (st, [], [])
  | n, (room, data) :: rooms, st =>
    if userId ∈ data.userIds then
      if userId ∈ st.enteredUsers then
        let r := disconnectLoop net userId n rooms st
        (r.1, r.2.1, room :: r.2.2)
      else
        let sent := notifyEach net .disconnected n data.sockets
        let r := disconnectLoop net userId (n + sent.length) rooms (st.deleteRecord userId)
        (r.1, sent ++ r.2.1, room :: r.2.2)
    else disconnectLoop net userId n rooms st

def handleDisconnect (net : Net) (userId : UserId) (st : State) : Outcome :=
  let st :=
    if userId ∈ st.waitingUsers then
      { st with waitingUsers := st.waitingUsers.erase userId }.deleteRecord userId
    else st
  let r := disconnectLoop net userId 0 st.matchingCandidates.entries st
  ⟨{ r.1 with
      matchingCandidates := r.1.matchingCandidates.eraseAll r.2.2
      enteredUsers := r.1.enteredUsers.erase userId }, r.2.1, none⟩

end Nalang.Matchmaking
