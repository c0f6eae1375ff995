import Nalang.Matchmaking.HandlerSpecs

/-!
# The handlers as coroutines

Every `await` of the source is a point where a handler is suspended, with the
local variables it still needs. Resuming it runs the code up to the next
`await`, to the end of the handler or to an exception.
-/

namespace Nalang.Matchmaking
open Python

inductive Request
  | redisSet (id : UserId) (record : CallRecord)
  | redisGet (id : UserId)
  | redisDelete (id : UserId)
  | send (socket : Socket) (event : ServerEvent)
  deriving DecidableEq

/-- The exception the `await` raises, or the value it has: only `redis_client.get` has one. -/
abbrev Reply := Except PyError (Option CallRecord)

/-- Redis answers every command; a send fails or not. -/
def Request.perform (failure : Option PyError) (st : State) : Request → State × Reply
  | .redisSet id record => (st.setRecord id record, .ok none)
  | .redisGet id => (st, .ok (st.getRecord id))
  | .redisDelete id => (st.deleteRecord id, .ok none)
  | .send _ _ =>
    match failure with
    | none => (st, .ok none)
    | some e => (st, .error e)

inductive Effect
  | registered (id : UserId) (ws : Socket)
  | claimed (id partner : UserId) (ws2 : Socket) (room : String)
  | accepted (room : String) (id : UserId)
  | requeued (room : String) (id : UserId) (sock : Socket)
  deriving DecidableEq

inductive Next (π : Type)
  | awaits (request : Request) (point : π)
  | returns
  | raises (e : PyError)

structure Turn (π : Type) where
  state : State
  effects : List Effect
  next : Next π

/-! ### `handle_connect` -/

inductive ConnectPoint
  | storing
  | reading (otherId : UserId) (rest : List (UserId × Socket))
  | proposing (partner : UserId) (ws2 : Socket) (room : String)
  | proposingPartner (partner : UserId)
  | deleting (partner : UserId)
  | deletingPartner

def ConnectPoint.Undecided : ConnectPoint → Prop
  | .storing => True
  | .reading _ _ => True
  | _ => False

section Connect
variable (hex : String) (ws : Socket) (user : User) (query : QueryParams)

def connectStart (st : State) : Turn ConnectPoint :=
  ⟨st, [], .awaits (.redisSet user.id ⟨user.userData, query.filters⟩) .storing⟩

/-- The loop over the rest of the snapshot, up to the next `redis_client.get`. -/
def connectScan (st : State) : List (UserId × Socket) → Turn ConnectPoint
  | [] => ⟨register st user.id ws, [.registered user.id ws], .returns⟩
  | (otherId, _) :: rest =>
    if otherId = user.id then connectScan st rest
    else ⟨st, [], .awaits (.redisGet otherId) (.reading otherId rest)⟩

def connectClaim (st : State) (partner : UserId) : Turn ConnectPoint :=
  match st.waitingUsers.get? partner with
  | none => ⟨st, [], .raises .keyError⟩
  | some ws2 =>
    let room := roomName user.id partner hex
    ⟨claim st user.id ws partner ws2 room, [.claimed user.id partner ws2 room],
      .awaits (.send ws (.matchProposal room partner)) (.proposing partner ws2 room)⟩

def connectResume (point : ConnectPoint) (reply : Reply) (st : State) : Turn ConnectPoint :=
  match reply with
  | .error e => ⟨st, [], .raises e⟩
  | .ok value =>
    match point with
    | .storing => connectScan ws user st st.waitingUsers.entries
    | .reading otherId rest =>
      match value with
      | none => connectScan ws user st rest
      | some parsed =>
        match mutualMatch st.clock.today parsed user.userData query.filters with
        | .error e => ⟨st, [], .raises e⟩
        | .ok true => connectClaim hex ws user st otherId
        | .ok false => connectScan ws user st rest
    | .proposing partner ws2 room =>
      ⟨st, [], .awaits (.send ws2 (.matchProposal room user.id)) (.proposingPartner partner)⟩
    | .proposingPartner partner => ⟨st, [], .awaits (.redisDelete user.id) (.deleting partner)⟩
    | .deleting partner => ⟨st, [], .awaits (.redisDelete partner) .deletingPartner⟩
    | .deletingPartner => ⟨st, [], .returns⟩

end Connect

/-! ### `handle_receive_event` -/

inductive EventPoint
  | matching (room : String) (rest : List Socket)
  | rejecting (room : String) (sockets : List Socket) (uid : UserId) (sock : Socket) (idx : ℕ)
      (rest : List UserId)

def deleteRoom (st : State) (room : String) : Turn EventPoint :=
  if room ∈ st.matchingCandidates then
    ⟨{ st with matchingCandidates := st.matchingCandidates.erase room }, [], .returns⟩
  else ⟨st, [], .raises .keyError⟩

def matchNext (room : String) (st : State) : List Socket → Turn EventPoint
  | [] => deleteRoom st room
  | sock :: rest => ⟨st, [], .awaits (.send sock (.matched room)) (.matching room rest)⟩

def rejectNext (userId : UserId) (room : String) (sockets : List Socket) (st : State) :
    ℕ → List UserId → Turn EventPoint
  | _, [] => deleteRoom st room
  | idx, uid :: uids =>
    if uid ≠ userId then
      match sockets[idx]? with
      | none => ⟨st, [], .raises .indexError⟩
      | some sock =>
        ⟨st, [], .awaits (.send sock .rejected) (.rejecting room sockets uid sock (idx + 1) uids)⟩
    else rejectNext userId room sockets st (idx + 1) uids

def acceptStart (userId : UserId) (room : String) (data : MatchCandidate) (st : State) :
    Turn EventPoint :=
  let data := { data with accepted := insert userId data.accepted }
  let st := { st with matchingCandidates := st.matchingCandidates.set room data }
  if data.accepted.card = 2 then
    let t := matchNext room st data.sockets
    { t with effects := .accepted room userId :: t.effects }
  else ⟨st, [.accepted room userId], .returns⟩

def roomEventStart (userId : UserId) (event : Json) (room : String) (data : MatchCandidate)
    (st : State) : Turn EventPoint :=
  match event with
  | .str "entered" => ⟨{ st with enteredUsers := insert userId st.enteredUsers }, [], .returns⟩
  | .str "accept" => acceptStart userId room data st
  | .str "rejected" => rejectNext userId room data.sockets st 0 data.userIds
  | _ => ⟨st, [], .returns⟩

def eventStart (userId : UserId) (msg : Json) (st : State) : Turn EventPoint :=
  match msg.get "event", msg.get "room" with
  | .error e, _ => ⟨st, [], .raises e⟩
  | .ok _, .error e => ⟨st, [], .raises e⟩
  | .ok event, .ok room =>
    if event.printable ∧ room.printable then
      match room.asRoomKey with
      | .error e => ⟨st, [], .raises e⟩
      | .ok none => ⟨st, [], .returns⟩
      | .ok (some room) =>
        match st.matchingCandidates.get? room with
        | none => ⟨st, [], .returns⟩
        | some data => roomEventStart userId event room data st
    else ⟨st, [], .raises .unicodeEncodeError⟩

theorem eventStart_of_names (userId : UserId) {msg event : Json} {room : String} {st : State}
    (hn : Names msg event room) (hp : event.printable) :
    eventStart userId msg st =
      match st.matchingCandidates.get? room with
      | none => ⟨st, [], .returns⟩
      | some data => roomEventStart userId event room data st := by
  simp [eventStart, hn.1, hn.2, hp, Json.asRoomKey]

def requeue (st : State) (uid : UserId) (sock : Socket) : State :=
  { st with waitingUsers := st.waitingUsers.set uid sock }

def eventResume (userId : UserId) (point : EventPoint) (reply : Reply) (st : State) :
    Turn EventPoint :=
  match point with
  | .matching room rest =>
    match reply with
    | .error e => ⟨st, [], .raises e⟩
    | .ok _ => matchNext room st rest
  | .rejecting room sockets uid sock idx rest =>
    match reply with
    | .error _ => rejectNext userId room sockets st idx rest
    | .ok _ =>
      let t := rejectNext userId room sockets (requeue st uid sock) idx rest
      { t with effects := .requeued room uid sock :: t.effects }

/-! ### `handle_disconnect` -/

inductive DisconnectPoint
  | deletingOwn
  | notifying (room : String) (rest : List Socket) (cursor : OrderedDict.Cursor String)
      (toRemove : List String)
  | deletingKey (room : String) (cursor : OrderedDict.Cursor String) (toRemove : List String)

section Disconnect
variable (userId : UserId)

def disconnectRemove (st : State) : List String → Turn DisconnectPoint
  | [] => ⟨{ st with enteredUsers := st.enteredUsers.erase userId }, [], .returns⟩
  | r :: rs =>
    if r ∈ st.matchingCandidates then
      disconnectRemove { st with matchingCandidates := st.matchingCandidates.erase r } rs
    else ⟨st, [], .raises .keyError⟩

theorem disconnectRemove_eq {st : State} {rs : List String} (hn : rs.Nodup)
    (h : ∀ r ∈ rs, r ∈ st.matchingCandidates) :
    disconnectRemove userId st rs =
      ⟨{ st with
          matchingCandidates := st.matchingCandidates.eraseAll rs
          enteredUsers := st.enteredUsers.erase userId }, [], .returns⟩ := by
  induction rs generalizing st with
  | nil => rfl
  | cons r rs ih =>
    obtain ⟨hr, hn⟩ := List.nodup_cons.mp hn
    obtain ⟨hin, h⟩ := List.forall_mem_cons.mp h
    unfold disconnectRemove
    rw [if_pos hin, ih hn]
    · rfl
    · intro r' hr'
      exact OrderedDict.mem_erase.mpr ⟨fun he => hr (he ▸ hr'), h r' hr'⟩

def notifyNext (st : State) (room : String) (cursor : OrderedDict.Cursor String)
    (toRemove : List String) : List Socket → Turn DisconnectPoint
  | [] => ⟨st, [], .awaits (.redisDelete userId) (.deletingKey room cursor toRemove)⟩
  | sock :: rest =>
    ⟨st, [], .awaits (.send sock .disconnected) (.notifying room rest cursor toRemove)⟩

/-- The loop over the keys that the iterator visits, up to the next `await`. -/
def disconnectScan (st : State) (cursor : OrderedDict.Cursor String) (fails : Bool) :
    List String → List String → Turn DisconnectPoint
  | [], toRemove =>
    if fails then ⟨st, [], .raises .runtimeError⟩ else disconnectRemove userId st toRemove
  | room :: rest, toRemove =>
    match st.matchingCandidates.get? room with
    | none => disconnectScan st cursor fails rest toRemove
    | some data =>
      if userId ∈ data.userIds then
        if userId ∈ st.enteredUsers then disconnectScan st cursor fails rest (toRemove ++ [room])
        else notifyNext userId st room { cursor with rest := rest } toRemove data.sockets
      else disconnectScan st cursor fails rest toRemove

def disconnectNext (drift : OrderedDict.Drift String) (st : State)
    (cursor : OrderedDict.Cursor String) (toRemove : List String) : Turn DisconnectPoint :=
  let ahead := cursor.ahead st.matchingCandidates drift
  disconnectScan userId st cursor ahead.2 ahead.1 toRemove

theorem disconnectNext_of_version (drift : OrderedDict.Drift String) {st : State}
    {cursor : OrderedDict.Cursor String} (h : st.matchingCandidates.version = cursor.version)
    (toRemove : List String) :
    disconnectNext userId drift st cursor toRemove =
      disconnectScan userId st cursor false cursor.rest toRemove := by
  unfold disconnectNext
  rw [OrderedDict.Cursor.ahead_of_version drift h]

def disconnectRooms (st : State) : Turn DisconnectPoint :=
  disconnectNext userId ⟨[], false⟩ st st.matchingCandidates.cursor []

def disconnectStart (st : State) : Turn DisconnectPoint :=
  if userId ∈ st.waitingUsers then
    ⟨{ st with waitingUsers := st.waitingUsers.erase userId }, [],
      .awaits (.redisDelete userId) .deletingOwn⟩
  else disconnectRooms userId st

def disconnectResume (drift : OrderedDict.Drift String) (point : DisconnectPoint) (reply : Reply)
    (st : State) : Turn DisconnectPoint :=
  match point with
  | .deletingOwn =>
    match reply with
    | .error e => ⟨st, [], .raises e⟩
    | .ok _ => disconnectRooms userId st
  | .notifying room rest cursor toRemove => notifyNext userId st room cursor toRemove rest
  | .deletingKey room cursor toRemove =>
    match reply with
    | .error e => ⟨st, [], .raises e⟩
    | .ok _ => disconnectNext userId drift st cursor (toRemove ++ [room])

end Disconnect

end Nalang.Matchmaking
