import Nalang.Matchmaking.Coroutines

/-!
# Handlers that nobody interrupts

A coroutine whose requests are all served at once, with nothing in between, does
what the handler does that is run in one piece.
-/

namespace Nalang.Matchmaking
open Python

/-- The outcome of a coroutine from its current turn on; `n` counts its sends. -/
inductive Finishes {π : Type} (net : Net) (resume : π → Reply → State → Turn π) :
    ℕ → Turn π → Outcome → Prop
  | returns {n : ℕ} {st : State} {es : List Effect} :
      Finishes net resume n ⟨st, es, .returns⟩ ⟨st, [], none⟩
  | raises {n : ℕ} {st : State} {es : List Effect} {e : PyError} :
      Finishes net resume n ⟨st, es, .raises e⟩ ⟨st, [], some e⟩
  | sends {n : ℕ} {st : State} {es : List Effect} {sock : Socket} {event : ServerEvent} {p : π}
      {st' : State} {sent : List Sent} {raised : Option PyError}
      (h : Finishes net resume (n + 1)
        (resume p ((Request.send sock event).perform (net n sock) st).2 st) ⟨st', sent, raised⟩) :
      Finishes net resume n ⟨st, es, .awaits (.send sock event) p⟩
        ⟨st', ⟨sock, event, net n sock⟩ :: sent, raised⟩
  | commands {n : ℕ} {st : State} {es : List Effect} {request : Request} {p : π} {o : Outcome}
      (hr : ∀ sock event, request ≠ .send sock event)
      (h : Finishes net resume n
        (resume p (request.perform none st).2 (request.perform none st).1) o) :
      Finishes net resume n ⟨st, es, .awaits request p⟩ o

variable {net : Net}

theorem Finishes.with_effects {π : Type} {resume : π → Reply → State → Turn π} {n : ℕ} {t : Turn π}
    {o : Outcome} (h : Finishes net resume n t o) (es : List Effect) :
    Finishes net resume n { t with effects := es } o := by
  cases h with
  | returns => exact .returns
  | raises => exact .raises
  | sends h => exact .sends h
  | commands hr h => exact .commands hr h

section Sends
variable {π : Type} {resume : π → Reply → State → Turn π} {n : ℕ} {st st' : State} {sock : Socket}
  {p : π} {out : List Sent} {raised : Option PyError}

theorem Finishes.sent (es : List Effect) (event : ServerEvent) (hn : net n sock = none)
    (h : Finishes net resume (n + 1) (resume p (.ok none) st) ⟨st', out, raised⟩) :
    Finishes net resume n ⟨st, es, .awaits (.send sock event) p⟩
      ⟨st', ⟨sock, event, none⟩ :: out, raised⟩ := by
  have hs : Finishes net resume n ⟨st, es, .awaits (.send sock event) p⟩
      ⟨st', ⟨sock, event, net n sock⟩ :: out, raised⟩ := by
    apply Finishes.sends
    rw [hn]
    exact h
  rwa [hn] at hs

theorem Finishes.failed (es : List Effect) (event : ServerEvent) {e : PyError}
    (hn : net n sock = some e)
    (h : Finishes net resume (n + 1) (resume p (.error e) st) ⟨st', out, raised⟩) :
    Finishes net resume n ⟨st, es, .awaits (.send sock event) p⟩
      ⟨st', ⟨sock, event, some e⟩ :: out, raised⟩ := by
  have hs : Finishes net resume n ⟨st, es, .awaits (.send sock event) p⟩
      ⟨st', ⟨sock, event, net n sock⟩ :: out, raised⟩ := by
    apply Finishes.sends
    rw [hn]
    exact h
  rwa [hn] at hs

end Sends

/-! ### `handle_connect` -/

section Connect
variable {hex : String} {ws : Socket} {user : User} {query : QueryParams}

def afterLoop (net : Net) (hex : String) (ws : Socket) (user : User) (st : State) :
    Except PyError (Option UserId) → Outcome
  | .error e => ⟨st, [], some e⟩
  | .ok none => ⟨register st user.id ws, [], none⟩
  | .ok (some partner) =>
    match st.waitingUsers.get? partner with
    | none => ⟨st, [], some .keyError⟩
    | some ws2 => propose net (claim st user.id ws partner ws2 (roomName user.id partner hex)) user.id
        ws partner ws2 (roomName user.id partner hex)

theorem handleConnect_afterLoop (net : Net) (hex : String) (ws : Socket) (user : User)
    (query : QueryParams) (st : State) :
    handleConnect net hex ws user query st =
      afterLoop net hex ws user (st.setRecord user.id (recordOf user query))
        (partnerFor user query st) := by
  unfold handleConnect partnerFor recordOf
  dsimp only
  split
  · rename_i h
    simp only [State.setRecord_waitingUsers] at h
    rw [h]
    rfl
  · rename_i m h
    simp only [State.setRecord_waitingUsers] at h
    rw [h, truthyId_eq]
    cases m with
    | none => rfl
    | some partner => rfl

theorem connectClaim_finishes (st : State) (partner : UserId) :
    Finishes net (connectResume hex ws user query) 0 (connectClaim hex ws user st partner)
      (afterLoop net hex ws user st (.ok (some partner))) := by
  unfold connectClaim afterLoop
  dsimp only
  cases hg : st.waitingUsers.get? partner with
  | none => exact .raises
  | some ws2 =>
    unfold propose
    cases h₀ : net 0 ws with
    | some e => exact .failed _ _ h₀ .raises
    | none =>
      cases h₁ : net 1 ws2 with
      | some e =>
        simp only [h₁]
        refine .sent _ _ h₀ ?_
        exact .failed _ _ h₁ .raises
      | none =>
        simp only [h₁]
        refine .sent _ _ h₀ ?_
        refine .sent _ _ h₁ ?_
        refine .commands (by simp) ?_
        refine .commands (by simp) ?_
        exact .returns

theorem connectScan_finishes (st : State) (es : List (UserId × Socket)) :
    Finishes net (connectResume hex ws user query) 0 (connectScan ws user st es)
      (afterLoop net hex ws user st (findPartner st user.id user.userData query.filters es)) := by
  induction es with
  | nil => exact .returns
  | cons e es ih =>
    obtain ⟨otherId, sock⟩ := e
    unfold connectScan findPartner
    by_cases hself : otherId = user.id
    · rw [if_pos hself, if_pos hself]
      exact ih
    rw [if_neg hself, if_neg hself]
    refine .commands (by simp) ?_
    unfold Request.perform connectResume
    dsimp only
    cases st.getRecord otherId with
    | none => exact ih
    | some parsed =>
      dsimp only
      rcases mutualMatch st.clock.today parsed user.userData query.filters with e | b
      · exact .raises
      · cases b with
        | true => exact connectClaim_finishes st otherId
        | false => exact ih

theorem handleConnect_finishes (net : Net) (hex : String) (ws : Socket) (user : User)
    (query : QueryParams) (st : State) :
    Finishes net (connectResume hex ws user query) 0 (connectStart user query st)
      (handleConnect net hex ws user query st) := by
  rw [handleConnect_afterLoop]
  refine .commands (by simp) ?_
  exact connectScan_finishes (st.setRecord user.id (recordOf user query)) st.waitingUsers.entries

end Connect

/-! ### `handle_receive_event` -/

section Event
variable {userId : UserId} {room : String}

theorem deleteRoom_finishes {st : State} (n : ℕ) (h : room ∈ st.matchingCandidates) :
    Finishes net (eventResume userId) n (deleteRoom st room)
      ⟨{ st with matchingCandidates := st.matchingCandidates.erase room }, [], none⟩ := by
  unfold deleteRoom
  rw [if_pos h]
  exact .returns

theorem matchNext_finishes {st : State} (h : room ∈ st.matchingCandidates) (n : ℕ)
    (socks : List Socket) :
    Finishes net (eventResume userId) n (matchNext room st socks)
      (match sendEach net (.matched room) n socks with
      | (sent, some e) => ⟨st, sent, some e⟩
      | (sent, none) =>
        ⟨{ st with matchingCandidates := st.matchingCandidates.erase room }, sent, none⟩) := by
  induction socks generalizing n with
  | nil => exact deleteRoom_finishes n h
  | cons sock socks ih =>
    unfold matchNext sendEach
    cases hn : net n sock with
    | some e => exact .failed _ _ hn .raises
    | none =>
      have hrest := Finishes.sent [] (.matched room)
        (p := EventPoint.matching room socks) hn (ih (n + 1))
      dsimp only at hrest ⊢
      rcases hr : sendEach net (.matched room) (n + 1) socks with ⟨sent, _ | e⟩
      · rw [hr] at hrest
        exact hrest
      · rw [hr] at hrest
        exact hrest

theorem rejectNext_finishes {sockets : List Socket} {st : State} (h : room ∈ st.matchingCandidates)
    (idx n : ℕ) (uids : List UserId) :
    Finishes net (eventResume userId) n (rejectNext userId room sockets st idx uids)
      (match rejectLoop net userId sockets idx n uids st.waitingUsers with
      | (waiting, sent, some e) => ⟨{ st with waitingUsers := waiting }, sent, some e⟩
      | (waiting, sent, none) =>
        ⟨{ st with
            waitingUsers := waiting
            matchingCandidates := st.matchingCandidates.erase room }, sent, none⟩) := by
  induction uids generalizing idx n st with
  | nil => exact deleteRoom_finishes n h
  | cons uid uids ih =>
    unfold rejectNext rejectLoop
    by_cases hu : uid ≠ userId
    · rw [if_pos hu, if_pos hu]
      cases hs : sockets[idx]? with
      | none => exact .raises
      | some sock =>
        dsimp only
        cases hn : net n sock with
        | some e =>
          have hrest := Finishes.failed [] .rejected
            (p := EventPoint.rejecting room sockets uid sock (idx + 1) uids) hn
            (ih h (idx + 1) (n + 1))
          simp only [Option.isNone_some, Bool.false_eq_true, if_false]
          rcases hr : rejectLoop net userId sockets (idx + 1) (n + 1) uids st.waitingUsers with
            ⟨waiting, sent, _ | e⟩
          · rw [hr] at hrest
            exact hrest
          · rw [hr] at hrest
            exact hrest
        | none =>
          have hin : room ∈ (requeue st uid sock).matchingCandidates := h
          have hnext := (ih hin (idx + 1) (n + 1)).with_effects
            (.requeued room uid sock ::
              (rejectNext userId room sockets (requeue st uid sock) (idx + 1) uids).effects)
          have hrest := Finishes.sent [] .rejected
            (p := EventPoint.rejecting room sockets uid sock (idx + 1) uids) hn hnext
          simp only [Option.isNone_none, if_true]
          simp only [requeue] at hrest
          rcases hr : rejectLoop net userId sockets (idx + 1) (n + 1) uids
            (st.waitingUsers.set uid sock) with ⟨waiting, sent, _ | e⟩
          · rw [hr] at hrest
            exact hrest
          · rw [hr] at hrest
            exact hrest
    · rw [if_neg hu, if_neg hu]
      exact ih h (idx + 1) n

theorem handleReceiveEvent_finishes (net : Net) (userId : UserId) (msg : Json) (st : State) :
    Finishes net (eventResume userId) 0 (eventStart userId msg st)
      (handleReceiveEvent net userId msg st) := by
  unfold eventStart handleReceiveEvent
  rcases msg.get "event" with e | event
  · exact .raises
  rcases msg.get "room" with e | roomJson
  · exact .raises
  dsimp only
  split_ifs
  swap
  · exact .raises
  rcases roomJson.asRoomKey with e | room
  · exact .raises
  cases room with
  | none => exact .returns
  | some room =>
    dsimp only
    cases hg : st.matchingCandidates.get? room with
    | none => exact .returns
    | some data =>
      have hin : room ∈ st.matchingCandidates := OrderedDict.mem_of_get? hg
      dsimp only
      unfold roomEventStart
      split
      · exact .returns
      · unfold handleRoomEvent acceptStart handleAccept
        dsimp only
        split_ifs with hc
        · have hset : room ∈ st.matchingCandidates.set room
              ({ data with accepted := insert userId data.accepted }) :=
            OrderedDict.mem_set.mpr (.inl rfl)
          exact (matchNext_finishes hset 0 data.sockets).with_effects _
        · exact .returns
      · unfold handleRoomEvent handleRejected
        exact rejectNext_finishes hin 0 0 data.userIds
      · rename_i hentered haccept hrejected
        rcases handleRoomEvent_cases net userId event room data st with
          ⟨h, _⟩ | ⟨h, _⟩ | ⟨h, _⟩ | ⟨_, _, _, hr⟩
        · exact absurd h hentered
        · exact absurd h haccept
        · exact absurd h hrejected
        · rw [hr]
          exact .returns

end Event

/-! ### `handle_disconnect` -/

section Disconnect
variable {userId : UserId} {drift : OrderedDict.Drift String}

def afterRooms (userId : UserId) (r : State × List Sent × List String) : Outcome :=
  ⟨{ r.1 with
      matchingCandidates := r.1.matchingCandidates.eraseAll r.2.2
      enteredUsers := r.1.enteredUsers.erase userId }, r.2.1, none⟩

theorem notifyNext_finishes {st : State} {room : String} {cursor : OrderedDict.Cursor String}
    {toRemove : List String} (n : ℕ) (socks : List Socket) {st' : State} {sent : List Sent}
    {raised : Option PyError}
    (h : Finishes net (disconnectResume userId drift) (n + socks.length)
      (disconnectNext userId drift (st.deleteRecord userId) cursor (toRemove ++ [room]))
      ⟨st', sent, raised⟩) :
    Finishes net (disconnectResume userId drift) n
      (notifyNext userId st room cursor toRemove socks)
      ⟨st', notifyEach net .disconnected n socks ++ sent, raised⟩ := by
  induction socks generalizing n with
  | nil => exact .commands (by simp) h
  | cons sock socks ih =>
    have hlen : n + (sock :: socks).length = n + 1 + socks.length := by
      rw [List.length_cons]
      omega
    rw [hlen] at h
    exact .sends (ih (n + 1) h)

theorem length_notifyEach (net : Net) (event : ServerEvent) (n : ℕ) (socks : List Socket) :
    (notifyEach net event n socks).length = socks.length := by
  have h := congrArg List.length (notifyEach_sockets net event n socks)
  simpa using h

theorem disconnectScan_finishes {st : State} {cursor : OrderedDict.Cursor String} {n : ℕ}
    {rooms : List (String × MatchCandidate)} {toRemove : List String}
    (hv : st.matchingCandidates.version = cursor.version)
    (hrooms : ∀ e ∈ rooms, st.matchingCandidates.get? e.1 = some e.2)
    (hold : ∀ r ∈ toRemove, r ∈ st.matchingCandidates)
    (hn : (toRemove ++ rooms.map Prod.fst).Nodup) :
    Finishes net (disconnectResume userId drift) n
      (disconnectScan userId st cursor false (rooms.map Prod.fst) toRemove)
      (let r := disconnectLoop net userId n rooms st
      afterRooms userId (r.1, r.2.1, toRemove ++ r.2.2)) := by
  induction rooms generalizing st n cursor toRemove with
  | nil =>
    rw [List.map_nil, List.append_nil] at hn
    simp only [List.map_nil, disconnectScan, disconnectLoop, List.append_nil]
    rw [disconnectRemove_eq userId hn hold]
    exact .returns
  | cons e rooms ih =>
    obtain ⟨room, data⟩ := e
    obtain ⟨hroom, hrooms⟩ := List.forall_mem_cons.mp hrooms
    have hin : room ∈ st.matchingCandidates := OrderedDict.mem_of_get? hroom
    simp only [List.map_cons] at hn ⊢
    have hn' : ((toRemove ++ [room]) ++ rooms.map Prod.fst).Nodup := by simpa using hn
    have hold' : ∀ r ∈ toRemove ++ [room], r ∈ st.matchingCandidates := by
      intro r hr
      rcases List.mem_append.mp hr with hr | hr
      · exact hold r hr
      · rwa [List.mem_singleton.mp hr]
    unfold disconnectScan disconnectLoop
    rw [hroom]
    dsimp only
    split_ifs with hm he
    · have hrest := ih (n := n) hv hrooms hold' hn'
      simpa using hrest
    · -- the sends and the deletion leave the rooms as they are
      rw [length_notifyEach]
      let later : OrderedDict.Cursor String := { cursor with rest := rooms.map Prod.fst }
      have hv' : (st.deleteRecord userId).matchingCandidates.version = later.version := hv
      have hrest := ih (n := n + data.sockets.length) hv' hrooms hold' hn'
      rw [← disconnectNext_of_version userId drift hv'] at hrest
      have hall := notifyNext_finishes n data.sockets hrest
      simpa [afterRooms] using hall
    · refine ih hv hrooms hold (hn.sublist ?_)
      exact (List.sublist_cons_self _ _).append_left _

theorem disconnectRooms_finishes (st : State) :
    Finishes net (disconnectResume userId drift) 0 (disconnectRooms userId st)
      (afterRooms userId (disconnectLoop net userId 0 st.matchingCandidates.entries st)) := by
  unfold disconnectRooms
  rw [disconnectNext_of_version userId _ rfl]
  refine disconnectScan_finishes rfl ?_ (by simp) ?_
  · intro e he
    exact OrderedDict.get?_eq_some.mpr he
  · exact st.matchingCandidates.nodup

theorem handleDisconnect_finishes (net : Net) (userId : UserId) (drift : OrderedDict.Drift String)
    (st : State) :
    Finishes net (disconnectResume userId drift) 0 (disconnectStart userId st)
      (handleDisconnect net userId st) := by
  unfold disconnectStart handleDisconnect
  split_ifs with hw
  · refine .commands (by simp) ?_
    exact disconnectRooms_finishes
      ({ st with waitingUsers := st.waitingUsers.erase userId }.deleteRecord userId)
  · exact disconnectRooms_finishes st

end Disconnect

end Nalang.Matchmaking
