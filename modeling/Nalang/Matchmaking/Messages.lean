import Nalang.Matchmaking.Cleanup

/-!
# Messages a client may send

`handle_receive_event` uses the message as a `dict` and its room as a key before it
looks the room up. A message for which both work is carried out or ignored; every
other one raises.
-/

namespace Nalang.Matchmaking
open Python Transition

/-! ### A socket for every id of a room -/

def Aligned (data : MatchCandidate) : Prop := data.userIds.length ≤ data.sockets.length

def RoomsAligned (st : State) : Prop := ∀ e ∈ st.rooms, Aligned e.2

theorem RoomsShaped.aligned {st : State} (h : RoomsShaped st) : RoomsAligned st :=
  fun e he => (h e he).length_le

theorem RoomsAligned.subset {st st' : State} (h : RoomsAligned st)
    (hsub : ∀ e ∈ st'.rooms, e ∈ st.rooms) : RoomsAligned st' := fun e he => h e (hsub e he)

theorem RoomsAligned.set {st : State} (h : RoomsAligned st) (room : String) {data : MatchCandidate}
    (hd : Aligned data) :
    RoomsAligned { st with matchingCandidates := st.matchingCandidates.set room data } := by
  intro e he
  rcases OrderedDict.mem_entries_set.mp he with rfl | ⟨he, _⟩
  · exact hd
  · exact h e he

section Turns
variable {st : State}

theorem connectScan_rooms (ws : Socket) (user : User) (es : List (UserId × Socket)) :
    (connectScan ws user st es).state.rooms = st.rooms := by
  induction es with
  | nil => rfl
  | cons e es ih =>
    unfold connectScan
    split_ifs
    · exact ih
    · rfl

theorem connectClaim_aligned (h : RoomsAligned st) (hex : String) (ws : Socket) (user : User)
    (partner : UserId) : RoomsAligned (connectClaim hex ws user st partner).state := by
  unfold connectClaim
  cases st.waitingUsers.get? partner with
  | none => exact h
  | some ws2 => exact h.set _ (Nat.le_refl 2)

theorem connectResume_aligned (h : RoomsAligned st) (hex : String) (ws : Socket) (user : User)
    (query : QueryParams) (p : ConnectPoint) (reply : Reply) :
    RoomsAligned (connectResume hex ws user query p reply st).state := by
  have hscan : ∀ es, RoomsAligned (connectScan ws user st es).state := fun es =>
    h.subset fun e he => connectScan_rooms ws user es ▸ he
  unfold connectResume
  cases reply with
  | error e => exact h
  | ok value =>
    cases p with
    | storing => exact hscan _
    | reading otherId rest =>
      cases value with
      | none => exact hscan rest
      | some parsed =>
        dsimp only
        rcases mutualMatch st.clock.today parsed user.userData query.filters with e | b
        · exact h
        · cases b with
          | true => exact connectClaim_aligned h hex ws user otherId
          | false => exact hscan rest
    | proposing partner ws2 room => exact h
    | proposingPartner partner => exact h
    | deleting partner => exact h
    | deletingPartner => exact h

theorem eventStart_aligned (h : RoomsAligned st) (userId : UserId) (msg : Json) :
    RoomsAligned (eventStart userId msg st).state := by
  unfold eventStart
  rcases msg.get "event" with e | event
  · exact h
  rcases msg.get "room" with e | roomJson
  · exact h
  dsimp only
  split_ifs
  swap
  · exact h
  rcases roomJson.asRoomKey with e | room
  · exact h
  cases room with
  | none => exact h
  | some room =>
    dsimp only
    cases hg : st.matchingCandidates.get? room with
    | none => exact h
    | some data =>
      have hset : RoomsAligned { st with
          matchingCandidates := st.matchingCandidates.set room
            { data with accepted := insert userId data.accepted } } :=
        h.set room (h (room, data) (OrderedDict.get?_eq_some.mp hg))
      dsimp only
      unfold roomEventStart
      split
      · exact h
      · unfold acceptStart
        dsimp only
        split_ifs with hc
        · exact hset.subset (matchNext_upholds userId _ room data.sockets).2
        · exact hset
      · exact h.subset (rejectNext_upholds userId st room data.sockets 0 data.userIds).2
      · exact h

theorem eventResume_aligned (h : RoomsAligned st) (userId : UserId) (p : EventPoint)
    (reply : Reply) : RoomsAligned (eventResume userId p reply st).state := by
  cases p with
  | matching room rest =>
    cases reply with
    | error e => exact h
    | ok value => exact h.subset (matchNext_upholds userId st room rest).2
  | rejecting room sockets uid sock idx rest =>
    cases reply with
    | error e => exact h.subset (rejectNext_upholds userId st room sockets idx rest).2
    | ok value =>
      have hq : RoomsAligned (requeue st uid sock) := h
      exact hq.subset (rejectNext_upholds userId _ room sockets idx rest).2

theorem disconnectRemove_rooms (userId : UserId) (toRemove : List String) :
    ∀ e ∈ (disconnectRemove userId st toRemove).state.rooms, e ∈ st.rooms := by
  induction toRemove generalizing st with
  | nil => exact fun e he => he
  | cons r rs ih =>
    unfold disconnectRemove
    split_ifs with hr
    · exact fun e he => (OrderedDict.mem_entries_erase.mp (ih e he)).1
    · exact fun e he => he

theorem notifyNext_state (userId : UserId) (room : String) (cursor : OrderedDict.Cursor String)
    (toRemove : List String) (socks : List Socket) :
    (notifyNext userId st room cursor toRemove socks).state = st := by
  cases socks with
  | nil => rfl
  | cons sock socks => rfl

theorem disconnectScan_rooms (userId : UserId) (cursor : OrderedDict.Cursor String) (fails : Bool)
    (keys toRemove : List String) :
    ∀ e ∈ (disconnectScan userId st cursor fails keys toRemove).state.rooms, e ∈ st.rooms := by
  induction keys generalizing toRemove with
  | nil =>
    unfold disconnectScan
    split_ifs
    · exact fun e he => he
    · exact disconnectRemove_rooms userId toRemove
  | cons room keys ih =>
    unfold disconnectScan
    cases st.matchingCandidates.get? room with
    | none => exact ih toRemove
    | some data =>
      dsimp only
      split_ifs
      · exact ih _
      · rw [notifyNext_state]
        exact fun e he => he
      · exact ih toRemove

theorem disconnectStart_rooms (userId : UserId) :
    ∀ e ∈ (disconnectStart userId st).state.rooms, e ∈ st.rooms := by
  unfold disconnectStart
  split_ifs
  · exact fun e he => he
  · exact disconnectScan_rooms userId _ _ _ _

theorem disconnectResume_rooms (userId : UserId) (drift : OrderedDict.Drift String)
    (p : DisconnectPoint) (reply : Reply) :
    ∀ e ∈ (disconnectResume userId drift p reply st).state.rooms, e ∈ st.rooms := by
  cases p with
  | deletingOwn =>
    cases reply with
    | error e => exact fun e he => he
    | ok value => exact disconnectScan_rooms userId _ _ _ _
  | notifying room rest cursor toRemove =>
    change ∀ e ∈ (notifyNext userId st room cursor toRemove rest).state.rooms, e ∈ st.rooms
    rw [notifyNext_state]
    exact fun e he => he
  | deletingKey room cursor toRemove =>
    cases reply with
    | error e => exact fun e he => he
    | ok value => exact disconnectScan_rooms userId _ _ _ _

/-! ### Reactions -/

theorem afterFinally_state (failed : Option PyError) (t : Turn DisconnectPoint) :
    (afterFinally failed t).state = t.state := by
  unfold afterFinally
  split <;> rfl

theorem afterExcept_rooms (userId : UserId) (t : Turn DisconnectPoint) :
    ∀ e ∈ (afterExcept userId t).state.rooms, e ∈ t.state.rooms := by
  unfold afterExcept
  split
  · exact fun e he => he
  · rw [afterFinally_state]
    exact disconnectStart_rooms userId
  · rw [afterFinally_state]
    exact disconnectStart_rooms userId

theorem leave_rooms (userId : UserId) (raised : Option PyError) :
    ∀ e ∈ (leave userId raised st).state.rooms, e ∈ st.rooms := by
  unfold leave
  split_ifs
  · exact fun e he => disconnectStart_rooms userId e (afterExcept_rooms userId _ e he)
  · rw [afterFinally_state]
    exact disconnectStart_rooms userId

theorem settle_rooms {π : Type} (userId : UserId) (ws : Socket) (task : π → Task) (t : Turn π) :
    ∀ e ∈ (settle userId ws task t).state.rooms, e ∈ t.state.rooms := by
  unfold settle
  split
  · exact fun e he => he
  · exact fun e he => he
  · exact leave_rooms userId _

theorem react_aligned {ws : Socket} {conn : Conn} {action : Action} {r : Reaction}
    (h : RoomsAligned st) (hr : react ws conn st action = some r) : RoomsAligned r.state := by
  cases reacts_of_react hr with
  | message _ => exact (eventStart_aligned h _ _).subset (settle_rooms _ _ _ _)
  | hangup _ => exact h.subset (leave_rooms _ _)
  | @serve failure task request _ =>
    obtain ⟨_, hrooms, _⟩ := Request.perform_tables failure st request
    unfold RoomsAligned State.rooms
    rw [hrooms]
    exact h
  | @resume hex drift task reply _ =>
    cases task with
    | connect p => exact (connectResume_aligned h hex ws _ _ p reply).subset (settle_rooms _ _ _ _)
    | event p => exact (eventResume_aligned h _ p reply).subset (settle_rooms _ _ _ _)
    | onExcept p =>
      exact h.subset fun e he =>
        disconnectResume_rooms _ drift p reply e (afterExcept_rooms _ _ e he)
    | onFinally failed p =>
      refine h.subset ?_
      change ∀ e ∈
        (afterFinally failed (disconnectResume conn.user.id drift p reply st)).state.rooms,
        e ∈ st.rooms
      rw [afterFinally_state]
      exact disconnectResume_rooms _ drift p reply

end Turns

theorem roomsAligned_of_interleaved {clock : Clock} {ls : List Label} {sys : Sys}
    (hr : interleaved.Run (Sys.initial clock) ls sys) : RoomsAligned sys.state := by
  refine hr.invariant (fun sys => RoomsAligned sys.state)
    (fun _ he => absurd he List.not_mem_nil) ?_
  intro s l s' h hs
  cases steps_of_step hs with
  | connects hnew => exact h
  | acts hc hreact => exact react_aligned h hreact
  | elapses => exact h

inductive Reachable : State → Prop
  | calls {clock : Clock} {cs : List Call} {st : State}
      (hr : calls.Run (State.initial clock) cs st) : Reachable st
  | interleaved {clock : Clock} {ls : List Label} {sys : Sys}
      (hr : interleaved.Run (Sys.initial clock) ls sys) : Reachable sys.state

theorem Reachable.aligned {st : State} (h : Reachable st) : RoomsAligned st := by
  cases h with
  | calls hr => exact (roomsShaped_of_run hr).aligned
  | interleaved hr => exact roomsAligned_of_interleaved hr

/-! ### What an event on an existing room does -/

def MatchCandidate.others (data : MatchCandidate) (userId : UserId) : List (UserId × Socket) :=
  (data.userIds.zip data.sockets).filter fun e => e.1 ≠ userId

def putBack (waiting : OrderedDict UserId Socket) (es : List (UserId × Socket)) :
    OrderedDict UserId Socket :=
  es.foldl (fun waiting e => waiting.set e.1 e.2) waiting

inductive Performs (userId : UserId) (msg : Json) (st : State) : Outcome → Prop
  | enters {room : String} {data : MatchCandidate} (hn : Names msg (.str "entered") room)
      (hg : st.matchingCandidates.get? room = some data) :
      Performs userId msg st
        ⟨{ st with enteredUsers := insert userId st.enteredUsers }, [], none⟩
  | accepts {room : String} {data : MatchCandidate} (hn : Names msg (.str "accept") room)
      (hg : st.matchingCandidates.get? room = some data)
      (hcard : (insert userId data.accepted).card ≠ 2) :
      Performs userId msg st
        ⟨{ st with
            matchingCandidates := st.matchingCandidates.set room
              { data with accepted := insert userId data.accepted } }, [], none⟩
  | completes {room : String} {data : MatchCandidate} (hn : Names msg (.str "accept") room)
      (hg : st.matchingCandidates.get? room = some data)
      (hcard : (insert userId data.accepted).card = 2) :
      Performs userId msg st
        ⟨{ st with
            matchingCandidates := (st.matchingCandidates.set room
              { data with accepted := insert userId data.accepted }).erase room },
          data.sockets.map fun sock => ⟨sock, .matched room, none⟩, none⟩
  | rejects {room : String} {data : MatchCandidate} (hn : Names msg (.str "rejected") room)
      (hg : st.matchingCandidates.get? room = some data) :
      Performs userId msg st
        ⟨{ st with
            waitingUsers := putBack st.waitingUsers (data.others userId)
            matchingCandidates := st.matchingCandidates.erase room },
          (data.others userId).map fun e => ⟨e.2, .rejected, none⟩, none⟩

section Performs
variable {net : Net}

theorem sendEach_of_up (hnet : ∀ n sock, net n sock = none) (event : ServerEvent) (n : ℕ)
    (socks : List Socket) :
    sendEach net event n socks = (socks.map fun sock => ⟨sock, event, none⟩, none) := by
  induction socks generalizing n with
  | nil => rfl
  | cons sock socks ih =>
    unfold sendEach
    rw [hnet n sock, ih (n + 1)]
    rfl

theorem rejectLoop_of_up (hnet : ∀ n sock, net n sock = none) (userId : UserId)
    (sockets : List Socket) (idx n : ℕ) (uids : List UserId) (waiting : OrderedDict UserId Socket)
    (hlen : idx + uids.length ≤ sockets.length) :
    rejectLoop net userId sockets idx n uids waiting =
      let others := (uids.zip (sockets.drop idx)).filter fun e => e.1 ≠ userId
      (putBack waiting others, others.map fun e => ⟨e.2, .rejected, none⟩, none) := by
  induction uids generalizing idx n waiting with
  | nil => rfl
  | cons uid uids ih =>
    rw [List.length_cons] at hlen
    have hidx : idx < sockets.length := by omega
    have hnext : idx + 1 + uids.length ≤ sockets.length := by omega
    unfold rejectLoop
    rw [List.drop_eq_getElem_cons hidx, List.zip_cons_cons]
    split_ifs with hu
    · rw [List.getElem?_eq_getElem hidx, List.filter_cons_of_pos (by simpa using hu)]
      simp only [hnet, Option.isNone_none, if_true, ih (idx + 1) (n + 1) _ hnext, List.map_cons]
      rfl
    · rw [List.filter_cons_of_neg (by simpa using hu), ih (idx + 1) n waiting hnext]

theorem handleAccept_performs (hnet : ∀ n sock, net n sock = none) {userId : UserId} {msg : Json}
    {st : State} {room : String} {data : MatchCandidate} (hn : Names msg (.str "accept") room)
    (hg : st.matchingCandidates.get? room = some data) :
    Performs userId msg st (handleAccept net userId room data st) := by
  unfold handleAccept
  dsimp only
  split_ifs with hcard
  · rw [sendEach_of_up hnet]
    exact .completes hn hg hcard
  · exact .accepts hn hg hcard

theorem handleRejected_performs (hnet : ∀ n sock, net n sock = none) {userId : UserId} {msg : Json}
    {st : State} {room : String} {data : MatchCandidate} (hn : Names msg (.str "rejected") room)
    (hg : st.matchingCandidates.get? room = some data) (hd : Aligned data) :
    Performs userId msg st (handleRejected net userId room data st) := by
  unfold handleRejected
  rw [rejectLoop_of_up hnet userId data.sockets 0 0 data.userIds st.waitingUsers (by
    rw [Nat.zero_add]
    exact hd), List.drop_zero]
  exact .rejects hn hg

theorem Performs.raised {userId : UserId} {msg : Json} {st : State} {o : Outcome}
    (h : Performs userId msg st o) : o.raised = none := by
  cases h with
  | enters => rfl
  | accepts => rfl
  | completes => rfl
  | rejects => rfl

end Performs

/-! ### Messages that can be printed, with a room that can be a key -/

def Json.Hashable : Json → Prop
  | .array _ => False
  | .object _ => False
  | _ => True

/-- An object whose event and room, present or not, can be printed, and whose room can be looked
up. -/
def Keyed (msg : Json) : Prop :=
  ∃ event room, msg.get "event" = .ok event ∧ msg.get "room" = .ok room ∧
    event.printable ∧ room.printable ∧ room.Hashable

theorem Json.hashable_iff {room : Json} : room.Hashable ↔ ∃ key, room.asRoomKey = .ok key := by
  cases room <;> simp [Json.Hashable, Json.asRoomKey]

theorem Json.eq_of_asRoomKey {room : Json} {name : String} (h : room.asRoomKey = .ok (some name)) :
    room = .str name := by
  cases room with
  | str s => simpa [Json.asRoomKey] using h
  | array items => cases h
  | object fields => cases h
  | null => cases h
  | bool b => cases h
  | int n => cases h
  | float text => cases h
  | surrogates codePoints => cases h

theorem handleReceiveEvent_of_not_keyed {net : Net} {userId : UserId} {msg : Json} {st : State}
    (h : ¬ Keyed msg) : (handleReceiveEvent net userId msg st).raised ≠ none := by
  unfold handleReceiveEvent
  rcases he : msg.get "event" with e | event
  · simp
  rcases hr : msg.get "room" with e | room
  · simp
  dsimp only
  split_ifs with hp
  swap
  · simp
  rcases hkey : room.asRoomKey with e | key
  · simp
  · exact absurd ⟨event, room, he, hr, hp.1, hp.2, Json.hashable_iff.mpr ⟨key, hkey⟩⟩ h

/-- Exactly the messages that can be printed and whose room can be a key are carried out or ignored;
the other ones raise. -/
theorem receive_harmless_iff {st : State} (hst : Reachable st) {net : Net}
    (hnet : ∀ n sock, net n sock = none) (userId : UserId) (msg : Json) :
    (Performs userId msg st (handleReceiveEvent net userId msg st) ∨
      handleReceiveEvent net userId msg st = ⟨st, [], none⟩) ↔ Keyed msg := by
  constructor
  · intro h
    by_contra hkeyed
    have hraised : (handleReceiveEvent net userId msg st).raised ≠ none :=
      handleReceiveEvent_of_not_keyed hkeyed
    refine hraised ?_
    rcases h with h | h
    · exact h.raised
    · rw [h]
  · rintro ⟨event, room, he, hr, hprint, hprint', hhash⟩
    obtain ⟨key, hkey⟩ := Json.hashable_iff.mp hhash
    cases key with
    | none =>
      refine .inr ?_
      simp only [handleReceiveEvent, he, hr, hprint, hprint', hkey, and_self, if_true]
    | some name =>
      cases hg : st.matchingCandidates.get? name with
      | none =>
        refine .inr ?_
        simp only [handleReceiveEvent, he, hr, hprint, hprint', hkey, hg, and_self, if_true]
      | some data =>
        have hname : room = .str name := Json.eq_of_asRoomKey hkey
        have hn : Names msg event name := ⟨he, hname ▸ hr⟩
        have hd : Aligned data := hst.aligned (name, data) (OrderedDict.get?_eq_some.mp hg)
        rw [handleReceiveEvent_of_names net userId hn hprint hg]
        rcases handleRoomEvent_cases net userId event name data st with
          ⟨rfl, ho⟩ | ⟨rfl, ho⟩ | ⟨rfl, ho⟩ | ⟨_, _, _, ho⟩
        · exact .inl (ho ▸ .enters hn hg)
        · exact .inl (ho ▸ handleAccept_performs hnet hn hg)
        · exact .inl (ho ▸ handleRejected_performs hnet hn hg hd)
        · exact .inr ho

/-! ### Messages to a room, and one to a server that has just started -/

theorem reachable_initial (clock : Clock) : Reachable (State.initial clock) := .calls .nil

def twoCalls : List Call :=
  [.connect .up "a" ⟨1⟩ (.plain (.of 1)) .empty, .connect .up "b" ⟨2⟩ (.plain (.of 2)) .empty]

/-- `{"event": "\ud800", "room": "room_3_2_b"}`. -/
def unprintable : Json :=
  .object [("event", .surrogates [0xD800]), ("room", .str "room_3_2_b")]

theorem receive_harmless_iff_rejected :
    ∃ st, calls.Run (State.initial .start) twoCalls st ∧ "room_3_2_b" ∈ st.matchingCandidates ∧
      Performs (.of 2) (.message "rejected" "room_3_2_b") st
        (handleReceiveEvent .up (.of 2) (.message "rejected" "room_3_2_b") st) ∧
      ¬ (Performs (.of 2) unprintable st (handleReceiveEvent .up (.of 2) unprintable st) ∨
        handleReceiveEvent .up (.of 2) unprintable st = ⟨st, [], none⟩) := by
  have hr : calls.Run (State.initial .start) twoCalls _ :=
    Lts.run_of_exec (rfl : Lts.exec _ _ twoCalls = some _)
  have hnet : ∀ n sock, Net.up n sock = none := fun _ _ => rfl
  have hkeyed : Keyed (.message "rejected" "room_3_2_b") :=
    ⟨.str "rejected", .str "room_3_2_b", rfl, rfl, rfl, rfl, trivial⟩
  refine ⟨_, hr, by decide, ?_, fun h => ?_⟩
  · refine ((receive_harmless_iff (.calls hr) hnet _ _).mpr hkeyed).resolve_right fun hsame => ?_
    have hsent := congrArg (fun o => o.sent.length) hsame
    cases hsent
  · obtain ⟨event, _, hevent, _, hprint, _⟩ := (receive_harmless_iff (.calls hr) hnet _ _).mp h
    cases hevent
    cases hprint

theorem array_raises :
    ¬ ∀ (st : State), Reachable st → ∀ (net : Net), (∀ n sock, net n sock = none) →
      ∀ (userId : UserId) (msg : Json),
        Performs userId msg st (handleReceiveEvent net userId msg st) ∨
          handleReceiveEvent net userId msg st = ⟨st, [], none⟩ := by
  intro h
  have hkeyed : ¬ Keyed (.array []) := by
    rintro ⟨_, _, hevent, _⟩
    cases hevent
  have hraised :
      (handleReceiveEvent .up (.of 1) (.array []) (State.initial .start)).raised ≠ none :=
    handleReceiveEvent_of_not_keyed hkeyed
  rcases h _ (reachable_initial .start) .up (fun _ _ => rfl) (.of 1) (.array []) with ho | ho
  · exact hraised ho.raised
  · exact hraised (ho ▸ rfl)

end Nalang.Matchmaking
