import Nalang.Library.Transition
import Nalang.Matchmaking.HandlerSpecs

/-!
# Runs of atomically executed handlers

A call carries everything the environment decides: the fate of its sends, the
random part of a room name, and for a connect the row of the user and the query
string. `Change` says once what a call can do to the three tables; invariants
of runs are derived from it.
-/

namespace Nalang.Matchmaking
open Python Transition

inductive Call
  | connect (net : Net) (hex : String) (ws : Socket) (user : User) (query : QueryParams)
  | receive (net : Net) (userId : UserId) (msg : Json)
  | disconnect (net : Net) (userId : UserId)
  | elapse (seconds : ℕ) (today : Date)

def Call.run : Call → State → Outcome
  | .connect net hex ws user query, st => handleConnect net hex ws user query st
  | .receive net userId msg, st => handleReceiveEvent net userId msg st
  | .disconnect net userId, st => handleDisconnect net userId st
  | .elapse seconds today, st => ⟨{ st with clock := ⟨st.clock.now + seconds, today⟩ }, [], none⟩

def calls : Lts State Call := Lts.ofStep fun st c => some (c.run st).state

theorem calls_step {st st' : State} {c : Call} : calls.step st c st' ↔ st' = (c.run st).state := by
  simp [calls, Lts.ofStep, eq_comm]

inductive Change (st : State) : Call → State → Prop
  | same {c : Call} {st' : State} (hw : st'.waitingUsers = st.waitingUsers)
      (hm : st'.matchingCandidates = st.matchingCandidates)
      (he : st'.enteredUsers = st.enteredUsers)
      (hc : ∀ net hex ws user query, c = .connect net hex ws user query →
        ∃ e, partnerFor user query st = .error e) : Change st c st'
  | registers {net : Net} {hex : String} {ws : Socket} {user : User} {query : QueryParams}
      {st' : State} (hp : partnerFor user query st = .ok none)
      (hw : st'.waitingUsers = st.waitingUsers.set user.id ws)
      (hm : st'.matchingCandidates = st.matchingCandidates)
      (he : st'.enteredUsers = st.enteredUsers) : Change st (.connect net hex ws user query) st'
  | claims {net : Net} {hex : String} {ws : Socket} {user : User} {query : QueryParams}
      {st' : State} (partner : UserId) (ws2 : Socket)
      (hp : partnerFor user query st = .ok (some partner)) (hne : partner ≠ user.id)
      (hg : st.waitingUsers.get? partner = some ws2)
      (hw : st'.waitingUsers = st.waitingUsers.erase partner)
      (hm : st'.matchingCandidates = st.matchingCandidates.set (roomName user.id partner hex)
        ⟨[user.id, partner], [ws, ws2], ∅⟩)
      (he : st'.enteredUsers = st.enteredUsers) : Change st (.connect net hex ws user query) st'
  | enters {net : Net} {userId : UserId} {msg : Json} {st' : State} (room : String)
      (data : MatchCandidate) (hn : Names msg (.str "entered") room)
      (hg : st.matchingCandidates.get? room = some data)
      (hw : st'.waitingUsers = st.waitingUsers)
      (hm : st'.matchingCandidates = st.matchingCandidates)
      (he : st'.enteredUsers = insert userId st.enteredUsers) :
      Change st (.receive net userId msg) st'
  | accepts {net : Net} {userId : UserId} {msg : Json} {st' : State} (room : String)
      (data : MatchCandidate) (hn : Names msg (.str "accept") room)
      (hg : st.matchingCandidates.get? room = some data)
      (hw : st'.waitingUsers = st.waitingUsers)
      (hm : st'.matchingCandidates = st.matchingCandidates.set room
          { data with accepted := insert userId data.accepted } ∨
        st'.matchingCandidates = (st.matchingCandidates.set room
          { data with accepted := insert userId data.accepted }).erase room)
      (he : st'.enteredUsers = st.enteredUsers) : Change st (.receive net userId msg) st'
  | rejects {net : Net} {userId : UserId} {msg : Json} {st' : State} (room : String)
      (data : MatchCandidate) (hn : Names msg (.str "rejected") room)
      (hg : st.matchingCandidates.get? room = some data)
      (hw : st'.waitingUsers =
        (rejectLoop net userId data.sockets 0 0 data.userIds st.waitingUsers).1)
      (hm : st'.matchingCandidates = st.matchingCandidates.erase room)
      (he : st'.enteredUsers = st.enteredUsers) : Change st (.receive net userId msg) st'
  | leaves {net : Net} {userId : UserId} {st' : State}
      (hw : st'.waitingUsers.entries = (st.waitingUsers.erase userId).entries)
      (hm : st'.rooms = st.rooms.filter (fun e => userId ∉ e.2.userIds))
      (he : st'.enteredUsers = st.enteredUsers.erase userId) : Change st (.disconnect net userId) st'

/-! ### The shape of a room -/

/-- Two distinct ids, their sockets in the same order, and a name that tells both ids. -/
def Shaped (room : String) (data : MatchCandidate) : Prop :=
  ∃ u v s t hex, u ≠ v ∧ room = roomName u v hex ∧ data.userIds = [u, v] ∧ data.sockets = [s, t]

def RoomsShaped (st : State) : Prop := ∀ e ∈ st.rooms, Shaped e.1 e.2

theorem Shaped.with_accepted {room : String} {data : MatchCandidate} (h : Shaped room data)
    (accepted : Finset UserId) : Shaped room { data with accepted := accepted } := h

theorem RoomsShaped.get? {st : State} (h : RoomsShaped st) {room : String} {data : MatchCandidate}
    (hg : st.matchingCandidates.get? room = some data) : Shaped room data :=
  h (room, data) (OrderedDict.get?_eq_some.mp hg)

theorem Shaped.length_le {room : String} {data : MatchCandidate} (h : Shaped room data) :
    data.userIds.length ≤ data.sockets.length := by
  obtain ⟨u, v, s, t, hex, _, _, hids, hsocks⟩ := h
  simp [hids, hsocks]

/-! ### Every call makes one of the changes -/

theorem change_connect (net : Net) (hex : String) (ws : Socket) (user : User) (query : QueryParams)
    (st : State) :
    Change st (.connect net hex ws user query) (handleConnect net hex ws user query st).state := by
  cases handleConnect_cases net hex ws user query st with
  | raises e hp ho =>
    refine .same ?_ ?_ ?_ fun _ _ _ _ _ h => ?_
    · rw [ho]; rfl
    · rw [ho]; rfl
    · rw [ho]; rfl
    · cases h
      exact ⟨e, hp⟩
  | registers hp ho =>
    refine .registers hp ?_ ?_ ?_
    · rw [ho]; rfl
    · rw [ho]; rfl
    · rw [ho]; rfl
  | proposes partner ws2 hp hne hw ho =>
    rw [ho]
    obtain ⟨hw', hm', he', _⟩ := propose_tables net (claim (st.setRecord user.id
      (recordOf user query)) user.id ws partner ws2 (roomName user.id partner hex)) user.id ws
      partner ws2 (roomName user.id partner hex)
    exact .claims partner ws2 hp hne hw hw' hm' he'

theorem change_receive (net : Net) (userId : UserId) (msg : Json) {st : State}
    (h : RoomsShaped st) :
    Change st (.receive net userId msg) (handleReceiveEvent net userId msg st).state := by
  rcases handleReceiveEvent_cases net userId msg st with ⟨e, ho⟩ | ⟨event, room, data, hn, hg, ho⟩
  · rw [ho]
    exact .same rfl rfl rfl fun _ _ _ _ _ h => nomatch h
  rcases handleRoomEvent_cases net userId event room data st with
    ⟨rfl, hr⟩ | ⟨rfl, hr⟩ | ⟨rfl, hr⟩ | ⟨_, _, _, hr⟩
  · rw [ho, hr]
    exact .enters room data hn hg rfl rfl rfl
  · rw [ho, hr]
    rcases handleAccept_state net userId room data st with h | ⟨_, h⟩
    · rw [h]
      exact .accepts room data hn hg rfl (.inl rfl) rfl
    · rw [h]
      exact .accepts room data hn hg rfl (.inr rfl) rfl
  · rw [hr] at ho
    rw [ho, handleRejected_state net userId room st (h.get? hg).length_le]
    exact .rejects room data hn hg rfl rfl rfl
  · rw [ho, hr]
    exact .same rfl rfl rfl fun _ _ _ _ _ h => nomatch h

theorem change_of_step {st st' : State} {c : Call} (h : RoomsShaped st) (hs : calls.step st c st') :
    Change st c st' := by
  rw [calls_step] at hs
  subst hs
  cases c with
  | connect net hex ws user query => exact change_connect net hex ws user query st
  | receive net userId msg => exact change_receive net userId msg h
  | disconnect net userId =>
    obtain ⟨hw, hm, he, _⟩ := handleDisconnect_tables net userId st
    exact .leaves hw hm he
  | elapse seconds today => exact .same rfl rfl rfl fun _ _ _ _ _ h => nomatch h

/-! ### Inputs for concrete runs -/

def User.plain (id : UserId) : User := ⟨id, [], [], none⟩

def QueryParams.empty : QueryParams := ⟨[]⟩

def Json.message (event room : String) : Json :=
  .object [("event", .str event), ("room", .str room)]

theorem names_message (event room : String) :
    Names (Json.message event room) (.str event) room := ⟨rfl, rfl⟩

def Net.up : Net := fun _ _ => none

def Clock.start : Clock :=
  ⟨0, ⟨2025, 1, 1, by decide, by decide, by decide, by decide, by decide, by decide⟩⟩

def UserId.of (n : ℕ) : UserId := ⟨n + 1, n.succ_pos⟩

theorem roomsShaped_step {st st' : State} {c : Call} (h : RoomsShaped st)
    (hs : calls.step st c st') : RoomsShaped st' := by
  have hkeep : st'.matchingCandidates = st.matchingCandidates → RoomsShaped st' := by
    intro he
    unfold RoomsShaped State.rooms
    rw [he]
    exact h
  have hset : ∀ {room : String} {data : MatchCandidate}, Shaped room data →
      ∀ e ∈ (st.matchingCandidates.set room data).entries, Shaped e.1 e.2 := by
    intro room data hd e he
    rcases OrderedDict.mem_entries_set.mp he with rfl | ⟨he, _⟩
    · exact hd
    · exact h e he
  cases change_of_step h hs with
  | same _ hm _ _ => exact hkeep hm
  | registers _ _ hm _ => exact hkeep hm
  | claims partner ws2 _ hne _ _ hm _ =>
    intro e he
    rw [State.rooms, hm] at he
    exact hset ⟨_, _, _, _, _, hne.symm, rfl, rfl, rfl⟩ e he
  | enters _ _ _ _ _ hm _ => exact hkeep hm
  | accepts room data _ hg _ hm _ =>
    have hd := (h _ (OrderedDict.get?_eq_some.mp hg)).with_accepted
    intro e he
    rcases hm with hm | hm
    · rw [State.rooms, hm] at he
      exact hset (hd _) e he
    · rw [State.rooms, hm, OrderedDict.mem_entries_erase] at he
      exact hset (hd _) e he.1
  | rejects _ _ _ _ _ hm _ =>
    intro e he
    rw [State.rooms, hm, OrderedDict.mem_entries_erase] at he
    exact h e he.1
  | leaves _ hm _ =>
    intro e he
    rw [hm] at he
    exact h e (List.mem_of_mem_filter he)

theorem roomsShaped_of_run {clock : Clock} {cs : List Call} {st : State}
    (hr : calls.Run (State.initial clock) cs st) : RoomsShaped st :=
  hr.invariant RoomsShaped (fun _ he => absurd he List.not_mem_nil)
    fun _ _ _ h hs => roomsShaped_step h hs

end Nalang.Matchmaking
