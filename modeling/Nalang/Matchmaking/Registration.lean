import Nalang.Matchmaking.DropOut
import Nalang.Matchmaking.Isolation

/-!
# Whose sockets are registered, and who is told

A registered socket was opened by the user it is registered for, and
`handle_disconnect` has not run for its connection since. All events go to the
sockets of a room, so what is said about a room reaches its two members only.
-/

namespace Nalang.Matchmaking
open Python Transition

/-- The last connect on the socket is one of the user, and no `handle_disconnect` came after it. -/
def OpenedBy (is : List Input) (ws : Socket) (id : UserId) : Prop :=
  ∃ pre net hex user query post, is = pre ++ .connect net hex ws user query :: post ∧
    user.id = id ∧ ∀ net, .close net ws ∉ post

theorem OpenedBy.snoc {is : List Input} {ws : Socket} {id : UserId} (h : OpenedBy is ws id)
    {i : Input} (hi : ∀ net, i ≠ .close net ws) : OpenedBy (is ++ [i]) ws id := by
  obtain ⟨pre, net, hex, user, query, post, rfl, hid, hpost⟩ := h
  refine ⟨pre, net, hex, user, query, post ++ [i], by simp, hid, fun net' hmem => ?_⟩
  rcases List.mem_append.mp hmem with hmem | hmem
  · exact hpost net' hmem
  · exact hi net' (List.mem_singleton.mp hmem).symm

theorem openedBy_connect (is : List Input) (net : Net) (hex : String) (ws : Socket) (user : User)
    (query : QueryParams) : OpenedBy (is ++ [.connect net hex ws user query]) ws user.id :=
  ⟨is, net, hex, user, query, [], rfl, rfl, fun _ => List.not_mem_nil⟩

def Owned (is : List Input) (sv : Server) : Prop :=
  ∀ id ws, Registered sv.state id ws → OpenedBy is ws id

theorem owned_step {is : List Input} {sv sv' : Server} {i : Input} (hs : RoomsShaped sv.state)
    (ho : SocketsOwned sv) (h : Owned is sv) (hstep : server.step sv i sv') :
    Owned (is ++ [i]) sv' := by
  obtain ⟨c, hserves⟩ := serves_of_step hstep
  have hchange := change_of_step hs hserves.call_step
  intro id ws hr
  have horigin := registered_of_change hchange hr
  cases hserves with
  | connects =>
    rcases horigin with hold | ⟨_, _, _, _, heq, rfl⟩
    · exact (h id ws hold).snoc fun _ he => nomatch he
    · cases heq
      exact openedBy_connect is _ _ _ _ _
  | receives =>
    rcases horigin with hold | ⟨_, _, _, _, heq, _⟩
    · exact (h id ws hold).snoc fun _ he => nomatch he
    · cases heq
  | @ends net ws' user _ hopen hst _ =>
    rcases horigin with hold | ⟨_, _, _, _, heq, _⟩
    · refine (h id ws hold).snoc fun net' he => ?_
      cases he
      -- the registrations of the user whose connection ends are gone
      obtain ⟨conn, hg, hid⟩ := ho id ws hold
      obtain ⟨conn', hg', hid'⟩ := hopen
      rw [hg, Option.some.injEq] at hg'
      rw [hst, ← hid', ← hg', hid] at hr
      exact not_registered_after_disconnect net id sv.state ws hr
    · cases heq
  | elapses =>
    rcases horigin with hold | ⟨_, _, _, _, heq, _⟩
    · exact (h id ws hold).snoc fun _ he => nomatch he
    · cases heq

theorem owned_of_server {clock : Clock} {is : List Input} {sv : Server}
    (hr : server.Run (.initial clock) is sv) : Owned is sv := by
  refine (hr.history
    (fun is sv => (RoomsShaped sv.state ∧ SocketsOwned sv) ∧ Owned is sv) ⟨⟨?_, ?_⟩, ?_⟩ ?_).2
  · intro e he
    exact absurd he List.not_mem_nil
  · intro id ws hreg
    exact absurd hreg not_registered_initial
  · intro id ws hreg
    exact absurd hreg not_registered_initial
  · intro is sv i sv' h hstep
    obtain ⟨c, hserves⟩ := serves_of_step hstep
    exact ⟨⟨roomsShaped_step h.1.1 hserves.call_step, socketsOwned_step h.1.1 h.1.2 hstep⟩,
      owned_step h.1.1 h.1.2 h.2 hstep⟩

/-! ### Where the events go -/

/-- The room that an event of the call is about. The proposal is about the room that the connect
makes, the other events about a room that was there before the call. -/
def About (st : State) (c : Call) (event : ServerEvent) (room : String) (data : MatchCandidate) :
    Prop :=
  match event with
  | .matchProposal name _ =>
    name = room ∧ (c.run st).state.matchingCandidates.get? room = some data
  | .matched name => name = room ∧ st.matchingCandidates.get? room = some data
  | .rejected => st.matchingCandidates.get? room = some data ∧
      ∃ net userId msg, c = .receive net userId msg ∧ Names msg (.str "rejected") room
  | .disconnected => st.matchingCandidates.get? room = some data ∧
      ∃ net userId, c = .disconnect net userId ∧ userId ∈ data.userIds

theorem propose_sockets {net : Net} {st : State} {userId : UserId} {ws1 : Socket} {partner : UserId}
    {ws2 : Socket} {room : String} {m : Sent}
    (hm : m ∈ (propose net st userId ws1 partner ws2 room).sent) :
    (m.event = .matchProposal room partner ∧ m.socket = ws1) ∨
      (m.event = .matchProposal room userId ∧ m.socket = ws2) := by
  unfold propose at hm
  cases h₀ : net 0 ws1 with
  | some e =>
    simp only [h₀, List.mem_singleton] at hm
    rw [hm]
    exact .inl ⟨rfl, rfl⟩
  | none =>
    cases h₁ : net 1 ws2 <;> simp only [h₀, h₁, List.mem_cons, List.not_mem_nil, or_false] at hm
    all_goals
      rcases hm with rfl | rfl
      · exact .inl ⟨rfl, rfl⟩
      · exact .inr ⟨rfl, rfl⟩

theorem connect_about {net : Net} {hex : String} {ws : Socket} {user : User} {query : QueryParams}
    {st : State} {m : Sent} (hm : m ∈ (handleConnect net hex ws user query st).sent) :
    ∃ room data, About st (.connect net hex ws user query) m.event room data ∧
      m.socket ∈ data.sockets := by
  cases handleConnect_cases net hex ws user query st with
  | raises e _ ho =>
    rw [ho] at hm
    cases hm
  | registers _ ho =>
    rw [ho] at hm
    cases hm
  | proposes partner ws2 _ _ _ ho =>
    let room := roomName user.id partner hex
    have hrun : (Call.run (.connect net hex ws user query) st).state.matchingCandidates.get? room =
        some ⟨[user.id, partner], [ws, ws2], ∅⟩ := by
      rw [Call.run, ho, (propose_tables net _ user.id ws partner ws2 room).2.1]
      exact OrderedDict.get?_set_self _ _ _
    rw [ho] at hm
    refine ⟨room, ⟨[user.id, partner], [ws, ws2], ∅⟩, ?_, ?_⟩
    · rcases propose_sockets hm with ⟨he, _⟩ | ⟨he, _⟩
      · rw [he]
        exact ⟨rfl, hrun⟩
      · rw [he]
        exact ⟨rfl, hrun⟩
    · rcases propose_sockets hm with ⟨_, hs⟩ | ⟨_, hs⟩
      · simp [hs]
      · simp [hs]

theorem receive_about {net : Net} {userId : UserId} {msg : Json} {st : State} {m : Sent}
    (hm : m ∈ (handleReceiveEvent net userId msg st).sent) :
    ∃ room data, About st (.receive net userId msg) m.event room data ∧ m.socket ∈ data.sockets := by
  rcases handleReceiveEvent_cases net userId msg st with ⟨e, ho⟩ | ⟨event, room, data, hn, hg, ho⟩
  · rw [ho] at hm
    cases hm
  rw [ho] at hm
  refine ⟨room, data, ?_⟩
  rcases handleRoomEvent_cases net userId event room data st with
    ⟨rfl, hr⟩ | ⟨rfl, hr⟩ | ⟨rfl, hr⟩ | ⟨_, _, _, hr⟩
  · rw [hr] at hm
    cases hm
  · rw [hr, handleAccept_sent] at hm
    split_ifs at hm
    · obtain ⟨he, hs⟩ := sendEach_sockets net (.matched room) 0 data.sockets m hm
      rw [he]
      exact ⟨⟨rfl, hg⟩, hs⟩
    · cases hm
  · rw [hr, handleRejected_sent] at hm
    obtain ⟨he, hs⟩ := rejectLoop_event _ _ _ _ _ _ _ m hm
    rw [he]
    exact ⟨⟨hg, net, userId, msg, rfl, hn⟩, hs⟩
  · rw [hr] at hm
    cases hm

theorem disconnect_about {net : Net} {userId : UserId} {st : State} {m : Sent}
    (hm : m ∈ (handleDisconnect net userId st).sent) :
    ∃ room data, About st (.disconnect net userId) m.event room data ∧ m.socket ∈ data.sockets := by
  by_cases he : userId ∈ st.enteredUsers
  · rw [silent_of_entered net he] at hm
    cases hm
  · have hpair := List.mem_map_of_mem (f := fun m : Sent => (m.socket, m.event)) hm
    rw [notified_of_not_entered net he] at hpair
    obtain ⟨sock, hsock, heq⟩ := List.mem_map.mp hpair
    rw [Prod.mk.injEq] at heq
    obtain ⟨e, hmem, hs⟩ := List.mem_flatMap.mp hsock
    obtain ⟨hroom, hu⟩ := List.mem_filter.mp hmem
    refine ⟨e.1, e.2, ?_, heq.1 ▸ hs⟩
    rw [← heq.2]
    exact ⟨OrderedDict.get?_eq_some.mpr hroom, net, userId, rfl, by simpa using hu⟩

theorem run_about {st : State} {c : Call} {m : Sent} (hm : m ∈ (c.run st).sent) :
    ∃ room data, About st c m.event room data ∧ m.socket ∈ data.sockets := by
  cases c with
  | connect net hex ws user query => exact connect_about hm
  | receive net userId msg => exact receive_about hm
  | disconnect net userId => exact disconnect_about hm
  | elapse seconds today => cases hm

theorem Shaped.owner {room : String} {data : MatchCandidate} (h : Shaped room data) {sock : Socket}
    (hs : sock ∈ data.sockets) : ∃ id, (id, sock) ∈ data.userIds.zip data.sockets := by
  obtain ⟨u, v, s, t, hex, _, _, hids, hsocks⟩ := h
  rw [hsocks, List.mem_cons, List.mem_singleton] at hs
  rcases hs with rfl | rfl
  · exact ⟨u, by simp [hids, hsocks]⟩
  · exact ⟨v, by simp [hids, hsocks]⟩

theorem About.room {st : State} {c : Call} {event : ServerEvent} {room : String}
    {data : MatchCandidate} (h : About st c event room data) :
    st.matchingCandidates.get? room = some data ∨
      (c.run st).state.matchingCandidates.get? room = some data := by
  cases event with
  | matchProposal name partner => exact .inr h.2
  | matched name => exact .inl h.2
  | rejected => exact .inl h.1
  | disconnected => exact .inl h.1

/-- Every room has two distinct members with a socket each, all registered sockets are open and
their own user's, and an event about a room goes to a socket of one of its two members. -/
theorem registered_and_private {clock : Clock} {is : List Input} {sv : Server}
    (hr : server.Run (.initial clock) is sv) :
    RoomsShaped sv.state ∧ Owned is sv ∧
      ∀ i sv', server.step sv i sv' → ∃ c, Serves sv i c sv' ∧ ∀ m ∈ (c.run sv.state).sent,
        ∃ room data id, About sv.state c m.event room data ∧
          (id, m.socket) ∈ data.userIds.zip data.sockets ∧
          (OpenedBy is m.socket id ∨ OpenedBy (is ++ [i]) m.socket id) := by
  refine ⟨roomsShaped_of_server hr, owned_of_server hr, fun i sv' hstep => ?_⟩
  obtain ⟨c, hserves⟩ := serves_of_step hstep
  refine ⟨c, hserves, fun m hm => ?_⟩
  obtain ⟨room, data, habout, hsock⟩ := run_about hm
  have hstate : sv'.state = (c.run sv.state).state := calls_step.mp hserves.call_step
  rcases habout.room with hg | hg
  · obtain ⟨id, hid⟩ := ((roomsShaped_of_server hr).get? hg).owner hsock
    have hreg : Registered sv.state id m.socket :=
      .inr ⟨(room, data), OrderedDict.get?_eq_some.mp hg, hid⟩
    exact ⟨room, data, id, habout, hid, .inl (owned_of_server hr id m.socket hreg)⟩
  · rw [← hstate] at hg
    have hr' := hr.snoc hstep
    obtain ⟨id, hid⟩ := ((roomsShaped_of_server hr').get? hg).owner hsock
    have hreg : Registered sv'.state id m.socket :=
      .inr ⟨(room, data), OrderedDict.get?_eq_some.mp hg, hid⟩
    exact ⟨room, data, id, habout, hid, .inr (owned_of_server hr' id m.socket hreg)⟩

/-! ### A proposal -/

def firstConnects : Input := .connect .up "a" ⟨1⟩ (.plain (.of 1)) .empty

def secondConnects : Input := .connect .up "b" ⟨2⟩ (.plain (.of 2)) .empty

theorem registered_and_private_applied :
    ∃ sv sv', server.Run (.initial .start) [firstConnects] sv ∧ server.step sv secondConnects sv' ∧
      Registered sv'.state (.of 1) ⟨1⟩ ∧ OpenedBy [firstConnects, secondConnects] ⟨1⟩ (.of 1) ∧
      ∃ c, Serves sv secondConnects c sv' ∧
        (c.run sv.state).sent.map (fun m => m.socket) = [⟨2⟩, ⟨1⟩] ∧
        ∀ m ∈ (c.run sv.state).sent, ∃ room data id, About sv.state c m.event room data ∧
          (id, m.socket) ∈ data.userIds.zip data.sockets := by
  obtain ⟨sv, hsv⟩ : ∃ sv, Lts.exec Server.step (.initial .start) [firstConnects] = some sv :=
    ⟨_, rfl⟩
  have hr : server.Run (.initial .start) [firstConnects] sv := Lts.run_of_exec hsv
  obtain ⟨sv', hstep, hreg⟩ : ∃ sv', Server.step sv secondConnects = some sv' ∧
      Registered sv'.state (.of 1) ⟨1⟩ := by
    cases hsv
    exact ⟨_, rfl, .inr ⟨_, List.mem_singleton_self _, by decide⟩⟩
  obtain ⟨c, hserves, hprivate⟩ := (registered_and_private hr).2.2 _ _ hstep
  refine ⟨sv, sv', hr, hstep, hreg, (registered_and_private (hr.snoc hstep)).2.1 _ _ hreg, c,
    hserves, ?_, fun m hm => ?_⟩
  · cases hserves
    cases hsv
    rfl
  · obtain ⟨room, data, id, habout, hmem, _⟩ := hprivate m hm
    exact ⟨room, data, id, habout, hmem⟩

end Nalang.Matchmaking
