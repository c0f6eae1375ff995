import Nalang.Matchmaking.Calls

/-!
# Leaving during a proposal

`entered_users` holds ids, not pairs of an id and a room, and only
`handle_disconnect` takes an id out. A member that entered an earlier room is
therefore taken for one that entered the present room, and leaves in silence.
-/

namespace Nalang.Matchmaking
open Python Transition

def HasEntered (cs : List Call) (room : String) (userId : UserId) : Prop :=
  ∃ net msg, .receive net userId msg ∈ cs ∧ Names msg (.str "entered") room

/-- `disconnected` is sent, or attempted, to the socket of every other member. -/
def NotifiesOthers (userId : UserId) (data : MatchCandidate) (sent : List Sent) : Prop :=
  ∀ other sock, (other, sock) ∈ data.userIds.zip data.sockets → other ≠ userId →
    ∃ m ∈ sent, m.socket = sock ∧ m.event = .disconnected

theorem handleDisconnect_sent (net : Net) (userId : UserId) (st : State) :
    (handleDisconnect net userId st).sent =
      (disconnectLoop net userId 0 st.rooms (forgetWaiting userId st)).2.1 := by
  have hm := (forgetWaiting_tables userId st).2.1
  rw [State.rooms, ← hm]
  rfl

theorem silent_of_entered (net : Net) {userId : UserId} {st : State}
    (he : userId ∈ st.enteredUsers) : (handleDisconnect net userId st).sent = [] := by
  rw [handleDisconnect_sent]
  apply disconnectLoop_sent_of_entered
  rwa [(forgetWaiting_tables userId st).2.2.1]

theorem notified_of_not_entered (net : Net) {userId : UserId} {st : State}
    (he : userId ∉ st.enteredUsers) :
    (handleDisconnect net userId st).sent.map (fun m => (m.socket, m.event)) =
      (socketsOf userId st.rooms).map fun sock => (sock, .disconnected) := by
  rw [handleDisconnect_sent]
  apply disconnectLoop_sent
  rwa [(forgetWaiting_tables userId st).2.2.1]

theorem notifiesOthers_iff {net : Net} {userId : UserId} {st : State} {room : String}
    {data : MatchCandidate} (hs : RoomsShaped st) (hg : st.matchingCandidates.get? room = some data)
    (hu : userId ∈ data.userIds) :
    NotifiesOthers userId data (handleDisconnect net userId st).sent ↔ userId ∉ st.enteredUsers := by
  refine ⟨fun h he => ?_, fun he other sock hzip _ => ?_⟩
  · obtain ⟨u, v, s, t, hex, huv, _, hids, hsocks⟩ := hs.get? hg
    -- one of the two members is not the one that leaves
    have hother : ∃ other sock, (other, sock) ∈ data.userIds.zip data.sockets ∧ other ≠ userId := by
      rw [hids, hsocks]
      by_cases huser : u = userId
      · exact ⟨v, t, by simp, fun hv => huv (huser.trans hv.symm)⟩
      · exact ⟨u, s, by simp, huser⟩
    obtain ⟨other, sock, hzip, hne⟩ := hother
    obtain ⟨m, hm, _, _⟩ := h other sock hzip hne
    rw [silent_of_entered net he] at hm
    exact absurd hm List.not_mem_nil
  · have hsock : sock ∈ socketsOf userId st.rooms := by
      refine List.mem_flatMap.mpr ⟨(room, data), List.mem_filter.mpr ⟨?_, by simpa using hu⟩, ?_⟩
      · exact OrderedDict.get?_eq_some.mp hg
      · exact (List.of_mem_zip hzip).2
    have hpair : (sock, ServerEvent.disconnected) ∈
        (handleDisconnect net userId st).sent.map fun m => (m.socket, m.event) := by
      rw [notified_of_not_entered net he]
      exact List.mem_map_of_mem hsock
    obtain ⟨m, hm, hmk⟩ := List.mem_map.mp hpair
    exact ⟨m, hm, congrArg Prod.fst hmk, congrArg Prod.snd hmk⟩

/-- The others hear of a member that leaves without having sent `entered` for the room, exactly when
that member's id is not left in `entered_users` from another room. -/
theorem dropOut_notifies_iff {clock : Clock} {cs : List Call} {st : State} {room : String}
    {data : MatchCandidate} {userId : UserId} (hr : calls.Run (State.initial clock) cs st)
    (hg : st.matchingCandidates.get? room = some data) (hu : userId ∈ data.userIds) (net : Net) :
    (¬ HasEntered cs room userId →
        NotifiesOthers userId data (handleDisconnect net userId st).sent) ↔
      (¬ HasEntered cs room userId → userId ∉ st.enteredUsers) := by
  have hiff : NotifiesOthers userId data (handleDisconnect net userId st).sent ↔
      userId ∉ st.enteredUsers := notifiesOthers_iff (roomsShaped_of_run hr) hg hu
  exact ⟨fun h hnever => hiff.mp (h hnever), fun h hnever => hiff.mpr (h hnever)⟩

def secondRoomCalls : List Call :=
  [.connect .up "a" ⟨1⟩ (.plain (.of 1)) .empty, .connect .up "b" ⟨2⟩ (.plain (.of 2)) .empty,
    .receive .up (.of 2) (.message "entered" "room_3_2_b"),
    .receive .up (.of 1) (.message "rejected" "room_3_2_b"),
    .connect .up "c" ⟨3⟩ (.plain (.of 3)) .empty, .connect .up "d" ⟨4⟩ (.plain (.of 2)) .empty]

theorem never_entered_second : ¬ HasEntered secondRoomCalls "room_3_4_d" (.of 2) := by
  intro h
  obtain ⟨net, msg, hm, hn⟩ := h
  simp only [secondRoomCalls, List.mem_cons, Call.receive.injEq, reduceCtorEq, false_or, or_false,
    List.not_mem_nil] at hm
  rcases hm with ⟨_, _, rfl⟩ | ⟨_, _, rfl⟩
  · exact absurd ((names_message _ _).unique hn).2 (by decide)
  · exact absurd ((names_message _ _).unique hn).2 (by decide)

theorem dropOut_notifies_iff_applied :
    ∃ st data, calls.Run (State.initial Clock.start) secondRoomCalls st ∧
      st.matchingCandidates.get? "room_3_4_d" = some data ∧
      ¬ NotifiesOthers (.of 2) data (handleDisconnect .up (.of 2) st).sent := by
  have hr : calls.Run (State.initial Clock.start) secondRoomCalls _ :=
    Lts.run_of_exec (rfl : Lts.exec _ _ secondRoomCalls = some _)
  refine ⟨_, _, hr, rfl, fun h => ?_⟩
  exact (dropOut_notifies_iff hr rfl (by decide) .up).mp (fun _ => h) never_entered_second
    (by decide)

theorem silent_dropOut :
    ¬ ∀ (clock : Clock) (cs : List Call) (st : State) (room : String) (data : MatchCandidate)
      (userId : UserId) (net : Net), calls.Run (State.initial clock) cs st →
        st.matchingCandidates.get? room = some data → userId ∈ data.userIds →
          ¬ HasEntered cs room userId →
            NotifiesOthers userId data (handleDisconnect net userId st).sent := by
  intro h
  have hn := h Clock.start secondRoomCalls _ "room_3_4_d" _ (.of 2) .up
    (Lts.run_of_exec (rfl : Lts.exec _ _ secondRoomCalls = some _)) rfl (by decide)
    never_entered_second
  obtain ⟨m, hm, _, _⟩ := hn (.of 3) ⟨3⟩ (by decide) (by decide)
  exact absurd (List.ne_nil_of_mem hm) (by decide)

end Nalang.Matchmaking
