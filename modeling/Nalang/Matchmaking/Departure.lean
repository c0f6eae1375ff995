import Nalang.Matchmaking.DropOut

/-!
# What a disconnect does to the tables

Whatever sends fail, a disconnect takes every registration of its user away and
leaves those of the others. A second disconnect, as it follows a
`WebSocketDisconnect`, finds nothing left to do.
-/

namespace Nalang.Matchmaking

structure Departed (userId : UserId) (st : State) (o : Outcome) : Prop where
  waitingUsers : o.state.waitingUsers.entries = st.waitingUsers.entries.filter (·.1 ≠ userId)
  rooms : o.state.rooms = st.rooms.filter fun e => userId ∉ e.2.userIds
  enteredUsers : o.state.enteredUsers = st.enteredUsers.erase userId
  records : ∀ id, id ≠ userId → o.state.redis.slot id = st.redis.slot id
  clock : o.state.clock = st.clock
  sent : o.sent.map (fun m => (m.socket, m.event)) =
    if userId ∈ st.enteredUsers then []
    else (socketsOf userId st.rooms).map fun sock => (sock, .disconnected)
  raised : o.raised = none

section Disconnect
variable {net : Net} {userId : UserId} {st : State}

theorem forgetWaiting_slot_ne {id : UserId} (hne : id ≠ userId) :
    (forgetWaiting userId st).redis.slot id = st.redis.slot id := by
  unfold forgetWaiting
  split_ifs
  · exact Function.update_of_ne hne _ _
  · rfl

theorem handleDisconnect_redis (net : Net) (userId : UserId) (st : State) :
    (handleDisconnect net userId st).state.redis =
      (disconnectLoop net userId 0 st.rooms (forgetWaiting userId st)).1.redis := by
  have hm := (forgetWaiting_tables userId st).2.1
  rw [State.rooms, ← hm]
  rfl

theorem handleDisconnect_slot_ne {id : UserId} (hne : id ≠ userId) :
    (handleDisconnect net userId st).state.redis.slot id = st.redis.slot id := by
  rw [handleDisconnect_redis]
  rcases disconnectLoop_state net userId 0 st.rooms (forgetWaiting userId st) with hs | hs
  · rw [hs, forgetWaiting_slot_ne hne]
  · rw [hs, State.deleteRecord, ExpiringStore.delete]
    exact (Function.update_of_ne hne _ _).trans (forgetWaiting_slot_ne hne)

theorem handleDisconnect_departed : Departed userId st (handleDisconnect net userId st) := by
  obtain ⟨hw, hm, he, hk⟩ := handleDisconnect_tables net userId st
  constructor
  case waitingUsers => exact hw
  case rooms => exact hm
  case enteredUsers => exact he
  case records => exact fun id hne => handleDisconnect_slot_ne hne
  case clock => exact hk
  case sent =>
    split_ifs with hin
    · rw [silent_of_entered net hin]
      rfl
    · exact notified_of_not_entered net hin
  case raised => rfl

theorem disconnectLoop_of_no_room {rooms : List (String × MatchCandidate)} {n : ℕ}
    (h : ∀ e ∈ rooms, userId ∉ e.2.userIds) :
    disconnectLoop net userId n rooms st = (st, [], []) := by
  induction rooms generalizing n with
  | nil => rfl
  | cons e rooms ih =>
    obtain ⟨hout, hrest⟩ := List.forall_mem_cons.mp h
    unfold disconnectLoop
    rw [if_neg hout]
    exact ih hrest

theorem handleDisconnect_of_absent (hw : ¬ userId ∈ st.waitingUsers)
    (hr : ∀ e ∈ st.rooms, userId ∉ e.2.userIds) (he : userId ∉ st.enteredUsers) :
    handleDisconnect net userId st = ⟨st, [], none⟩ := by
  have hloop : disconnectLoop net userId 0 st.matchingCandidates.entries st = (st, [], []) :=
    disconnectLoop_of_no_room hr
  unfold handleDisconnect
  rw [if_neg hw]
  simp only [hloop, OrderedDict.eraseAll, List.foldl_nil, Finset.erase_eq_of_notMem he]

theorem Departed.absent {o : Outcome} (h : Departed userId st o) :
    ¬ userId ∈ o.state.waitingUsers ∧ (∀ e ∈ o.state.rooms, userId ∉ e.2.userIds) ∧
      userId ∉ o.state.enteredUsers := by
  refine ⟨fun hin => ?_, fun e hmem => ?_, fun hin => ?_⟩
  · obtain ⟨ws, hws⟩ := OrderedDict.mem_iff_exists.mp hin
    rw [h.waitingUsers] at hws
    simpa using (List.mem_filter.mp hws).2
  · rw [h.rooms] at hmem
    simpa using (List.mem_filter.mp hmem).2
  · rw [h.enteredUsers] at hin
    exact absurd rfl (Finset.mem_erase.mp hin).1

/-- A disconnect removes its user and nobody else, and a second one does nothing. -/
theorem handleDisconnect_spec (net net' : Net) (userId : UserId) (st : State) :
    Departed userId st (handleDisconnect net userId st) ∧
      handleDisconnect net' userId (handleDisconnect net userId st).state =
        ⟨(handleDisconnect net userId st).state, [], none⟩ := by
  have hd : Departed userId st (handleDisconnect net userId st) := handleDisconnect_departed
  obtain ⟨hw, hr, he⟩ := hd.absent
  exact ⟨hd, handleDisconnect_of_absent hw hr he⟩

end Disconnect

end Nalang.Matchmaking
