import Nalang.Matchmaking.Calls

/-!
# Messages of users who are not in the room

`handle_receive_event` looks the room up but never compares the sender with its
ids. A message of a stranger is without effect only when it could not have had
one: another event name, a repeated `entered`, or a repeated `accept`.
-/

namespace Nalang.Matchmaking
open Python Transition

def Untouched (st : State) (o : Outcome) : Prop :=
  o.sent = [] ∧ o.state.waitingUsers = st.waitingUsers ∧
    o.state.matchingCandidates = st.matchingCandidates ∧ o.state.enteredUsers = st.enteredUsers

def Harmless (st : State) (userId : UserId) (event : Json) (data : MatchCandidate) : Prop :=
  event ≠ .str "rejected" ∧ (event = .str "entered" → userId ∈ st.enteredUsers) ∧
    (event = .str "accept" → userId ∈ data.accepted ∧ data.accepted.card ≠ 2)

theorem sendEach_ne_nil (net : Net) (event : ServerEvent) (n : ℕ) {socks : List Socket}
    (h : socks ≠ []) : (sendEach net event n socks).1 ≠ [] := by
  cases socks with
  | nil => exact absurd rfl h
  | cons sock socks =>
    unfold sendEach
    cases net n sock <;> simp

theorem rejectLoop_ne_nil (net : Net) {userId : UserId} {room : String} {data : MatchCandidate}
    (hs : Shaped room data) (hu : userId ∉ data.userIds) (waiting : OrderedDict UserId Socket) :
    (rejectLoop net userId data.sockets 0 0 data.userIds waiting).2.1 ≠ [] := by
  obtain ⟨u, v, s, t, hex, _, _, hids, hsocks⟩ := hs
  rw [hids, List.mem_cons, not_or] at hu
  rw [hids, hsocks, rejectLoop, if_pos (Ne.symm hu.1)]
  simp

section Accept
variable {net : Net} {userId : UserId} {room : String} {data : MatchCandidate} {st : State}

theorem untouched_accept (hs : Shaped room data) (hg : st.matchingCandidates.get? room = some data) :
    Untouched st (handleAccept net userId room data st) ↔
      userId ∈ data.accepted ∧ data.accepted.card ≠ 2 := by
  have hsocks : data.sockets ≠ [] := by
    obtain ⟨u, v, s, t, hex, _, _, _, hsocks⟩ := hs
    simp [hsocks]
  by_cases hc : (insert userId data.accepted).card = 2
  · refine iff_of_false (fun h => ?_) fun h => ?_
    · have hsent := h.1
      rw [handleAccept_sent, if_pos hc] at hsent
      exact sendEach_ne_nil _ _ _ hsocks hsent
    · rw [Finset.insert_eq_of_mem h.1] at hc
      exact h.2 hc
  have hst : handleAccept net userId room data st =
      ⟨{ st with
          matchingCandidates := st.matchingCandidates.set room
            { data with accepted := insert userId data.accepted } }, [], none⟩ := by
    unfold handleAccept
    dsimp only
    rw [if_neg hc]
  rw [hst]
  refine ⟨fun h => ?_, fun h => ⟨rfl, rfl, ?_, rfl⟩⟩
  · have hsame := congrArg (fun d => d.get? room) h.2.2.1
    simp only [OrderedDict.get?_set_self, hg, Option.some.injEq] at hsame
    have hins : insert userId data.accepted = data.accepted := congrArg MatchCandidate.accepted hsame
    rw [hins] at hc
    exact ⟨Finset.insert_eq_self.mp hins, hc⟩
  · rw [Finset.insert_eq_of_mem h.1]
    exact OrderedDict.set_of_get? hg

end Accept

theorem untouched_iff_harmless {st : State} {net : Net} {userId : UserId} {msg event : Json}
    {room : String} {data : MatchCandidate} (hs : RoomsShaped st) (hn : Names msg event room)
    (hg : st.matchingCandidates.get? room = some data) (hu : userId ∉ data.userIds) :
    Untouched st (handleReceiveEvent net userId msg st) ↔ Harmless st userId event data := by
  have hd := hs.get? hg
  by_cases hp : event.printable
  swap
  · -- the message raises before its event is looked at
    rw [handleReceiveEvent_of_unprintable net userId st hn.1 hn.2 fun h => hp h.1]
    refine iff_of_true ⟨rfl, rfl, rfl, rfl⟩ ⟨?_, ?_, ?_⟩
    · rintro rfl
      exact hp rfl
    · rintro rfl
      exact absurd rfl hp
    · rintro rfl
      exact absurd rfl hp
  rw [handleReceiveEvent_of_names net userId hn hp hg]
  rcases handleRoomEvent_cases net userId event room data st with
    ⟨rfl, hr⟩ | ⟨rfl, hr⟩ | ⟨rfl, hr⟩ | ⟨h₁, h₂, h₃, hr⟩
  · rw [hr]
    simp [Untouched, Harmless]
  · rw [hr, untouched_accept hd hg]
    simp [Harmless]
  · rw [hr]
    refine iff_of_false (fun h => ?_) fun h => h.1 rfl
    have hsent := h.1
    rw [handleRejected_sent] at hsent
    exact rejectLoop_ne_nil net hd hu _ hsent
  · rw [hr]
    exact iff_of_true ⟨rfl, rfl, rfl, rfl⟩ ⟨h₃, fun h => absurd h h₁, fun h => absurd h h₂⟩

/-! ### Runs in which strangers send only harmless messages -/

def StrangersHarmless (st : State) : Call → Prop
  | .receive _ userId msg => ∀ event room data, Names msg event room →
      st.matchingCandidates.get? room = some data → userId ∉ data.userIds →
        Harmless st userId event data
  | _ => True

def HasAccepted (cs : List Call) (room : String) (userId : UserId) : Prop :=
  ∃ net msg, .receive net userId msg ∈ cs ∧ Names msg (.str "accept") room

/-- Every acceptance comes from a member and from its own message. -/
def AcceptedByMembers (cs : List Call) (st : State) : Prop :=
  ∀ e ∈ st.rooms, ∀ id ∈ e.2.accepted, id ∈ e.2.userIds ∧ HasAccepted cs e.1 id

theorem HasAccepted.snoc {cs : List Call} {room : String} {userId : UserId}
    (h : HasAccepted cs room userId) (c : Call) : HasAccepted (cs ++ [c]) room userId := by
  obtain ⟨net, msg, hm, hn⟩ := h
  exact ⟨net, msg, List.mem_append_left _ hm, hn⟩

theorem acceptedByMembers_step {cs : List Call} {st st' : State} {c : Call} (hs : RoomsShaped st)
    (h : AcceptedByMembers cs st) (hc : StrangersHarmless st c) (hstep : calls.step st c st') :
    AcceptedByMembers (cs ++ [c]) st' := by
  have hold : ∀ e ∈ st.rooms, ∀ id ∈ e.2.accepted,
      id ∈ e.2.userIds ∧ HasAccepted (cs ++ [c]) e.1 id :=
    fun e he id hid => ⟨(h e he id hid).1, (h e he id hid).2.snoc c⟩
  have hkeep : st'.matchingCandidates = st.matchingCandidates → AcceptedByMembers (cs ++ [c]) st' := by
    intro hm e he
    rw [State.rooms, hm] at he
    exact hold e he
  cases change_of_step hs hstep with
  | same _ hm _ _ => exact hkeep hm
  | registers _ _ hm _ => exact hkeep hm
  | claims partner ws2 _ _ _ _ hm _ =>
    intro e he
    rw [State.rooms, hm] at he
    rcases OrderedDict.mem_entries_set.mp he with rfl | ⟨he, _⟩
    · intro id hid
      exact absurd hid (Finset.notMem_empty id)
    · exact hold e he
  | enters _ _ _ _ _ hm _ => exact hkeep hm
  | @accepts net userId msg _ room data hn hg _ hm _ =>
    have hmem := OrderedDict.get?_eq_some.mp hg
    have hsent : HasAccepted (cs ++ [.receive net userId msg]) room userId :=
      ⟨net, msg, List.mem_append_right _ (List.mem_singleton_self _), hn⟩
    have huser : userId ∈ data.userIds := by
      by_contra hu
      have haccepted := ((hc _ room data hn hg hu).2.2 rfl).1
      exact hu (h _ hmem userId haccepted).1
    have hset : ∀ e ∈ (st.matchingCandidates.set room
        { data with accepted := insert userId data.accepted }).entries, ∀ id ∈ e.2.accepted,
        id ∈ e.2.userIds ∧ HasAccepted (cs ++ [.receive net userId msg]) e.1 id := by
      intro e he id hid
      rcases OrderedDict.mem_entries_set.mp he with rfl | ⟨he, _⟩
      · rcases Finset.mem_insert.mp hid with rfl | hid
        · exact ⟨huser, hsent⟩
        · exact hold _ hmem id hid
      · exact hold e he id hid
    intro e he
    rcases hm with hm | hm
    · rw [State.rooms, hm] at he
      exact hset e he
    · rw [State.rooms, hm, OrderedDict.mem_entries_erase] at he
      exact hset e he.1
  | rejects _ _ _ _ _ hm _ =>
    intro e he
    rw [State.rooms, hm, OrderedDict.mem_entries_erase] at he
    exact hold e he.1
  | leaves _ hm _ =>
    intro e he
    rw [hm] at he
    exact hold e (List.mem_of_mem_filter he)

theorem acceptedByMembers_of_run {clock : Clock} {cs : List Call} {st : State}
    (hr : (calls.guard StrangersHarmless).Run (State.initial clock) cs st) :
    AcceptedByMembers cs st := by
  refine (hr.history (fun cs st => RoomsShaped st ∧ AcceptedByMembers cs st)
    ⟨fun _ he => absurd he List.not_mem_nil, fun _ he => absurd he List.not_mem_nil⟩ ?_).2
  intro cs st c st' h hs
  exact ⟨roomsShaped_step h.1 hs.2, acceptedByMembers_step h.1 h.2 hs.1 hs.2⟩

theorem matched_sent {net : Net} {userId : UserId} {msg : Json} {st : State} {m : Sent}
    {room : String} (hm : m ∈ (handleReceiveEvent net userId msg st).sent)
    (he : m.event = .matched room) :
    ∃ data, Names msg (.str "accept") room ∧ st.matchingCandidates.get? room = some data ∧
      (insert userId data.accepted).card = 2 := by
  rcases handleReceiveEvent_cases net userId msg st with ⟨e, ho⟩ | ⟨event, room', data, hn, hg, ho⟩
  · rw [ho] at hm
    exact absurd hm List.not_mem_nil
  rw [ho] at hm
  rcases handleRoomEvent_cases net userId event room' data st with
    ⟨rfl, hr⟩ | ⟨rfl, hr⟩ | ⟨rfl, hr⟩ | ⟨_, _, _, hr⟩
  · rw [hr] at hm
    exact absurd hm List.not_mem_nil
  · rw [hr, handleAccept_sent] at hm
    split_ifs at hm with hc
    · have hroom := (sendEach_sockets net (.matched room') 0 data.sockets m hm).1
      rw [he, ServerEvent.matched.injEq] at hroom
      subst hroom
      exact ⟨data, hn, hg, hc⟩
    · exact absurd hm List.not_mem_nil
  · rw [hr, handleRejected_sent] at hm
    have hrej := (rejectLoop_event _ _ _ _ _ _ _ m hm).1
    rw [he] at hrej
    cases hrej
  · rw [hr] at hm
    exact absurd hm List.not_mem_nil

theorem members_accepted_of_matched {cs : List Call} {st : State} {net : Net} {userId : UserId}
    {msg : Json} {room : String} {m : Sent} (hs : RoomsShaped st) (h : AcceptedByMembers cs st)
    (hc : StrangersHarmless st (.receive net userId msg))
    (hm : m ∈ (handleReceiveEvent net userId msg st).sent) (he : m.event = .matched room) :
    ∃ data, st.matchingCandidates.get? room = some data ∧
      ∀ id ∈ data.userIds, HasAccepted (cs ++ [.receive net userId msg]) room id := by
  obtain ⟨data, hn, hg, hcard⟩ := matched_sent hm he
  have hmem := OrderedDict.get?_eq_some.mp hg
  obtain ⟨u, v, s, t, hex, huv, hroom, hids, _⟩ := hs.get? hg
  have huser : userId ∈ data.userIds := by
    by_contra hu
    exact hu (h _ hmem userId ((hc _ room data hn hg hu).2.2 rfl).1).1
  have hsub : insert userId data.accepted ⊆ {u, v} := by
    intro id hid
    have hin : id ∈ data.userIds := by
      rcases Finset.mem_insert.mp hid with rfl | hid
      · exact huser
      · exact (h _ hmem id hid).1
    simpa [hids] using hin
  have hall : insert userId data.accepted = {u, v} :=
    Finset.eq_of_subset_of_card_le hsub (by rw [hcard, Finset.card_pair huv])
  refine ⟨data, hg, fun id hid => ?_⟩
  have hacc : id ∈ insert userId data.accepted := by
    rw [hall]
    simpa [hids] using hid
  rcases Finset.mem_insert.mp hacc with rfl | hacc
  · exact ⟨net, msg, List.mem_append_right _ (List.mem_singleton_self _), hn⟩
  · exact (h _ hmem id hacc).2.snoc _

/-- In every reachable state a stranger's message is without effect exactly when it is harmless,
and in runs where all of them are, a room counts only its own two members. -/
theorem strangers_without_effect {clock : Clock} {cs : List Call} {st : State}
    (hr : calls.Run (State.initial clock) cs st) :
    (∀ net userId msg event room data, Names msg event room →
      st.matchingCandidates.get? room = some data → userId ∉ data.userIds →
        (Untouched st (handleReceiveEvent net userId msg st) ↔ Harmless st userId event data)) ∧
    ((calls.guard StrangersHarmless).Run (State.initial clock) cs st →
      (∀ e ∈ st.rooms, ∀ id ∈ e.2.accepted, id ∈ e.2.userIds) ∧
      ∀ net userId msg m room, StrangersHarmless st (.receive net userId msg) →
        m ∈ (handleReceiveEvent net userId msg st).sent → m.event = .matched room →
          ∃ data, st.matchingCandidates.get? room = some data ∧
            ∀ id ∈ data.userIds, HasAccepted (cs ++ [.receive net userId msg]) room id) := by
  have hs := roomsShaped_of_run hr
  refine ⟨fun net userId msg event room data hn hg hu => untouched_iff_harmless hs hn hg hu, ?_⟩
  intro hguard
  have ha := acceptedByMembers_of_run hguard
  exact ⟨fun e he id hid => (ha e he id hid).1,
    fun net userId msg m room hc hm he => members_accepted_of_matched hs ha hc hm he⟩

def strangerCalls : List Call :=
  [.connect .up "a" ⟨1⟩ (.plain (.of 1)) .empty, .connect .up "b" ⟨2⟩ (.plain (.of 2)) .empty,
    .connect .up "c" ⟨3⟩ (.plain (.of 3)) .empty]

theorem strangers_without_effect_applied :
    ∃ st, calls.Run (State.initial Clock.start) strangerCalls st ∧
      ¬ Untouched st (handleReceiveEvent .up (.of 3) (.message "rejected" "room_3_2_b") st) ∧
      ∀ e ∈ st.rooms, ∀ id ∈ e.2.accepted, id ∈ e.2.userIds := by
  have hr : calls.Run (State.initial Clock.start) strangerCalls _ :=
    Lts.run_of_exec (rfl : Lts.exec _ _ strangerCalls = some _)
  have hguard : (calls.guard StrangersHarmless).Run (State.initial Clock.start) strangerCalls _ :=
    Lts.Run.cons ⟨trivial, calls_step.mpr rfl⟩
      (Lts.Run.cons ⟨trivial, calls_step.mpr rfl⟩
        (Lts.Run.single ⟨trivial, calls_step.mpr rfl⟩))
  refine ⟨_, hr, fun h => ?_, ((strangers_without_effect hr).2 hguard).1⟩
  exact (((strangers_without_effect hr).1 _ _ _ _ _ _ (names_message _ _) rfl (by decide)).mp h).1 rfl

theorem stranger_rejects :
    ¬ ∀ (clock : Clock) (cs : List Call) (st : State) (net : Net) (userId : UserId) (msg event : Json)
      (room : String) (data : MatchCandidate), calls.Run (State.initial clock) cs st →
        Names msg event room → st.matchingCandidates.get? room = some data →
          userId ∉ data.userIds → Untouched st (handleReceiveEvent net userId msg st) := by
  intro h
  have hu := h Clock.start strangerCalls _ .up (.of 3) (.message "rejected" "room_3_2_b") _ _ _
    (Lts.run_of_exec (rfl : Lts.exec _ _ strangerCalls = some _)) (names_message _ _) rfl (by decide)
  exact absurd hu.1 (by decide)

end Nalang.Matchmaking
