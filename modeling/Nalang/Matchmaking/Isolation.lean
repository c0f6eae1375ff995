import Nalang.Matchmaking.Server

/-!
# The end of one of several connections

`handle_disconnect` knows the user and not the connection. It removes all
registrations of the user, also those that hold the socket of another open
connection. Every registered socket belongs to an open connection of the user it
is registered for, so a user with a single connection loses only its own.
-/

namespace Nalang.Matchmaking
open Python Transition

/-- The user is in the queue, or in a room, with this socket. -/
def Registered (st : State) (id : UserId) (ws : Socket) : Prop :=
  (id, ws) ∈ st.waitingUsers.entries ∨
    ∃ e ∈ st.rooms, (id, ws) ∈ e.2.userIds.zip e.2.sockets

theorem registered_mono {st st' : State}
    (hw : ∀ e ∈ st'.waitingUsers.entries, Registered st e.1 e.2)
    (hm : ∀ e ∈ st'.rooms, ∃ e' ∈ st.rooms, e'.2.userIds = e.2.userIds ∧
      e'.2.sockets = e.2.sockets) {id : UserId} {ws : Socket} (hr : Registered st' id ws) :
    Registered st id ws := by
  rcases hr with hr | ⟨e, he, hr⟩
  · exact hw _ hr
  · obtain ⟨e', he', hids, hsocks⟩ := hm e he
    exact .inr ⟨e', he', by rwa [hids, hsocks]⟩

theorem registered_of_change {st st' : State} {c : Call} (h : Change st c st') {id : UserId}
    {ws : Socket} (hr : Registered st' id ws) :
    Registered st id ws ∨ ∃ net hex user query, c = .connect net hex ws user query ∧ id = user.id := by
  have hwait : ∀ e ∈ st.waitingUsers.entries, Registered st e.1 e.2 := fun e he => .inl he
  have hroom : ∀ e ∈ st.rooms, ∃ e' ∈ st.rooms, e'.2.userIds = e.2.userIds ∧
      e'.2.sockets = e.2.sockets := fun e he => ⟨e, he, rfl, rfl⟩
  cases h with
  | same hw hm _ _ =>
    refine .inl (registered_mono ?_ ?_ hr)
    · rwa [hw]
    · rwa [State.rooms, hm]
  | @registers net hex ws' user query _ _ hw hm _ =>
    rcases hr with hr | ⟨e, he, hr⟩
    · rw [hw] at hr
      rcases OrderedDict.mem_entries_set.mp hr with heq | ⟨hr, _⟩
      · rw [Prod.mk.injEq] at heq
        exact .inr ⟨net, hex, user, query, by rw [heq.2], heq.1⟩
      · exact .inl (.inl hr)
    · rw [State.rooms, hm] at he
      exact .inl (.inr ⟨e, he, hr⟩)
  | @claims net hex ws' user query _ partner ws2 _ _ hg hw hm _ =>
    rcases hr with hr | ⟨e, he, hr⟩
    · rw [hw] at hr
      exact .inl (.inl (OrderedDict.mem_entries_erase.mp hr).1)
    · rw [State.rooms, hm] at he
      rcases OrderedDict.mem_entries_set.mp he with rfl | ⟨he, _⟩
      · simp only [List.zip_cons_cons, List.zip_nil_right, List.mem_cons, Prod.mk.injEq,
          List.not_mem_nil, or_false] at hr
        rcases hr with ⟨rfl, rfl⟩ | ⟨rfl, rfl⟩
        · exact .inr ⟨net, hex, user, query, rfl, rfl⟩
        · exact .inl (.inl (OrderedDict.get?_eq_some.mp hg))
      · exact .inl (.inr ⟨e, he, hr⟩)
  | enters _ _ _ _ hw hm _ =>
    refine .inl (registered_mono ?_ ?_ hr)
    · rwa [hw]
    · rwa [State.rooms, hm]
  | @accepts net userId _ _ room data _ hg hw hm _ =>
    have hset : ∀ e ∈ (st.matchingCandidates.set room
        { data with accepted := insert userId data.accepted }).entries,
        ∃ e' ∈ st.rooms, e'.2.userIds = e.2.userIds ∧ e'.2.sockets = e.2.sockets := by
      intro e he
      rcases OrderedDict.mem_entries_set.mp he with rfl | ⟨he, _⟩
      · exact ⟨(room, data), OrderedDict.get?_eq_some.mp hg, rfl, rfl⟩
      · exact hroom e he
    refine .inl (registered_mono ?_ ?_ hr)
    · rwa [hw]
    · intro e he
      rcases hm with hm | hm
      · rw [State.rooms, hm] at he
        exact hset e he
      · rw [State.rooms, hm] at he
        exact hset e (OrderedDict.mem_entries_erase.mp he).1
  | rejects room data _ hg hw hm _ =>
    refine .inl (registered_mono ?_ ?_ hr)
    · intro e he
      rw [hw] at he
      rcases rejectLoop_waiting _ _ _ _ _ _ _ he with hold | ⟨_, i, hid, hsock⟩
      · exact .inl hold
      · rw [Nat.zero_add] at hsock
        refine .inr ⟨(room, data), OrderedDict.get?_eq_some.mp hg, ?_⟩
        exact List.mem_of_getElem? (List.getElem?_zip_eq_some.mpr ⟨hid, hsock⟩)
    · intro e he
      rw [State.rooms, hm] at he
      exact hroom e (OrderedDict.mem_entries_erase.mp he).1
  | leaves hw hm _ =>
    refine .inl (registered_mono ?_ ?_ hr)
    · intro e he
      rw [hw] at he
      exact .inl (OrderedDict.mem_entries_erase.mp he).1
    · intro e he
      rw [hm] at he
      exact hroom e (List.mem_of_mem_filter he)

theorem not_registered_after_disconnect (net : Net) (id : UserId) (st : State) (ws : Socket) :
    ¬ Registered (handleDisconnect net id st).state id ws := by
  obtain ⟨hw, hm, _, _⟩ := handleDisconnect_tables net id st
  intro h
  rcases h with h | ⟨e, he, h⟩
  · rw [hw] at h
    exact (OrderedDict.mem_entries_erase.mp h).2 rfl
  · rw [State.rooms, hm] at he
    have hnot : id ∉ e.2.userIds := by simpa using (List.mem_filter.mp he).2
    exact hnot (List.of_mem_zip h).1

theorem not_registered_initial {clock : Clock} {id : UserId} {ws : Socket} :
    ¬ Registered (State.initial clock) id ws := by
  intro h
  rcases h with h | ⟨e, he, _⟩
  · cases h
  · cases he

def SocketsOwned (sv : Server) : Prop := ∀ id ws, Registered sv.state id ws → sv.Open ws id

theorem open_set_self {sv sv' : Server} {ws : Socket} {user : User} {phase : Phase}
    (hc : sv'.connections = sv.connections.set ws ⟨user, phase⟩) : sv'.Open ws user.id :=
  ⟨⟨user, phase⟩, by rw [hc, OrderedDict.get?_set_self], rfl⟩

theorem open_of_renewed {sv sv' : Server} {ws s : Socket} {user : User} {phase : Phase} {id : UserId}
    (hopen : sv.Open ws user.id) (hc : sv'.connections = sv.connections.set ws ⟨user, phase⟩)
    (h : sv.Open s id) : sv'.Open s id := by
  by_cases hs : s = ws
  · obtain ⟨conn, hg, hid⟩ := h
    obtain ⟨conn', hg', hid'⟩ := hopen
    rw [hs, hg', Option.some.injEq] at hg
    have : id = user.id := by rw [← hid, ← hg, hid']
    rw [hs, this]
    exact open_set_self hc
  · obtain ⟨conn, hg, hid⟩ := h
    exact ⟨conn, by rw [hc, OrderedDict.get?_set_ne _ _ hs, hg], hid⟩

theorem socketsOwned_step {sv sv' : Server} {i : Input} (hs : RoomsShaped sv.state)
    (h : SocketsOwned sv) (hstep : server.step sv i sv') : SocketsOwned sv' := by
  obtain ⟨c, hserves⟩ := serves_of_step hstep
  have hchange := change_of_step hs hserves.call_step
  intro id ws hr
  have horigin := registered_of_change hchange hr
  cases hserves with
  | @connects net hex ws' user query _ phase hnew _ hc =>
    rcases horigin with hold | ⟨_, _, _, _, heq, hid⟩
    · obtain ⟨conn, hg, hu⟩ := h id ws hold
      have hne : ws ≠ ws' := fun he => hnew (he ▸ OrderedDict.mem_of_get? hg)
      exact ⟨conn, by rw [hc, OrderedDict.get?_set_ne _ _ hne, hg], hu⟩
    · injection heq with _ _ hws huser _
      rw [hid, ← hws, ← huser]
      exact open_set_self hc
  | receives hopen _ hc =>
    rcases horigin with hold | ⟨_, _, _, _, heq, _⟩
    · exact open_of_renewed hopen hc (h id ws hold)
    · cases heq
  | @ends net ws' user _ hopen hst hc =>
    rcases horigin with hold | ⟨_, _, _, _, heq, _⟩
    · rcases hc with hc | hc
      · exact open_of_renewed hopen hc (h id ws hold)
      · have hid : id ≠ user.id := by
          intro he
          rw [hst, he] at hr
          exact not_registered_after_disconnect net user.id sv.state ws hr
        obtain ⟨conn, hg, hu⟩ := h id ws hold
        obtain ⟨conn', hg', hu'⟩ := hopen
        have hne : ws ≠ ws' := by
          intro he
          rw [he, hg', Option.some.injEq] at hg
          exact hid (by rw [← hu, ← hg, hu'])
        exact ⟨conn, by rw [hc, OrderedDict.get?_erase_ne _ hne, hg], hu⟩
    · cases heq
  | elapses _ hc =>
    rcases horigin with hold | ⟨_, _, _, _, heq, _⟩
    · obtain ⟨conn, hg, hu⟩ := h id ws hold
      exact ⟨conn, by rw [hc, hg], hu⟩
    · cases heq

theorem socketsOwned_of_server {clock : Clock} {sv : Server} {is : List Input}
    (hr : server.Run (.initial clock) is sv) : SocketsOwned sv := by
  refine (hr.invariant (fun sv => RoomsShaped sv.state ∧ SocketsOwned sv) ⟨?_, ?_⟩ ?_).2
  · intro e he
    exact absurd he List.not_mem_nil
  · intro id ws hreg
    exact absurd hreg not_registered_initial
  · intro sv i sv' h hstep
    obtain ⟨c, hserves⟩ := serves_of_step hstep
    exact ⟨roomsShaped_step h.1 hserves.call_step, socketsOwned_step h.1 h.2 hstep⟩

theorem close_state {sv sv' : Server} {net : Net} {ws : Socket} {id : UserId}
    (hopen : sv.Open ws id) (hstep : server.step sv (.close net ws) sv') :
    sv'.state = (handleDisconnect net id sv.state).state := by
  obtain ⟨c, hserves⟩ := serves_of_step hstep
  cases hserves with
  | @ends _ _ user _ hopen' hst _ =>
    obtain ⟨conn, hg, hid⟩ := hopen
    obtain ⟨conn', hg', hid'⟩ := hopen'
    rw [hg, Option.some.injEq] at hg'
    rw [hst, ← hid', ← hg', hid]

/-- The end of a connection removes the entry and the rooms of its user, whatever sockets they hold,
and nothing else. They hold the socket that ends if the user has no other connection. -/
theorem end_removes_registrations {clock : Clock} {is : List Input} {sv sv' : Server} {net : Net}
    {ws : Socket} {id : UserId} (hr : server.Run (.initial clock) is sv) (hopen : sv.Open ws id)
    (hstep : server.step sv (.close net ws) sv') :
    sv'.state.waitingUsers.entries = sv.state.waitingUsers.entries.filter (fun e => e.1 ≠ id) ∧
      sv'.state.rooms = sv.state.rooms.filter (fun e => id ∉ e.2.userIds) ∧
      ((∀ s, sv.Open s id → s = ws) → ∀ s, Registered sv.state id s → s = ws) := by
  obtain ⟨hw, hm, _, _⟩ := handleDisconnect_tables net id sv.state
  rw [close_state hopen hstep]
  refine ⟨hw, hm, fun honly s hreg => ?_⟩
  exact honly s (socketsOwned_of_server hr id s hreg)

def twoConnections : List Input :=
  [.connect .up "a" ⟨1⟩ (.plain (.of 1)) .empty, .connect .up "b" ⟨2⟩ (.plain (.of 1)) .empty]

theorem end_removes_registrations_applied :
    ∃ sv sv', server.Run (.initial .start) twoConnections sv ∧
      server.step sv (.close .up ⟨1⟩) sv' ∧ sv'.state.waitingUsers.entries = [] := by
  obtain ⟨sv, hsv⟩ : ∃ sv, Lts.exec Server.step (.initial .start) twoConnections = some sv :=
    ⟨_, rfl⟩
  have hr : server.Run (.initial .start) twoConnections sv := Lts.run_of_exec hsv
  obtain ⟨sv', hstep⟩ : ∃ sv', Server.step sv (.close .up ⟨1⟩) = some sv' := by
    cases hsv
    exact ⟨_, rfl⟩
  have hopen : sv.Open ⟨1⟩ (.of 1) := by
    cases hsv
    exact ⟨⟨.plain (.of 1), .live⟩, rfl, rfl⟩
  refine ⟨sv, sv', hr, hstep, ?_⟩
  rw [(end_removes_registrations hr hopen hstep).1]
  cases hsv
  rfl

theorem end_removes_other_connection :
    ¬ ∀ (clock : Clock) (is : List Input) (sv sv' : Server) (net : Net) (id : UserId)
      (ws s : Socket), server.Run (.initial clock) is sv → sv.Open ws id → sv.Open s id → s ≠ ws →
        server.step sv (.close net ws) sv' → Registered sv.state id s → Registered sv'.state id s := by
  intro h
  have hr : server.Run (.initial .start) twoConnections _ :=
    Lts.run_of_exec (rfl : Lts.exec _ _ twoConnections = some _)
  have hkept := h _ _ _ _ .up (.of 1) ⟨1⟩ ⟨2⟩ hr ⟨⟨.plain (.of 1), .live⟩, rfl, rfl⟩
    ⟨⟨.plain (.of 1), .live⟩, rfl, rfl⟩ (by decide) rfl (.inl List.mem_cons_self)
  exact not_registered_after_disconnect .up (.of 1) _ ⟨2⟩ hkept

end Nalang.Matchmaking
