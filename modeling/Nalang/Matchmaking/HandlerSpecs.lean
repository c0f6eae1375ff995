import Nalang.Matchmaking.Handlers

/-!
# What each handler does

One specification for every loop and handler. Later modules cite these and do
not unfold the handlers.
-/

namespace Nalang.Matchmaking
open Python

/-! ### The candidate loop -/

def weigh (st : State) (userId : UserId) (userData : UserData) (filters : Filters)
    (otherId : UserId) : Except PyError Bool :=
  if otherId = userId then .ok false
  else
    match st.getRecord otherId with
    | none => .ok false
    | some parsed => mutualMatch st.clock.today parsed userData filters

section Loop
variable (st : State) (userId : UserId) (userData : UserData) (filters : Filters)

theorem weigh_of_record {otherId : UserId} {parsed : CallRecord} (hne : otherId ≠ userId)
    (hr : st.getRecord otherId = some parsed) :
    weigh st userId userData filters otherId =
      mutualMatch st.clock.today parsed userData filters := by
  rw [weigh, if_neg hne, hr]

theorem weigh_ne_false {otherId : UserId} (h : weigh st userId userData filters otherId ≠ .ok false) :
    otherId ≠ userId ∧ ∃ parsed, st.getRecord otherId = some parsed := by
  unfold weigh at h
  split_ifs at h with hne
  · exact absurd rfl h
  · cases hr : st.getRecord otherId with
    | none => simp [hr] at h
    | some parsed => exact ⟨hne, parsed, rfl⟩

theorem findPartner_cons (otherId : UserId) (ws : Socket) (rest : List (UserId × Socket)) :
    findPartner st userId userData filters ((otherId, ws) :: rest) =
      match weigh st userId userData filters otherId with
      | .error e => .error e
      | .ok true => .ok (some otherId)
      | .ok false => findPartner st userId userData filters rest := by
  unfold findPartner weigh
  split_ifs with h
  · cases rest <;> rfl
  · cases st.getRecord otherId with
    | none => cases rest <;> rfl
    | some parsed =>
      dsimp only
      rcases mutualMatch st.clock.today parsed userData filters with e | b
      · rfl
      · cases b
        · cases rest <;> rfl
        · rfl

theorem findPartner_cases (es : List (UserId × Socket)) :
    (findPartner st userId userData filters es = .ok none ∧
      ∀ e ∈ es, weigh st userId userData filters e.1 = .ok false) ∨
    (∃ pre e post, es = pre ++ e :: post ∧
      (∀ e' ∈ pre, weigh st userId userData filters e'.1 = .ok false) ∧
      ((weigh st userId userData filters e.1 = .ok true ∧
          findPartner st userId userData filters es = .ok (some e.1)) ∨
        ∃ x, weigh st userId userData filters e.1 = .error x ∧
          findPartner st userId userData filters es = .error x)) := by
  induction es with
  | nil => exact .inl ⟨rfl, by simp⟩
  | cons e es ih =>
    obtain ⟨otherId, ws⟩ := e
    have hc := findPartner_cons st userId userData filters otherId ws es
    rcases hw : weigh st userId userData filters otherId with x | b
    · exact .inr ⟨[], _, es, rfl, by simp, .inr ⟨x, hw, by rw [hc, hw]⟩⟩
    cases b with
    | true => exact .inr ⟨[], _, es, rfl, by simp, .inl ⟨hw, by rw [hc, hw]⟩⟩
    | false =>
      rw [hw] at hc
      simp only at hc
      rcases ih with ⟨hf, hall⟩ | ⟨pre, e, post, rfl, hpre, hans⟩
      · exact .inl ⟨hc.trans hf, List.forall_mem_cons.mpr ⟨hw, hall⟩⟩
      · refine .inr ⟨(otherId, ws) :: pre, e, post, rfl, List.forall_mem_cons.mpr ⟨hw, hpre⟩, ?_⟩
        rw [hc]
        exact hans

/-- Whom the loop takes: the first waiting user that matches, if nobody before it makes the loop
raise. -/
theorem findPartner_eq_some {es : List (UserId × Socket)} {p : UserId} :
    findPartner st userId userData filters es = .ok (some p) ↔
      ∃ pre ws post, es = pre ++ (p, ws) :: post ∧
        weigh st userId userData filters p = .ok true ∧
        ∀ e ∈ pre, weigh st userId userData filters e.1 = .ok false := by
  refine ⟨fun h => ?_, fun h => ?_⟩
  · rcases findPartner_cases st userId userData filters es with
      ⟨hf, _⟩ | ⟨pre, e, post, hes, hpre, ⟨hw, hf⟩ | ⟨x, _, hf⟩⟩
    · simp [hf] at h
    · have hp : e.1 = p := by simpa [hf] using h
      subst hp
      exact ⟨pre, e.2, post, hes, hw, hpre⟩
    · simp [hf] at h
  · obtain ⟨pre, ws, post, rfl, hw, hpre⟩ := h
    induction pre with
    | nil => rw [List.nil_append, findPartner_cons, hw]
    | cons e pre ih =>
      obtain ⟨he, hpre⟩ := List.forall_mem_cons.mp hpre
      rw [List.cons_append, ← Prod.mk.eta (p := e), findPartner_cons, he]
      exact ih hpre

theorem findPartner_none {st : State} {userId : UserId} {userData : UserData} {filters : Filters}
    {es : List (UserId × Socket)} (h : findPartner st userId userData filters es = .ok none) :
    ∀ e ∈ es, weigh st userId userData filters e.1 = .ok false := by
  rcases findPartner_cases st userId userData filters es with
    ⟨_, hall⟩ | ⟨_, _, _, _, _, ⟨_, hf⟩ | ⟨_, _, hf⟩⟩
  · exact hall
  · simp [hf] at h
  · simp [hf] at h

theorem findPartner_mem {es : List (UserId × Socket)} {p : UserId}
    (h : findPartner st userId userData filters es = .ok (some p)) :
    p ≠ userId ∧ ∃ ws, (p, ws) ∈ es := by
  obtain ⟨pre, ws, post, hes, hw, _⟩ := (findPartner_eq_some st userId userData filters).mp h
  have hne := (weigh_ne_false st userId userData filters (by rw [hw]; simp)).1
  exact ⟨hne, ws, by simp [hes]⟩

end Loop

/-! ### `handle_connect` -/

theorem propose_tables (net : Net) (st : State) (userId : UserId) (ws1 : Socket) (partner : UserId)
    (ws2 : Socket) (room : String) :
    let st' := (propose net st userId ws1 partner ws2 room).state
    st'.waitingUsers = st.waitingUsers ∧ st'.matchingCandidates = st.matchingCandidates ∧
      st'.enteredUsers = st.enteredUsers ∧ st'.clock = st.clock := by
  unfold propose
  cases net 0 ws1 with
  | some e => simp
  | none => cases net 1 ws2 <;> simp

theorem propose_sent (net : Net) (st : State) (userId : UserId) (ws1 : Socket) (partner : UserId)
    (ws2 : Socket) (room : String) :
    (propose net st userId ws1 partner ws2 room).sent.head? =
      some ⟨ws1, .matchProposal room partner, net 0 ws1⟩ := by
  unfold propose
  cases h₀ : net 0 ws1 with
  | some e => rfl
  | none => cases net 1 ws2 <;> rfl

theorem propose_raised {net : Net} (st : State) (userId : UserId) (ws1 : Socket) (partner : UserId)
    (ws2 : Socket) (room : String) (h : ∀ n sock, net n sock = none) :
    (propose net st userId ws1 partner ws2 room).raised = none := by
  simp [propose, h]

theorem propose_congr (net : Net) (st st' : State) (userId : UserId) (ws1 : Socket)
    (partner : UserId) (ws2 : Socket) (room : String) :
    (propose net st userId ws1 partner ws2 room).sent =
        (propose net st' userId ws1 partner ws2 room).sent ∧
      (propose net st userId ws1 partner ws2 room).raised =
        (propose net st' userId ws1 partner ws2 room).raised := by
  unfold propose
  cases net 0 ws1 with
  | some e => exact ⟨rfl, rfl⟩
  | none =>
    cases net 1 ws2 with
    | some e => exact ⟨rfl, rfl⟩
    | none => exact ⟨rfl, rfl⟩

def recordOf (user : User) (query : QueryParams) : CallRecord := ⟨user.userData, query.filters⟩

/-- The loop of `handle_connect`, over the queue as it stands. -/
def partnerFor (user : User) (query : QueryParams) (st : State) : Except PyError (Option UserId) :=
  findPartner (st.setRecord user.id (recordOf user query)) user.id user.userData query.filters
    st.waitingUsers.entries

theorem weigh_setRecord (st : State) (userId : UserId) (record : CallRecord) (userData : UserData)
    (filters : Filters) (otherId : UserId) :
    weigh (st.setRecord userId record) userId userData filters otherId =
      weigh st userId userData filters otherId := by
  unfold weigh
  split_ifs with h
  · rfl
  · simp [State.getRecord, State.setRecord, h]

def judge (user : User) (query : QueryParams) (st : State) (otherId : UserId) : Except PyError Bool :=
  weigh st user.id user.userData query.filters otherId

/-- Everybody queued before `e` is passed over. -/
def ReachedAt (user : User) (query : QueryParams) (st : State) (e : UserId × Socket) : Prop :=
  ∃ pre post, st.waitingUsers.entries = pre ++ e :: post ∧
    ∀ e' ∈ pre, judge user query st e'.1 = .ok false

def FindsPartner (user : User) (query : QueryParams) (st : State) (partner : UserId) : Prop :=
  ∃ ws, ReachedAt user query st (partner, ws) ∧ judge user query st partner = .ok true

def Stumbles (user : User) (query : QueryParams) (st : State) : Prop :=
  ∃ e x, ReachedAt user query st e ∧ judge user query st e.1 = .error x

theorem partnerFor_eq (user : User) (query : QueryParams) (st : State) :
    partnerFor user query st =
      findPartner st user.id user.userData query.filters st.waitingUsers.entries := by
  unfold partnerFor
  induction st.waitingUsers.entries with
  | nil => rfl
  | cons e es ih =>
    rw [← Prod.mk.eta (p := e), findPartner_cons, findPartner_cons, weigh_setRecord, ih]

theorem partnerFor_eq_some {user : User} {query : QueryParams} {st : State} {partner : UserId} :
    partnerFor user query st = .ok (some partner) ↔ FindsPartner user query st partner := by
  rw [partnerFor_eq, findPartner_eq_some]
  refine ⟨fun h => ?_, fun h => ?_⟩
  · obtain ⟨pre, ws, post, hes, hw, hpre⟩ := h
    exact ⟨ws, ⟨pre, post, hes, hpre⟩, hw⟩
  · obtain ⟨ws, ⟨pre, post, hes, hpre⟩, hw⟩ := h
    exact ⟨pre, ws, post, hes, hw, hpre⟩

theorem partnerFor_eq_error {user : User} {query : QueryParams} {st : State} :
    (∃ x, partnerFor user query st = .error x) ↔ Stumbles user query st := by
  rw [partnerFor_eq]
  refine ⟨fun h => ?_, fun h => ?_⟩
  · obtain ⟨x, hx⟩ := h
    rcases findPartner_cases st user.id user.userData query.filters st.waitingUsers.entries with
      ⟨hf, _⟩ | ⟨pre, e, post, hes, hpre, ⟨_, hf⟩ | ⟨y, hw, _⟩⟩
    · simp [hf] at hx
    · simp [hf] at hx
    · exact ⟨e, y, ⟨pre, post, hes, hpre⟩, hw⟩
  · obtain ⟨e, x, ⟨pre, post, hes, hpre⟩, hw⟩ := h
    refine ⟨x, ?_⟩
    rw [hes]
    clear hes
    induction pre with
    | nil =>
      rw [List.nil_append, ← Prod.mk.eta (p := e), findPartner_cons]
      simp only [judge] at hw
      rw [hw]
    | cons e' pre ih =>
      obtain ⟨he, hpre⟩ := List.forall_mem_cons.mp hpre
      simp only [judge] at he
      rw [List.cons_append, ← Prod.mk.eta (p := e'), findPartner_cons, he]
      exact ih hpre

inductive ConnectCases (net : Net) (hex : String) (ws : Socket) (user : User) (query : QueryParams)
    (st : State) : Prop
  | raises (e : PyError) (hp : partnerFor user query st = .error e)
      (ho : handleConnect net hex ws user query st =
        ⟨st.setRecord user.id (recordOf user query), [], some e⟩)
  | registers (hp : partnerFor user query st = .ok none)
      (ho : handleConnect net hex ws user query st =
        ⟨register (st.setRecord user.id (recordOf user query)) user.id ws, [], none⟩)
  | proposes (partner : UserId) (ws2 : Socket) (hp : partnerFor user query st = .ok (some partner))
      (hne : partner ≠ user.id) (hw : st.waitingUsers.get? partner = some ws2)
      (ho : handleConnect net hex ws user query st =
        propose net (claim (st.setRecord user.id (recordOf user query)) user.id ws partner ws2
          (roomName user.id partner hex)) user.id ws partner ws2 (roomName user.id partner hex))

theorem handleConnect_cases (net : Net) (hex : String) (ws : Socket) (user : User)
    (query : QueryParams) (st : State) : ConnectCases net hex ws user query st := by
  rcases hp : partnerFor user query st with e | m
  · refine .raises e hp ?_
    unfold partnerFor recordOf at hp
    simp [handleConnect, hp, recordOf]
  cases m with
  | none =>
    refine .registers hp ?_
    unfold partnerFor recordOf at hp
    simp [handleConnect, hp, recordOf]
  | some partner =>
    obtain ⟨hne, ws', hmem⟩ := findPartner_mem _ _ _ _ hp
    have hw := OrderedDict.get?_eq_some.mpr hmem
    refine .proposes partner ws' hp hne hw ?_
    unfold partnerFor recordOf at hp
    simp [handleConnect, hp, recordOf, hw]

/-! ### `handle_receive_event` -/

def Names (msg : Json) (event : Json) (room : String) : Prop :=
  msg.get "event" = .ok event ∧ msg.get "room" = .ok (.str room)

theorem Names.unique {msg event event' : Json} {room room' : String} (h : Names msg event room)
    (h' : Names msg event' room') : event = event' ∧ room = room' := by
  have he := h.1.symm.trans h'.1
  have hr := h.2.symm.trans h'.2
  simp only [Except.ok.injEq, Json.str.injEq] at he hr
  exact ⟨he, hr⟩

theorem handleReceiveEvent_of_names (net : Net) (userId : UserId) {msg event : Json} {room : String}
    {data : MatchCandidate} {st : State} (hn : Names msg event room) (hp : event.printable)
    (hg : st.matchingCandidates.get? room = some data) :
    handleReceiveEvent net userId msg st = handleRoomEvent net userId event room data st := by
  simp [handleReceiveEvent, hn.1, hn.2, hp, Json.asRoomKey, hg]

theorem handleReceiveEvent_of_unprintable (net : Net) (userId : UserId) {msg event room : Json}
    (st : State) (he : msg.get "event" = .ok event) (hr : msg.get "room" = .ok room)
    (hp : ¬ (event.printable ∧ room.printable)) :
    handleReceiveEvent net userId msg st = ⟨st, [], some .unicodeEncodeError⟩ := by
  unfold handleReceiveEvent
  rw [he, hr]
  exact if_neg hp

theorem handleReceiveEvent_cases (net : Net) (userId : UserId) (msg : Json) (st : State) :
    (∃ e, handleReceiveEvent net userId msg st = ⟨st, [], e⟩) ∨
      ∃ event room data, Names msg event room ∧ st.matchingCandidates.get? room = some data ∧
        handleReceiveEvent net userId msg st = handleRoomEvent net userId event room data st := by
  unfold handleReceiveEvent
  rcases he : msg.get "event" with x | event
  · exact .inl ⟨some x, rfl⟩
  rcases hr : msg.get "room" with x | roomJson
  · exact .inl ⟨some x, rfl⟩
  dsimp only
  split_ifs
  swap
  · exact .inl ⟨_, rfl⟩
  cases roomJson with
  | str room =>
    simp only [Json.asRoomKey]
    cases hg : st.matchingCandidates.get? room with
    | none => exact .inl ⟨none, rfl⟩
    | some data => exact .inr ⟨event, room, data, ⟨he, hr⟩, hg, rfl⟩
  | array items => exact .inl ⟨some .typeError, rfl⟩
  | object fields => exact .inl ⟨some .typeError, rfl⟩
  | null => exact .inl ⟨none, rfl⟩
  | bool b => exact .inl ⟨none, rfl⟩
  | int n => exact .inl ⟨none, rfl⟩
  | float text => exact .inl ⟨none, rfl⟩
  | surrogates codePoints => exact .inl ⟨none, rfl⟩

theorem handleRoomEvent_cases (net : Net) (userId : UserId) (event : Json) (room : String)
    (data : MatchCandidate) (st : State) :
    (event = .str "entered" ∧ handleRoomEvent net userId event room data st =
        ⟨{ st with enteredUsers := insert userId st.enteredUsers }, [], none⟩) ∨
    (event = .str "accept" ∧
        handleRoomEvent net userId event room data st = handleAccept net userId room data st) ∨
    (event = .str "rejected" ∧
        handleRoomEvent net userId event room data st = handleRejected net userId room data st) ∨
    (event ≠ .str "entered" ∧ event ≠ .str "accept" ∧ event ≠ .str "rejected" ∧
        handleRoomEvent net userId event room data st = ⟨st, [], none⟩) := by
  unfold handleRoomEvent
  split
  · exact .inl ⟨rfl, rfl⟩
  · exact .inr (.inl ⟨rfl, rfl⟩)
  · exact .inr (.inr (.inl ⟨rfl, rfl⟩))
  · rename_i h₁ h₂ h₃
    exact .inr (.inr (.inr ⟨h₁, h₂, h₃, rfl⟩))

theorem sendEach_sockets (net : Net) (event : ServerEvent) (n : ℕ) (socks : List Socket) :
    ∀ m ∈ (sendEach net event n socks).1, m.event = event ∧ m.socket ∈ socks := by
  induction socks generalizing n with
  | nil => simp [sendEach]
  | cons sock socks ih =>
    intro m hm
    cases hs : net n sock with
    | some e =>
      simp only [sendEach, hs, List.mem_singleton] at hm
      subst hm
      exact ⟨rfl, List.mem_cons_self⟩
    | none =>
      simp only [sendEach, hs, List.mem_cons] at hm
      rcases hm with rfl | hm
      · exact ⟨rfl, List.mem_cons_self⟩
      · obtain ⟨he, hsock⟩ := ih (n + 1) m hm
        exact ⟨he, List.mem_cons_of_mem _ hsock⟩

theorem handleAccept_state (net : Net) (userId : UserId) (room : String) (data : MatchCandidate)
    (st : State) :
    (handleAccept net userId room data st).state =
        { st with
          matchingCandidates := st.matchingCandidates.set room
            { data with accepted := insert userId data.accepted } } ∨
      (insert userId data.accepted).card = 2 ∧ (handleAccept net userId room data st).state =
        { st with
          matchingCandidates := (st.matchingCandidates.set room
            { data with accepted := insert userId data.accepted }).erase room } := by
  unfold handleAccept
  dsimp only
  split_ifs with hc
  · split
    · exact .inl rfl
    · exact .inr ⟨hc, rfl⟩
  · exact .inl rfl

theorem handleAccept_sent (net : Net) (userId : UserId) (room : String) (data : MatchCandidate)
    (st : State) :
    (handleAccept net userId room data st).sent =
      if (insert userId data.accepted).card = 2 then
        (sendEach net (.matched room) 0 data.sockets).1
      else [] := by
  unfold handleAccept
  dsimp only
  split_ifs with hc
  · split
    · rename_i h
      rw [h]
    · rename_i h
      rw [h]
  · rfl

theorem handleRejected_sent (net : Net) (userId : UserId) (room : String) (data : MatchCandidate)
    (st : State) :
    (handleRejected net userId room data st).sent =
      (rejectLoop net userId data.sockets 0 0 data.userIds st.waitingUsers).2.1 := by
  unfold handleRejected
  split
  · rename_i h
    rw [h]
  · rename_i h
    rw [h]

theorem rejectLoop_event (net : Net) (userId : UserId) (sockets : List Socket) (idx n : ℕ)
    (uids : List UserId) (waiting : OrderedDict UserId Socket) :
    ∀ m ∈ (rejectLoop net userId sockets idx n uids waiting).2.1,
      m.event = .rejected ∧ m.socket ∈ sockets := by
  induction uids generalizing idx n waiting with
  | nil => simp [rejectLoop]
  | cons uid uids ih =>
    unfold rejectLoop
    split_ifs with hu
    · cases hs : sockets[idx]? with
      | none => simp
      | some sock =>
        refine List.forall_mem_cons.mpr ⟨⟨rfl, List.mem_of_getElem? hs⟩, ?_⟩
        exact ih _ _ _
    · exact ih _ _ _

theorem rejectLoop_waiting (net : Net) (userId : UserId) (sockets : List Socket) (idx n : ℕ)
    (uids : List UserId) (waiting : OrderedDict UserId Socket) {e : UserId × Socket}
    (h : e ∈ (rejectLoop net userId sockets idx n uids waiting).1.entries) :
    e ∈ waiting.entries ∨
      e.1 ≠ userId ∧ ∃ i, uids[i]? = some e.1 ∧ sockets[idx + i]? = some e.2 := by
  induction uids generalizing idx n waiting with
  | nil => exact .inl h
  | cons uid uids ih =>
    have hlater : ∀ {i}, uids[i]? = some e.1 ∧ sockets[idx + 1 + i]? = some e.2 →
        ∃ i, (uid :: uids)[i]? = some e.1 ∧ sockets[idx + i]? = some e.2 := by
      intro i hi
      refine ⟨i + 1, by simpa using hi.1, ?_⟩
      rw [← hi.2, Nat.add_assoc, Nat.add_comm 1 i]
    unfold rejectLoop at h
    split_ifs at h with hu
    · cases hs : sockets[idx]? with
      | none =>
        rw [hs] at h
        exact .inl h
      | some sock =>
        rw [hs] at h
        dsimp only at h
        rcases ih _ _ _ h with hw | ⟨hne, i, hi⟩
        · split_ifs at hw with hnet
          · rcases OrderedDict.mem_entries_set.mp hw with rfl | ⟨hw, _⟩
            · exact .inr ⟨hu, 0, rfl, hs⟩
            · exact .inl hw
          · exact .inl hw
        · exact .inr ⟨hne, hlater hi⟩
    · rcases ih _ _ _ h with hw | ⟨hne, i, hi⟩
      · exact .inl hw
      · exact .inr ⟨hne, hlater hi⟩

theorem rejectLoop_raised (net : Net) (userId : UserId) (sockets : List Socket) (idx n : ℕ)
    (uids : List UserId) (waiting : OrderedDict UserId Socket)
    (hl : idx + uids.length ≤ sockets.length) :
    (rejectLoop net userId sockets idx n uids waiting).2.2 = none := by
  induction uids generalizing idx n waiting with
  | nil => rfl
  | cons uid uids ih =>
    rw [List.length_cons] at hl
    unfold rejectLoop
    split_ifs with hu
    · rw [List.getElem?_eq_getElem (by omega)]
      exact ih _ _ _ (by omega)
    · exact ih _ _ _ (by omega)

theorem handleRejected_state (net : Net) (userId : UserId) (room : String) {data : MatchCandidate}
    (st : State) (hl : data.userIds.length ≤ data.sockets.length) :
    (handleRejected net userId room data st).state =
      { st with
        waitingUsers := (rejectLoop net userId data.sockets 0 0 data.userIds st.waitingUsers).1
        matchingCandidates := st.matchingCandidates.erase room } := by
  have hn := rejectLoop_raised net userId data.sockets 0 0 data.userIds st.waitingUsers (by omega)
  unfold handleRejected
  split
  · rename_i h
    simp [h] at hn
  · rename_i h
    rw [h]

/-! ### `handle_disconnect` -/

theorem notifyEach_sockets (net : Net) (event : ServerEvent) (n : ℕ) (socks : List Socket) :
    (notifyEach net event n socks).map (fun m => (m.socket, m.event)) =
      socks.map fun sock => (sock, event) := by
  induction socks generalizing n with
  | nil => rfl
  | cons sock socks ih => simp [notifyEach, ih (n + 1)]

section Disconnect
variable (net : Net) (userId : UserId)

theorem disconnectLoop_toRemove (n : ℕ) (rooms : List (String × MatchCandidate)) (st : State) :
    (disconnectLoop net userId n rooms st).2.2 =
      (rooms.filter fun e => userId ∈ e.2.userIds).map Prod.fst := by
  induction rooms generalizing n st with
  | nil => rfl
  | cons e rooms ih =>
    obtain ⟨room, data⟩ := e
    unfold disconnectLoop
    split_ifs with hm he
    · simp [hm, ih]
    · simp [hm, ih]
    · simp [hm, ih]

theorem disconnectLoop_state (n : ℕ) (rooms : List (String × MatchCandidate)) (st : State) :
    (disconnectLoop net userId n rooms st).1 = st ∨
      (disconnectLoop net userId n rooms st).1 = st.deleteRecord userId := by
  induction rooms generalizing n st with
  | nil => exact .inl rfl
  | cons e rooms ih =>
    obtain ⟨room, data⟩ := e
    unfold disconnectLoop
    split_ifs with hm he
    · exact ih n st
    · have hd : (st.deleteRecord userId).deleteRecord userId = st.deleteRecord userId := by
        simp [State.deleteRecord, ExpiringStore.delete]
      rcases ih (n + (notifyEach net .disconnected n data.sockets).length)
        (st.deleteRecord userId) with h | h
      · exact .inr h
      · exact .inr (h.trans hd)
    · exact ih n st

theorem disconnectLoop_sent_of_entered (n : ℕ) (rooms : List (String × MatchCandidate)) {st : State}
    (he : userId ∈ st.enteredUsers) : (disconnectLoop net userId n rooms st).2.1 = [] := by
  induction rooms generalizing n with
  | nil => rfl
  | cons e rooms ih =>
    obtain ⟨room, data⟩ := e
    unfold disconnectLoop
    split_ifs with hm
    · exact ih n
    · exact ih n

def socketsOf (rooms : List (String × MatchCandidate)) : List Socket :=
  (rooms.filter fun e => userId ∈ e.2.userIds).flatMap fun e => e.2.sockets

theorem disconnectLoop_sent (n : ℕ) (rooms : List (String × MatchCandidate)) {st : State}
    (he : userId ∉ st.enteredUsers) :
    (disconnectLoop net userId n rooms st).2.1.map (fun m => (m.socket, m.event)) =
      (socketsOf userId rooms).map fun sock => (sock, .disconnected) := by
  induction rooms generalizing n st with
  | nil => rfl
  | cons e rooms ih =>
    obtain ⟨room, data⟩ := e
    unfold disconnectLoop
    split_ifs with hm
    · have he' : userId ∉ (st.deleteRecord userId).enteredUsers := he
      have hr := ih (n + (notifyEach net .disconnected n data.sockets).length) he'
      simp only [List.map_append, notifyEach_sockets, hr, socketsOf]
      simp [hm]
    · rw [ih n he]
      simp [socketsOf, hm]

def forgetWaiting (st : State) : State :=
  if userId ∈ st.waitingUsers then
    { st with waitingUsers := st.waitingUsers.erase userId }.deleteRecord userId
  else st

theorem forgetWaiting_tables (st : State) :
    (forgetWaiting userId st).waitingUsers.entries = (st.waitingUsers.erase userId).entries ∧
      (forgetWaiting userId st).matchingCandidates = st.matchingCandidates ∧
      (forgetWaiting userId st).enteredUsers = st.enteredUsers ∧
      (forgetWaiting userId st).clock = st.clock := by
  unfold forgetWaiting
  split_ifs with h
  · exact ⟨rfl, rfl, rfl, rfl⟩
  · exact ⟨(OrderedDict.entries_erase_of_not_mem h).symm, rfl, rfl, rfl⟩

theorem handleDisconnect_tables (st : State) :
    let st' := (handleDisconnect net userId st).state
    st'.waitingUsers.entries = (st.waitingUsers.erase userId).entries ∧
      st'.matchingCandidates.entries =
        st.matchingCandidates.entries.filter (fun e => userId ∉ e.2.userIds) ∧
      st'.enteredUsers = st.enteredUsers.erase userId ∧ st'.clock = st.clock := by
  obtain ⟨hw, hm, he, hk⟩ := forgetWaiting_tables userId st
  have hr := disconnectLoop_toRemove net userId 0 st.matchingCandidates.entries
    (forgetWaiting userId st)
  have hs := disconnectLoop_state net userId 0 st.matchingCandidates.entries
    (forgetWaiting userId st)
  have hkeep : ((forgetWaiting userId st).matchingCandidates.eraseAll
      ((st.matchingCandidates.entries.filter fun e => userId ∈ e.2.userIds).map Prod.fst)).entries =
      st.matchingCandidates.entries.filter (fun e => userId ∉ e.2.userIds) := by
    rw [hm, OrderedDict.entries_eraseAll]
    refine List.filter_congr fun e hmem => ?_
    rw [decide_eq_decide, not_iff_not]
    refine ⟨fun h => ?_, fun h => List.mem_map_of_mem (List.mem_filter.mpr ⟨hmem, by simpa using h⟩)⟩
    obtain ⟨e', he', hfst⟩ := List.mem_map.mp h
    obtain ⟨hmem', hin⟩ := List.mem_filter.mp he'
    have : e' = e := List.inj_on_of_nodup_map st.matchingCandidates.nodup hmem' hmem hfst
    subst this
    simpa using hin
  have hdef : handleDisconnect net userId st =
      let r := disconnectLoop net userId 0 st.matchingCandidates.entries (forgetWaiting userId st)
      ⟨{ r.1 with
          matchingCandidates := r.1.matchingCandidates.eraseAll r.2.2
          enteredUsers := r.1.enteredUsers.erase userId }, r.2.1, none⟩ := by
    rw [← hm]
    rfl
  rw [hdef]
  dsimp only
  rw [hr]
  rcases hs with hs | hs
  · rw [hs]
    exact ⟨hw, hkeep, by rw [he], hk⟩
  · rw [hs]
    exact ⟨hw, hkeep, by rw [State.deleteRecord_enteredUsers, he], hk⟩

end Disconnect

end Nalang.Matchmaking
