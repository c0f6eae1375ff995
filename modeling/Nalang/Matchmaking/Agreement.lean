import Nalang.Matchmaking.DropOut

/-!
# Agreement on entering

The two members of a proposal send `entered` or `rejected` for it and close
their connections, in any order. The room goes with the first rejection and with
the first connection that ends. A member that rejects, and a partner of a member
whose id is in `entered_users` when its connection ends, are not told.
-/

namespace Nalang.Matchmaking
open Python Transition

inductive Decision
  | entered
  | rejected
  | ends
  deriving DecidableEq

structure Move where
  who : UserId
  what : Decision
  net : Net

def Move.call (room : String) (m : Move) : Call :=
  match m.what with
  | .entered => .receive m.net m.who (.message "entered" room)
  | .rejected => .receive m.net m.who (.message "rejected" room)
  | .ends => .disconnect m.net m.who

def moves (room : String) : Lts State Move := ⟨fun st m st' => calls.step st (m.call room) st'⟩

abbrev Log := List (State × Move)

def Took (log : Log) (id : UserId) (d : Decision) : Prop :=
  ∃ e ∈ log, e.2.who = id ∧ e.2.what = d

def lastWord (log : Log) (id : UserId) : Option Decision :=
  log.reverse.findSome? fun e =>
    if e.2.who = id ∧ e.2.what ≠ .ends then some e.2.what else none

/-- While the room was there, `rejected` or `disconnected` was sent to the socket. -/
def Told (room : String) (log : Log) (sock : Socket) : Prop :=
  ∃ e ∈ log, room ∈ e.1.matchingCandidates ∧ ∃ m ∈ ((e.2.call room).run e.1).sent,
    m.socket = sock ∧ (m.event = .rejected ∨ m.event = .disconnected)

/-- The first member enters for good, the second refuses or leaves without ever having entered, and
the first is not told. -/
def OneSided (room : String) (log : Log) (id : UserId) (sock : Socket) (other : UserId) : Prop :=
  lastWord log id = some .entered ∧ ¬ Took log other .entered ∧
    (Took log other .rejected ∨ Took log other .ends) ∧ ¬ Told room log sock

def PutsBack (room : String) (e : State × Move) (id : UserId) : Prop :=
  ∃ sock, ((e.2.call room).run e.1).state.waitingUsers.get? id = some sock ∧
    e.1.waitingUsers.get? id ≠ some sock

def Restored (room : String) (log : Log) (id : UserId) : Prop :=
  ∃ pre e post, log = pre ++ e :: post ∧ Took pre id .entered ∧ PutsBack room e id

/-- The room was closed by the member's own rejection, or by the end of a connection whose user was
in `entered_users`. -/
def ClosedUnheard (room : String) (log : Log) (id : UserId) : Prop :=
  ∃ e ∈ log, room ∈ e.1.matchingCandidates ∧
    (e.2.who = id ∧ e.2.what = .rejected ∨ e.2.what = .ends ∧ e.2.who ∈ e.1.enteredUsers)

def Legal (data : MatchCandidate) (s : Log × State) (m : Move) : Prop :=
  m.who ∈ data.userIds ∧ ¬ Took s.1 m.who .ends

def Partners (data : MatchCandidate) (id : UserId) (sock : Socket) (other : UserId) : Prop :=
  (id, sock) ∈ data.userIds.zip data.sockets ∧ other ∈ data.userIds ∧ id ≠ other

def Considerate (room : String) (data : MatchCandidate) (s : Log × State) (m : Move) : Prop :=
  ∀ other sock, Partners data other sock m.who →
    match m.what with
    | .entered => ClosedUnheard room s.1 m.who →
        Took s.1 other .entered ∨ ¬ (Took s.1 other .rejected ∨ Took s.1 other .ends)
    | .rejected =>
        (room ∈ s.2.matchingCandidates → Took s.1 other .entered → m.net 0 sock ≠ none) ∧
          (ClosedUnheard room s.1 other → lastWord s.1 other = some .entered →
            Took s.1 m.who .entered)
    | .ends =>
        (room ∈ s.2.matchingCandidates → m.who ∈ s.2.enteredUsers →
          lastWord s.1 other = some .entered → Took s.1 m.who .entered) ∧
        (ClosedUnheard room s.1 other → lastWord s.1 other = some .entered →
          Took s.1 m.who .entered)

/-! ### The log grows by one move -/

section Snoc
variable {room : String} {log : Log} {e : State × Move} {id : UserId}

theorem took_snoc {d : Decision} :
    Took (log ++ [e]) id d ↔ Took log id d ∨ e.2.who = id ∧ e.2.what = d := by
  simp [Took, or_and_right, exists_or]

theorem lastWord_snoc : lastWord (log ++ [e]) id =
    if e.2.who = id ∧ e.2.what ≠ .ends then some e.2.what else lastWord log id := by
  unfold lastWord
  rw [List.reverse_append, List.reverse_singleton, List.singleton_append, List.findSome?_cons]
  split_ifs with h
  · rfl
  · rfl

theorem closedUnheard_snoc : ClosedUnheard room (log ++ [e]) id ↔ ClosedUnheard room log id ∨
    room ∈ e.1.matchingCandidates ∧
      (e.2.who = id ∧ e.2.what = .rejected ∨ e.2.what = .ends ∧ e.2.who ∈ e.1.enteredUsers) := by
  simp [ClosedUnheard, or_and_right, exists_or]

theorem Told.snoc {sock : Socket} (h : Told room log sock) : Told room (log ++ [e]) sock := by
  obtain ⟨e', he, h⟩ := h
  exact ⟨e', List.mem_append_left _ he, h⟩

theorem restored_snoc (h : Restored room (log ++ [e]) id) :
    Restored room log id ∨ Took log id .entered ∧ PutsBack room e id := by
  obtain ⟨pre, e', post, hlog, ht, hp⟩ := h
  rcases List.eq_nil_or_concat post with rfl | ⟨post, last, rfl⟩
  · obtain ⟨hpre, he⟩ := List.append_inj' hlog rfl
    rw [List.singleton_inj] at he
    exact .inr ⟨hpre ▸ ht, he ▸ hp⟩
  · rw [List.concat_eq_append, ← List.cons_append, ← List.append_assoc] at hlog
    obtain ⟨hpre, _⟩ := List.append_inj' hlog rfl
    exact .inl ⟨pre, e', post, hpre, ht, hp⟩

end Snoc

/-! ### What a move does -/

section Effects
variable {room : String} {data : MatchCandidate} {st : State} {m : Move}

theorem Partners.symm (hs : Shaped room data) {id other : UserId} {sock : Socket}
    (h : Partners data id sock other) : ∃ sock', Partners data other sock' id := by
  obtain ⟨u, v, s, t, hex, huv, _, hids, hsocks⟩ := hs
  obtain ⟨hz, ho, hne⟩ := h
  simp only [hids, hsocks, List.zip_cons_cons, List.zip_nil_right, List.mem_cons, Prod.mk.injEq,
    List.not_mem_nil, or_false] at hz ho
  rcases hz with ⟨rfl, rfl⟩ | ⟨rfl, rfl⟩
  · have hov : other = v := ho.resolve_left (Ne.symm hne)
    exact ⟨t, by simp [hids, hsocks, hov], by simp [hids], Ne.symm hne⟩
  · have hou : other = u := ho.resolve_right (Ne.symm hne)
    exact ⟨s, by simp [hids, hsocks, hou], by simp [hids], Ne.symm hne⟩

theorem message_absent (event : String) (hg : st.matchingCandidates.get? room = none) :
    handleReceiveEvent m.net m.who (.message event room) st = ⟨st, [], none⟩ := by
  simp [handleReceiveEvent, (names_message event room).1, (names_message event room).2,
    Json.asRoomKey, hg]

theorem entered_run (hd : m.what = .entered) :
    ((m.call room).run st).state.matchingCandidates = st.matchingCandidates ∧
      ((m.call room).run st).state.waitingUsers = st.waitingUsers := by
  have hc : m.call room = .receive m.net m.who (.message "entered" room) := by simp [Move.call, hd]
  rw [hc, Call.run]
  cases hg : st.matchingCandidates.get? room with
  | none =>
    rw [message_absent "entered" hg]
    exact ⟨rfl, rfl⟩
  | some d =>
    rw [handleReceiveEvent_of_names m.net m.who (names_message "entered" room) rfl hg]
    exact ⟨rfl, rfl⟩

theorem rejected_run_absent (hd : m.what = .rejected)
    (hg : st.matchingCandidates.get? room = none) : ((m.call room).run st).state = st := by
  have hc : m.call room = .receive m.net m.who (.message "rejected" room) := by
    simp [Move.call, hd]
  rw [hc, Call.run, message_absent "rejected" hg]

theorem rejectLoop_pair (hs : Shaped room data) {other : UserId} {sock : Socket}
    (hp : Partners data other sock m.who) (waiting : OrderedDict UserId Socket) :
    rejectLoop m.net m.who data.sockets 0 0 data.userIds waiting =
      (if (m.net 0 sock).isNone then waiting.set other sock else waiting,
        [⟨sock, .rejected, m.net 0 sock⟩], none) := by
  obtain ⟨u, v, s, t, hex, huv, _, hids, hsocks⟩ := hs
  obtain ⟨hz, ho, hne⟩ := hp
  simp only [hids, hsocks, List.zip_cons_cons, List.zip_nil_right, List.mem_cons, Prod.mk.injEq,
    List.not_mem_nil, or_false] at hz ho
  rcases hz with ⟨rfl, rfl⟩ | ⟨rfl, rfl⟩
  · have hw : m.who = v := ho.resolve_left (Ne.symm hne)
    simp [rejectLoop, hids, hsocks, hw, huv]
  · have hw : m.who = u := ho.resolve_right (Ne.symm hne)
    simp [rejectLoop, hids, hsocks, hw, Ne.symm huv]

theorem rejected_run (hd : m.what = .rejected) (hg : st.matchingCandidates.get? room = some data)
    (hs : Shaped room data) {other : UserId} {sock : Socket}
    (hp : Partners data other sock m.who) :
    ((m.call room).run st).state.matchingCandidates = st.matchingCandidates.erase room ∧
      ((m.call room).run st).sent = [⟨sock, .rejected, m.net 0 sock⟩] ∧
      ((m.call room).run st).state.waitingUsers =
        if (m.net 0 sock).isNone then st.waitingUsers.set other sock else st.waitingUsers := by
  have hc : (m.call room).run st = handleRejected m.net m.who room data st := by
    simp only [Move.call, hd, Call.run]
    rw [handleReceiveEvent_of_names m.net m.who (names_message "rejected" room) rfl hg]
    rfl
  rw [hc, handleRejected_sent, handleRejected_state m.net m.who room st hs.length_le,
    rejectLoop_pair hs hp]
  exact ⟨rfl, rfl, rfl⟩

theorem ends_run (hd : m.what = .ends) :
    (m.call room).run st = handleDisconnect m.net m.who st := by
  simp [Move.call, hd, Call.run]

theorem ends_run_room (hd : m.what = .ends)
    (hmem : ∀ d, st.matchingCandidates.get? room = some d → m.who ∈ d.userIds) :
    ((m.call room).run st).state.matchingCandidates.get? room = none := by
  rw [ends_run hd, OrderedDict.get?_eq_none, OrderedDict.mem_iff_exists]
  intro h
  obtain ⟨d, h⟩ := h
  rw [(handleDisconnect_tables m.net m.who st).2.1, List.mem_filter] at h
  have hin := hmem d (OrderedDict.get?_eq_some.mpr h.1)
  simp [hin] at h

theorem ends_run_waiting (hd : m.what = .ends) {id : UserId} {sock : Socket}
    (h : ((m.call room).run st).state.waitingUsers.get? id = some sock) :
    st.waitingUsers.get? id = some sock := by
  rw [ends_run hd, OrderedDict.get?_eq_some, (handleDisconnect_tables m.net m.who st).1] at h
  exact OrderedDict.get?_eq_some.mpr (OrderedDict.mem_entries_erase.mp h).1

theorem ends_run_told (hd : m.what = .ends) (he : m.who ∉ st.enteredUsers) {d : MatchCandidate}
    (hg : st.matchingCandidates.get? room = some d) (hu : m.who ∈ d.userIds) {sock : Socket}
    (hsock : sock ∈ d.sockets) : Told room [(st, m)] sock := by
  have hin : sock ∈ socketsOf m.who st.rooms := by
    refine List.mem_flatMap.mpr ⟨(room, d), List.mem_filter.mpr ⟨?_, by simpa using hu⟩, hsock⟩
    exact OrderedDict.get?_eq_some.mp hg
  have hsent : (sock, ServerEvent.disconnected) ∈
      (handleDisconnect m.net m.who st).sent.map fun m => (m.socket, m.event) := by
    rw [notified_of_not_entered m.net he]
    exact List.mem_map_of_mem hin
  obtain ⟨msg, hm, hmsg⟩ := List.mem_map.mp hsent
  rw [Prod.mk.injEq] at hmsg
  refine ⟨(st, m), List.mem_singleton_self _, OrderedDict.mem_of_get? hg, msg, ?_,
    hmsg.1, .inr hmsg.2⟩
  rw [ends_run hd]
  exact hm

end Effects

/-! ### Runs of considerate moves -/

structure Negotiated (room : String) (data : MatchCandidate) (log : Log) (st : State) : Prop where
  present : ∀ d, st.matchingCandidates.get? room = some d →
    d.userIds = data.userIds ∧ d.sockets = data.sockets ∧
      ∀ id, ¬ Took log id .rejected ∧ ¬ Took log id .ends
  absent : st.matchingCandidates.get? room = none → ∀ id sock other, Partners data id sock other →
    Told room log sock ∨ ClosedUnheard room log id
  agreed : ∀ id sock other, Partners data id sock other → ClosedUnheard room log id →
    lastWord log id = some .entered → ¬ Took log other .entered →
      ¬ (Took log other .rejected ∨ Took log other .ends)
  kept : ∀ id, ¬ Restored room log id

/-- No member enters alone, and none is put back after entering. -/
def Agree (room : String) (data : MatchCandidate) (log : Log) : Prop :=
  ∀ id sock other, Partners data id sock other →
    ¬ OneSided room log id sock other ∧ ¬ Restored room log id

theorem Negotiated.agree {room : String} {data : MatchCandidate} {log : Log} {st : State}
    (h : Negotiated room data log st) : Agree room data log := by
  intro id sock other hp
  refine ⟨fun ho => ?_, h.kept id⟩
  obtain ⟨hlast, hnever, hgone, huntold⟩ := ho
  cases hg : st.matchingCandidates.get? room with
  | some d =>
    obtain ⟨_, _, hnone⟩ := h.present d hg
    rcases hgone with hgone | hgone
    · exact (hnone other).1 hgone
    · exact (hnone other).2 hgone
  | none =>
    have hunheard := (h.absent hg id sock other hp).resolve_left huntold
    exact h.agreed id sock other hp hunheard hlast hnever hgone

theorem not_closedUnheard {room : String} {log : Log} {id : UserId}
    (h : ∀ x, ¬ Took log x .rejected ∧ ¬ Took log x .ends) : ¬ ClosedUnheard room log id := by
  intro hc
  obtain ⟨e, he, _, hr | hr⟩ := hc
  · exact (h e.2.who).1 ⟨e, he, rfl, hr.2⟩
  · exact (h e.2.who).2 ⟨e, he, rfl, hr.1⟩

theorem Partners.mover {room : String} {data : MatchCandidate} (hs : Shaped room data)
    {id other who : UserId} {sock : Socket} (hp : Partners data id sock other)
    (hm : who ∈ data.userIds) : who = id ∨ who = other := by
  obtain ⟨u, v, s, t, hex, _, _, hids, hsocks⟩ := hs
  obtain ⟨hz, ho, hne⟩ := hp
  simp only [hids, hsocks, List.zip_cons_cons, List.zip_nil_right, List.mem_cons, Prod.mk.injEq,
    List.not_mem_nil, or_false] at hz ho hm
  rcases hz with ⟨rfl, rfl⟩ | ⟨rfl, rfl⟩
  · have hov := ho.resolve_left (Ne.symm hne)
    rwa [hov]
  · have hou := ho.resolve_right (Ne.symm hne)
    rw [hou]
    exact hm.symm

theorem exists_partner {room : String} {data : MatchCandidate} (hs : Shaped room data) {who : UserId}
    (hm : who ∈ data.userIds) : ∃ other sock, Partners data other sock who := by
  obtain ⟨u, v, s, t, hex, huv, _, hids, hsocks⟩ := hs
  by_cases hu : who = u
  · exact ⟨v, t, by simp [hids, hsocks], hm, fun hv => huv (hu.symm.trans hv.symm)⟩
  · exact ⟨u, s, by simp [hids, hsocks], hm, Ne.symm hu⟩

section Step
variable {room : String} {data : MatchCandidate} {log : Log} {st : State} {m : Move}

theorem negotiated_entered (hs : Shaped room data) (h : Negotiated room data log st)
    (hm : m.who ∈ data.userIds) (hc : Considerate room data (log, st) m) (hd : m.what = .entered) :
    Negotiated room data (log ++ [(st, m)]) ((m.call room).run st).state := by
  obtain ⟨hrooms, hwait⟩ : ((m.call room).run st).state.matchingCandidates = st.matchingCandidates ∧
      ((m.call room).run st).state.waitingUsers = st.waitingUsers := entered_run hd
  have htook : ∀ id d, d ≠ .entered → (Took (log ++ [(st, m)]) id d ↔ Took log id d) := by
    intro id d hne
    rw [took_snoc]
    refine or_iff_left fun h => hne ?_
    exact h.2.symm.trans hd
  refine ⟨fun d hg => ?_, fun hg id sock other hp => ?_, fun id sock other hp => ?_,
    fun id hr => ?_⟩
  · rw [hrooms] at hg
    obtain ⟨hids, hsocks, hnone⟩ := h.present d hg
    refine ⟨hids, hsocks, fun id => ?_⟩
    rw [htook id .rejected (by simp), htook id .ends (by simp)]
    exact hnone id
  · rw [hrooms] at hg
    rcases h.absent hg id sock other hp with ht | hu
    · exact .inl ht.snoc
    · exact .inr (closedUnheard_snoc.mpr (.inl hu))
  · intro hclosed hlast hnever
    rw [htook other .rejected (by simp), htook other .ends (by simp)]
    have hold : ClosedUnheard room log id := by
      rcases closedUnheard_snoc.mp hclosed with hu | ⟨_, hu⟩
      · exact hu
      · simp [hd] at hu
    rw [took_snoc, not_or] at hnever
    rcases hp.mover hs hm with hwho | hwho
    · obtain ⟨sock', hp'⟩ := hp.symm hs
      rw [← hwho] at hp'
      have hturn := hc other sock' hp'
      simp only [hd] at hturn
      exact (hturn (hwho ▸ hold)).resolve_left hnever.1
    · exact absurd ⟨hwho, hd⟩ hnever.2
  · rcases restored_snoc hr with hr | ⟨_, sock, hnew, hold⟩
    · exact h.kept id hr
    · simp only [hwait] at hnew
      exact hold hnew

theorem entered_before_rejected {id : UserId} (hd : m.what = .rejected)
    (hlast : lastWord (log ++ [(st, m)]) id = some .entered) :
    m.who ≠ id ∧ lastWord log id = some .entered := by
  rw [lastWord_snoc] at hlast
  split_ifs at hlast with hwho
  · simp [hd] at hlast
  · exact ⟨fun he => hwho ⟨he, by simp [hd]⟩, hlast⟩

theorem negotiated_rejected_absent (hs : Shaped room data) (h : Negotiated room data log st)
    (hm : m.who ∈ data.userIds) (hc : Considerate room data (log, st) m)
    (hd : m.what = .rejected) (hg : st.matchingCandidates.get? room = none) :
    Negotiated room data (log ++ [(st, m)]) ((m.call room).run st).state := by
  have hsame := rejected_run_absent hd hg
  rw [hsame]
  have hold : ∀ {id}, ClosedUnheard room (log ++ [(st, m)]) id → ClosedUnheard room log id := by
    intro id hclosed
    rcases closedUnheard_snoc.mp hclosed with hu | ⟨hin, _⟩
    · exact hu
    · exact absurd hin (OrderedDict.get?_eq_none.mp hg)
  refine ⟨fun d hd' => ?_, fun _ id sock other hp => ?_, fun id sock other hp => ?_,
    fun id hr => ?_⟩
  · rw [hg] at hd'
    cases hd'
  · rcases h.absent hg id sock other hp with ht | hu
    · exact .inl ht.snoc
    · exact .inr (closedUnheard_snoc.mpr (.inl hu))
  · intro hclosed hlast hnever _
    obtain ⟨hne, hlast⟩ := entered_before_rejected hd hlast
    have hwho := (hp.mover hs hm).resolve_left hne
    have hturn := hc id sock (hwho ▸ hp)
    simp only [hd] at hturn
    have hentered := hturn.2 (hold hclosed) hlast
    exact hnever (took_snoc.mpr (.inl (hwho ▸ hentered)))
  · rcases restored_snoc hr with hr | ⟨_, sock, hnew, hold⟩
    · exact h.kept id hr
    · simp only [hsame] at hnew
      exact hold hnew

theorem negotiated_rejected_present {d : MatchCandidate} (hs : Shaped room data)
    (h : Negotiated room data log st) (hm : m.who ∈ data.userIds)
    (hc : Considerate room data (log, st) m) (hd : m.what = .rejected)
    (hg : st.matchingCandidates.get? room = some d) :
    Negotiated room data (log ++ [(st, m)]) ((m.call room).run st).state := by
  obtain ⟨hids, hsocks, hnone⟩ := h.present d hg
  have hsd : Shaped room d := by
    unfold Shaped
    rw [hids, hsocks]
    exact hs
  have hpd : ∀ {id sock other}, Partners data id sock other → Partners d id sock other := by
    intro id sock other hp
    unfold Partners
    rw [hids, hsocks]
    exact hp
  have hin : room ∈ st.matchingCandidates := OrderedDict.mem_of_get? hg
  obtain ⟨partner, psock, hpartner⟩ := exists_partner hs hm
  obtain ⟨hrooms, _, hwait⟩ := rejected_run hd hg hsd (hpd hpartner)
  refine ⟨fun d' hg' => ?_, fun _ id sock other hp => ?_, fun id sock other hp => ?_,
    fun id hr => ?_⟩
  · rw [hrooms, OrderedDict.get?_erase_self] at hg'
    cases hg'
  · rcases hp.mover hs hm with hwho | hwho
    · exact .inr (closedUnheard_snoc.mpr (.inr ⟨hin, .inl ⟨hwho, hd⟩⟩))
    · obtain ⟨_, hsent, _⟩ := rejected_run hd hg hsd (hwho ▸ hpd hp)
      refine .inl ⟨(st, m), by simp, hin, ⟨sock, .rejected, m.net 0 sock⟩, ?_, rfl, .inl rfl⟩
      rw [hsent]
      exact List.mem_singleton_self _
  · intro hclosed hlast _ _
    obtain ⟨hne, _⟩ := entered_before_rejected hd hlast
    rcases closedUnheard_snoc.mp hclosed with hu | ⟨_, hu | hu⟩
    · exact not_closedUnheard hnone hu
    · exact hne hu.1
    · simp [hd] at hu
  · rcases restored_snoc hr with hr | ⟨htook, sock, hnew, hold⟩
    · exact h.kept id hr
    simp only [hwait] at hnew
    have hturn := hc partner psock hpartner
    simp only [hd] at hturn
    split_ifs at hnew with hnet
    · by_cases hid : id = partner
      · exact hturn.1 hin (hid ▸ htook) (Option.isNone_iff_eq_none.mp hnet)
      · rw [OrderedDict.get?_set_ne _ _ hid] at hnew
        exact hold hnew
    · exact hold hnew

theorem negotiated_rejected (hs : Shaped room data) (h : Negotiated room data log st)
    (hm : m.who ∈ data.userIds) (hc : Considerate room data (log, st) m)
    (hd : m.what = .rejected) :
    Negotiated room data (log ++ [(st, m)]) ((m.call room).run st).state := by
  cases hg : st.matchingCandidates.get? room with
  | none => exact negotiated_rejected_absent hs h hm hc hd hg
  | some d => exact negotiated_rejected_present hs h hm hc hd hg

theorem negotiated_ends (hs : Shaped room data) (h : Negotiated room data log st)
    (hm : m.who ∈ data.userIds) (hc : Considerate room data (log, st) m) (hd : m.what = .ends) :
    Negotiated room data (log ++ [(st, m)]) ((m.call room).run st).state := by
  have hgone : ((m.call room).run st).state.matchingCandidates.get? room = none := by
    refine ends_run_room hd fun d hg => ?_
    rw [(h.present d hg).1]
    exact hm
  have hlast_of : ∀ id, lastWord (log ++ [(st, m)]) id = lastWord log id := by
    intro id
    rw [lastWord_snoc, if_neg fun hw => hw.2 hd]
  have htook : ∀ {id d}, Took (log ++ [(st, m)]) id d → Took log id d ∨ m.who = id := by
    intro id d ht
    exact (took_snoc.mp ht).imp_right And.left
  refine ⟨fun d hg => ?_, fun _ id sock other hp => ?_, fun id sock other hp => ?_, fun id hr => ?_⟩
  · rw [hgone] at hg
    cases hg
  · cases hg : st.matchingCandidates.get? room with
    | none =>
      rcases h.absent hg id sock other hp with ht | hu
      · exact .inl ht.snoc
      · exact .inr (closedUnheard_snoc.mpr (.inl hu))
    | some d =>
      obtain ⟨hids, hsocks, _⟩ := h.present d hg
      by_cases he : m.who ∈ st.enteredUsers
      · exact .inr (closedUnheard_snoc.mpr (.inr ⟨OrderedDict.mem_of_get? hg, .inr ⟨hd, he⟩⟩))
      · have hsock : sock ∈ d.sockets := by
          rw [hsocks]
          exact (List.of_mem_zip hp.1).2
        obtain ⟨e, hmem, ht⟩ := ends_run_told hd he hg (hids ▸ hm) hsock
        exact .inl ⟨e, List.mem_append_right _ hmem, ht⟩
  · intro hclosed hlast hnever hleft
    rw [hlast_of] at hlast
    have hnever' : ¬ Took log other .entered := fun ht => hnever (took_snoc.mpr (.inl ht))
    -- the member that moves is either the one that entered or the one that leaves it behind
    rcases hp.mover hs hm with hwho | hwho
    · have hother : ∀ {d}, Took (log ++ [(st, m)]) other d → Took log other d := by
        intro d ht
        exact (htook ht).resolve_right fun he => hp.2.2 (hwho.symm.trans he)
      have hleft' := hleft.imp hother hother
      cases hg : st.matchingCandidates.get? room with
      | none =>
        have hold : ClosedUnheard room log id := by
          rcases closedUnheard_snoc.mp hclosed with hu | ⟨hin, _⟩
          · exact hu
          · exact absurd hin (OrderedDict.get?_eq_none.mp hg)
        exact h.agreed id sock other hp hold hlast hnever' hleft'
      | some d =>
        obtain ⟨_, _, hnone⟩ := h.present d hg
        rcases hleft' with hleft' | hleft'
        · exact (hnone other).1 hleft'
        · exact (hnone other).2 hleft'
    · have hturn := hc id sock (hwho ▸ hp)
      simp only [hd] at hturn
      rcases closedUnheard_snoc.mp hclosed with hu | ⟨hin, hu | hu⟩
      · exact hnever' (hwho ▸ hturn.2 hu hlast)
      · simp [hd] at hu
      · exact hnever' (hwho ▸ hturn.1 hin hu.2 hlast)
  · rcases restored_snoc hr with hr | ⟨_, sock, hnew, hold⟩
    · exact h.kept id hr
    · exact hold (ends_run_waiting hd hnew)

end Step

def negotiation (room : String) (data : MatchCandidate) : Lts (Log × State) Move :=
  (moves room).recorded.guard (Legal data)

def afterMove (room : String) (s : Log × State) (m : Move) : Log × State :=
  (s.1 ++ [(s.2, m)], ((m.call room).run s.2).state)

theorem negotiation_step {room : String} {data : MatchCandidate} {s : Log × State} {m : Move}
    (h : Legal data s m) : (negotiation room data).step s m (afterMove room s m) :=
  ⟨h, rfl, calls_step.mpr rfl⟩

theorem negotiated_of_run {room : String} {data : MatchCandidate} (hs : Shaped room data)
    {st₀ : State} (hg : st₀.matchingCandidates.get? room = some data) {ms : List Move}
    {s : Log × State}
    (hr : ((negotiation room data).guard (Considerate room data)).Run ([], st₀) ms s) :
    Negotiated room data s.1 s.2 := by
  refine hr.invariant (fun s => Negotiated room data s.1 s.2) ⟨?_, ?_, ?_, ?_⟩ ?_
  · intro d hd
    rw [hg, Option.some.injEq] at hd
    subst hd
    exact ⟨rfl, rfl, fun id => by simp [Took]⟩
  · intro hnone
    rw [hg] at hnone
    cases hnone
  · intro id sock other _ hclosed
    obtain ⟨e, he, _⟩ := hclosed
    exact absurd he List.not_mem_nil
  · intro id hres
    obtain ⟨pre, e, post, hlog, _⟩ := hres
    simp at hlog
  · intro s m s' h hstep
    obtain ⟨log, st⟩ := s
    obtain ⟨log', st'⟩ := s'
    obtain ⟨hc, hlegal, hlog, hmove⟩ := hstep
    rw [moves, calls_step] at hmove
    dsimp only at hlog hmove
    rw [hlog, hmove]
    cases hd : m.what with
    | entered => exact negotiated_entered hs h hlegal.1 hc hd
    | rejected => exact negotiated_rejected hs h hlegal.1 hc hd
    | ends => exact negotiated_ends hs h hlegal.1 hc hd

/-- From any reachable state with the room in it, considerate moves of its two members, in whatever
order and with whatever network, keep them in agreement. -/
theorem agree_of_considerate {clock : Clock} {cs : List Call} {st₀ : State} {room : String}
    {data : MatchCandidate} (hreach : calls.Run (State.initial clock) cs st₀)
    (hg : st₀.matchingCandidates.get? room = some data) {ms : List Move} {s : Log × State}
    (hr : ((negotiation room data).guard (Considerate room data)).Run ([], st₀) ms s) :
    Agree room data s.1 :=
  (negotiated_of_run ((roomsShaped_of_run hreach).get? hg) hg hr).agree

def proposalCalls : List Call :=
  [.connect .up "a" ⟨1⟩ (.plain (.of 1)) .empty, .connect .up "b" ⟨2⟩ (.plain (.of 2)) .empty]

def proposal : MatchCandidate := ⟨[.of 2, .of 1], [⟨2⟩, ⟨1⟩], ∅⟩

def proposalState : State :=
  (handleConnect .up "b" ⟨2⟩ (.plain (.of 2)) .empty
    (handleConnect .up "a" ⟨1⟩ (.plain (.of 1)) .empty (.initial .start)).state).state

def bothEnter : List Move :=
  [⟨.of 1, .entered, .up⟩, ⟨.of 2, .entered, .up⟩, ⟨.of 1, .ends, .up⟩, ⟨.of 2, .ends, .up⟩]

theorem agree_of_considerate_applied :
    calls.Run (State.initial .start) proposalCalls proposalState ∧
      ∃ s, (negotiation "room_3_2_b" proposal).Run ([], proposalState) bothEnter s ∧
        ¬ "room_3_2_b" ∈ s.2.matchingCandidates ∧ Agree "room_3_2_b" proposal s.1 := by
  have hreach : calls.Run (State.initial .start) proposalCalls proposalState :=
    Lts.run_of_exec (rfl : Lts.exec _ _ proposalCalls = some _)
  have hentered : ∀ (s : Log × State) (id : UserId), (∀ e ∈ s.1, e.2.what = .entered) →
      Considerate "room_3_2_b" proposal s ⟨id, .entered, .up⟩ := by
    intro s id hall other sock _ hclosed
    obtain ⟨e, he, _, hwhat⟩ := hclosed
    rw [hall e he] at hwhat
    simp at hwhat
  have hends : ∀ (s : Log × State) (id : UserId), Took s.1 id .entered →
      Considerate "room_3_2_b" proposal s ⟨id, .ends, .up⟩ :=
    fun s id htook other sock _ => ⟨fun _ _ _ => htook, fun _ _ => htook⟩
  have hr : ((negotiation "room_3_2_b" proposal).guard (Considerate "room_3_2_b" proposal)).Run
      ([], proposalState) bothEnter _ :=
    Lts.Run.cons ⟨hentered _ _ (by simp), negotiation_step ⟨by decide, by simp [Took]⟩⟩
      (Lts.Run.cons ⟨hentered _ _ (by simp [afterMove]),
        negotiation_step ⟨by decide, by simp [Took, afterMove]⟩⟩
      (Lts.Run.cons ⟨hends _ _ (by simp [Took, afterMove]),
        negotiation_step ⟨by decide, by simp [Took, afterMove]⟩⟩
      (Lts.Run.single ⟨hends _ _ (by simp [Took, afterMove]),
        negotiation_step ⟨by decide, by simp [Took, afterMove]; decide⟩⟩)))
  exact ⟨hreach, _, hr.of_guard, by decide, agree_of_considerate hreach rfl hr⟩

theorem entered_alone :
    ¬ ∀ (clock : Clock) (cs : List Call) (st₀ : State) (room : String) (data : MatchCandidate)
      (ms : List Move) (s : Log × State), calls.Run (State.initial clock) cs st₀ →
        st₀.matchingCandidates.get? room = some data →
          (negotiation room data).Run ([], st₀) ms s → Agree room data s.1 := by
  intro h
  have hreach : calls.Run (State.initial .start) proposalCalls proposalState :=
    Lts.run_of_exec (rfl : Lts.exec _ _ proposalCalls = some _)
  have hr : (negotiation "room_3_2_b" proposal).Run ([], proposalState)
      [⟨.of 1, .entered, .up⟩, ⟨.of 1, .ends, .up⟩, ⟨.of 2, .rejected, .up⟩] _ :=
    Lts.Run.cons (negotiation_step ⟨by decide, by simp [Took]⟩)
      (Lts.Run.cons (negotiation_step ⟨by decide, by simp [Took, afterMove]⟩)
        (Lts.Run.single (negotiation_step ⟨by decide, by simp [Took, afterMove]; decide⟩)))
  have hagree := h .start proposalCalls _ "room_3_2_b" proposal _ _ hreach rfl hr
  obtain ⟨hone, _⟩ := hagree (.of 1) ⟨1⟩ (.of 2) ⟨by decide, by decide, by decide⟩
  refine hone ⟨rfl, by simp [Took, afterMove]; decide, by simp [Took, afterMove], fun htold => ?_⟩
  obtain ⟨e, he, _, msg, hmsg, _⟩ := htold
  simp only [afterMove, List.nil_append, List.cons_append, List.mem_cons, List.not_mem_nil,
    or_false] at he
  rcases he with rfl | rfl | rfl
  · exact absurd hmsg List.not_mem_nil
  · exact absurd hmsg List.not_mem_nil
  · exact absurd hmsg List.not_mem_nil

end Nalang.Matchmaking
