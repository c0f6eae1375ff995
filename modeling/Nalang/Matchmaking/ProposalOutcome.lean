import Nalang.Matchmaking.Calls
import Nalang.Matchmaking.Interleaving

/-!
# The outcome of a proposal

The second 'accept' and every 'rejected' test the room, await their sends and
delete the room last. As long as no message that would start another of these
loops comes in between, the members agree: both are told 'matched', or none is.
-/

namespace Nalang.Matchmaking
open Python Transition

def sentTo (event : ServerEvent) : Note → Option Socket
  | .sent _ socket e => if e = event then some socket else none
  | _ => none

def recipients (event : ServerEvent) (log : List Note) : List Socket := log.filterMap (sentTo event)

theorem recipients_append (event : ServerEvent) (log log' : List Note) :
    recipients event (log ++ log') = recipients event log ++ recipients event log' :=
  List.filterMap_append

def EventPoint.room : EventPoint → String
  | .matching room _ => room
  | .rejecting room _ _ _ _ _ => room

def Request.Proposes : Request → Prop
  | .send _ (.matchProposal _ _) => True
  | .redisDelete _ => True
  | _ => False

namespace Status

/-- `handle_receive_event` is suspended between its test of the room and the deletion. -/
def Handling (room : String) : Status → Prop
  | .waiting (.event p) _ => p.room = room
  | .ready (.event p) _ => p.room = room
  | _ => False

def Open : Status → Prop
  | .idle => True
  | .waiting (.connect p) request => ¬ p.Undecided ∧ request.Proposes
  | .ready (.connect p) reply => ¬ p.Undecided ∧ ∃ value, reply = .ok value
  | _ => False

theorem Open.not_leaving {s : Status} (h : s.Open) : ¬ s.Leaving := by
  cases s with
  | idle => exact id
  | waiting task request => cases task <;> first | exact id | exact absurd h id
  | ready task reply => cases task <;> first | exact id | exact absurd h id
  | finished failed => exact absurd h id

theorem Handling.not_leaving {room : String} {s : Status} (h : s.Handling room) : ¬ s.Leaving := by
  cases s with
  | idle => exact id
  | waiting task request => cases task <;> first | exact id | exact absurd h id
  | ready task reply => cases task <;> first | exact id | exact absurd h id
  | finished failed => exact absurd h id

theorem Open.not_handling {s : Status} (h : s.Open) (room : String) : ¬ s.Handling room := by
  cases s with
  | idle => exact id
  | waiting task request => cases task <;> first | exact id | exact absurd h id
  | ready task reply => cases task <;> first | exact id | exact absurd h id
  | finished failed => exact id

end Status

/-! ### The steps considered -/

structure Proposed (room : String) (data : MatchCandidate) (start : Sys) : Prop where
  log : start.log = []
  present : start.state.matchingCandidates.get? room = some data
  fresh : data.accepted = ∅
  members : ∃ a b s t conn conn', data.userIds = [a, b] ∧ data.sockets = [s, t] ∧ a ≠ b ∧
    start.conns.get? s = some conn ∧ conn.user.id = a ∧
    start.conns.get? t = some conn' ∧ conn'.user.id = b
  unhandled : ∀ ws conn, start.conns.get? ws = some conn → ¬ conn.status.Handling room
  opened : ∀ ws conn, start.conns.get? ws = some conn → conn.user.id ∈ data.userIds →
    conn.status.Open

def Negotiates (room : String) (data : MatchCandidate) (sys : Sys) : Label → Prop
  | .connect _ _ _ => False
  | .elapse _ _ => True
  | .act ws action =>
    (∃ conn, sys.conns.get? ws = some conn ∧ conn.user.id ∈ data.userIds) ∧
      match action with
      | .message msg =>
        Names msg (.str "accept") room ∨ Names msg (.str "rejected") room
      | .hangup => False
      | .serve failure => failure = none
      | .resume _ _ => True

/-- A message finds the room gone, or no handler suspended on it, or it is an 'accept' that does not
complete the two. -/
def Deliberate (room : String) (sys : Sys) (l : Label) : Prop :=
  ∀ ws msg event conn data, l = .act ws (.message msg) → Names msg event room →
    sys.conns.get? ws = some conn → sys.state.matchingCandidates.get? room = some data →
    (∀ ws' conn', sys.conns.get? ws' = some conn' → ¬ conn'.status.Handling room) ∨
      (event = .str "accept" ∧ (insert conn.user.id data.accepted).card ≠ 2)

def HasSentAccept (room : String) (start : Sys) (ls : List Label) (id : UserId) : Prop :=
  ∃ ws msg conn, .act ws (.message msg) ∈ ls ∧ start.conns.get? ws = some conn ∧
    conn.user.id = id ∧ Names msg (.str "accept") room

structure Settles (room : String) (data : MatchCandidate) (start : Sys) (ls : List Label)
    (sys : Sys) : Prop where
  once : (recipients (.matched room) sys.log).Nodup
  agreed : recipients (.matched room) sys.log ≠ [] →
    ∀ id ∈ data.userIds, HasSentAccept room start ls id
  exclusive : recipients (.matched room) sys.log ≠ [] →
    recipients .rejected sys.log = [] ∧ sys.state.waitingUsers = start.state.waitingUsers
  unraised : ∀ ws e, .raised ws e ∉ sys.log

/-! ### Stages -/

def Status.Matches (room : String) (data : MatchCandidate) (sent : List Socket) : Status → Prop
  | .waiting (.event (.matching r rest)) request =>
    r = room ∧ ∃ sock, request = .send sock (.matched room) ∧ sent ++ sock :: rest = data.sockets
  | .ready (.event (.matching r rest)) reply =>
    r = room ∧ (∃ value, reply = .ok value) ∧ sent ++ rest = data.sockets
  | _ => False

def Status.Rejects (room : String) (userId : UserId) : Status → Prop
  | .waiting (.event (.rejecting r _ _ _ _ rest)) request =>
    r = room ∧ (∃ sock, request = .send sock .rejected) ∧ ∀ id ∈ rest, id = userId
  | .ready (.event (.rejecting r _ _ _ _ rest)) reply =>
    r = room ∧ (∃ value, reply = .ok value) ∧ ∀ id ∈ rest, id = userId
  | _ => False

section Stages
variable (room : String) (data : MatchCandidate)

def Free (conn : Conn) : Prop :=
  ¬ conn.status.Handling room ∧ (conn.user.id ∈ data.userIds → conn.status.Open)

def FreeExcept (sys : Sys) (p : Socket → Prop) : Prop :=
  ∀ ws conn, sys.conns.get? ws = some conn → ¬ p ws → Free room data conn

inductive Stage (start : Sys) (ls : List Label) (sys : Sys) : Prop
  | offered {accepted : Finset UserId}
      (hg : sys.state.matchingCandidates.get? room = some { data with accepted := accepted })
      (hcard : accepted.card ≠ 2)
      (hacc : ∀ id ∈ accepted, id ∈ data.userIds ∧ HasSentAccept room start ls id)
      (hfree : FreeExcept room data sys fun _ => False)
      (hm : recipients (.matched room) sys.log = []) (hr : recipients .rejected sys.log = [])
      (hw : sys.state.waitingUsers = start.state.waitingUsers)
  | matching {accepted : Finset UserId} {ws : Socket} {conn : Conn}
      (hg : sys.state.matchingCandidates.get? room = some { data with accepted := accepted })
      (hacc : ∀ id, id ∈ accepted ↔ id ∈ data.userIds)
      (hall : ∀ id ∈ data.userIds, HasSentAccept room start ls id)
      (hc : sys.conns.get? ws = some conn)
      (hs : conn.status.Matches room data (recipients (.matched room) sys.log))
      (hfree : FreeExcept room data sys fun ws' => ws' = ws)
      (hr : recipients .rejected sys.log = [])
      (hw : sys.state.waitingUsers = start.state.waitingUsers)
  | rejecting {ws : Socket} {conn : Conn} (hin : room ∈ sys.state.matchingCandidates)
      (hc : sys.conns.get? ws = some conn) (hs : conn.status.Rejects room conn.user.id)
      (hfree : FreeExcept room data sys fun ws' => ws' = ws)
      (hm : recipients (.matched room) sys.log = [])
  | agreed (hout : ¬ room ∈ sys.state.matchingCandidates)
      (hfree : FreeExcept room data sys fun _ => False)
      (hall : ∀ id ∈ data.userIds, HasSentAccept room start ls id)
      (hm : recipients (.matched room) sys.log = data.sockets)
      (hr : recipients .rejected sys.log = [])
      (hw : sys.state.waitingUsers = start.state.waitingUsers)
  | declined (hout : ¬ room ∈ sys.state.matchingCandidates)
      (hfree : FreeExcept room data sys fun _ => False)
      (hm : recipients (.matched room) sys.log = [])

end Stages

section Step
variable {room : String} {data : MatchCandidate} {start sys : Sys} {ls : List Label}

theorem HasSentAccept.mono {id : UserId} (h : HasSentAccept room start ls id) (l : Label) :
    HasSentAccept room start (ls ++ [l]) id := by
  obtain ⟨ws, msg, conn, hmem, hrest⟩ := h
  exact ⟨ws, msg, conn, List.mem_append_left _ hmem, hrest⟩

theorem Stage.settles (h : Stage room data start ls sys) (hn : data.sockets.Nodup)
    (hraised : ∀ ws e, .raised ws e ∉ sys.log) : Settles room data start ls sys := by
  cases h with
  | offered hg hcard hacc hfree hm hr hw =>
    exact ⟨hm ▸ List.nodup_nil, fun hne => absurd hm hne, fun hne => absurd hm hne, hraised⟩
  | @matching accepted ws conn hg hacc hall hc hs hfree hr hw =>
    refine ⟨?_, fun _ => hall, fun _ => ⟨hr, hw⟩, hraised⟩
    unfold Status.Matches at hs
    split at hs
    · obtain ⟨_, sock, _, hsent⟩ := hs
      exact hn.sublist (hsent ▸ List.sublist_append_left _ _)
    · exact hn.sublist (hs.2.2 ▸ List.sublist_append_left _ _)
    · exact absurd hs id
  | rejecting hin hc hs hfree hm =>
    exact ⟨hm ▸ List.nodup_nil, fun hne => absurd hm hne, fun hne => absurd hm hne, hraised⟩
  | agreed hout hfree hall hm hr hw =>
    exact ⟨hm ▸ hn, fun _ => hall, fun _ => ⟨hr, hw⟩, hraised⟩
  | declined hout hfree hm =>
    exact ⟨hm ▸ List.nodup_nil, fun hne => absurd hm hne, fun hne => absurd hm hne, hraised⟩

theorem not_free_of_matches {sent : List Socket} {s : Status} (h : s.Matches room data sent) :
    s.Handling room := by
  unfold Status.Matches at h
  split at h
  · exact h.1
  · exact h.1
  · exact absurd h id

theorem not_free_of_rejects {userId : UserId} {s : Status} (h : s.Rejects room userId) :
    s.Handling room := by
  unfold Status.Rejects at h
  split at h
  · exact h.1
  · exact h.1
  · exact absurd h id

variable {ws : Socket} {conn : Conn} {r : Reaction}

theorem free_reacted {p q : Socket → Prop} (h : FreeExcept room data sys p)
    (hq : ∀ ws', ws' ≠ ws → ¬ q ws' → ¬ p ws') (hself : ¬ q ws → r.status.Open) :
    FreeExcept room data (sys.reacted ws conn r) q := by
  intro ws' conn' hc' hnot
  obtain ⟨rfl, rfl⟩ | ⟨hne, hold⟩ := get?_reacted.mp hc'
  · exact ⟨(hself hnot).not_handling room, fun _ => hself hnot⟩
  · exact h ws' conn' hold (hq ws' hne hnot)

theorem recipients_reacted {event : ServerEvent} (h : recipients event r.notes = []) :
    recipients event (sys.reacted ws conn r).log = recipients event sys.log := by
  rw [show (sys.reacted ws conn r).log = sys.log ++ r.notes from rfl, recipients_append, h,
    List.append_nil]

structure Aside (room : String) (st : State) (r : Reaction) : Prop where
  waiting : r.state.waitingUsers = st.waitingUsers
  rooms : r.state.matchingCandidates = st.matchingCandidates
  opened : r.status.Open
  matched : recipients (.matched room) r.notes = []
  rejected : recipients .rejected r.notes = []

theorem stage_aside (h : Stage room data start ls sys) (hc : sys.conns.get? ws = some conn)
    (hfree : ¬ conn.status.Handling room) (hr : Aside room sys.state r) (l : Label) :
    Stage room data start (ls ++ [l]) (sys.reacted ws conn r) := by
  have hself : ∀ {p : Socket → Prop}, FreeExcept room data sys p →
      FreeExcept room data (sys.reacted ws conn r) p :=
    fun hf => free_reacted hf (fun _ _ hnot => hnot) fun _ => hr.opened
  have hother : ∀ {ws' conn'}, sys.conns.get? ws' = some conn' → conn'.status.Handling room →
      (sys.reacted ws conn r).conns.get? ws' = some conn' := by
    intro ws' conn' hc' hbusy
    refine get?_reacted.mpr (.inr ⟨fun he => hfree ?_, hc'⟩)
    rw [he, hc, Option.some.injEq] at hc'
    rw [hc']
    exact hbusy
  have hm : recipients (.matched room) (sys.reacted ws conn r).log =
      recipients (.matched room) sys.log := recipients_reacted hr.matched
  have hrej : recipients .rejected (sys.reacted ws conn r).log = recipients .rejected sys.log :=
    recipients_reacted hr.rejected
  cases h with
  | offered hg hcard hacc hf hm₀ hr₀ hw =>
    exact .offered (hr.rooms ▸ hg) hcard (fun id hid => ⟨(hacc id hid).1, (hacc id hid).2.mono l⟩)
      (hself hf) (hm.trans hm₀) (hrej.trans hr₀) (hr.waiting.trans hw)
  | matching hg hacc hall hc' hs hf hr₀ hw =>
    exact .matching (hr.rooms ▸ hg) hacc (fun id hid => (hall id hid).mono l)
      (hother hc' (not_free_of_matches hs)) (hm ▸ hs) (hself hf) (hrej.trans hr₀)
      (hr.waiting.trans hw)
  | rejecting hin hc' hs hf hm₀ =>
    exact .rejecting (hr.rooms ▸ hin) (hother hc' (not_free_of_rejects hs)) hs (hself hf)
      (hm.trans hm₀)
  | agreed hout hf hall hm₀ hr₀ hw =>
    exact .agreed (hr.rooms ▸ hout) (hself hf) (fun id hid => (hall id hid).mono l)
      (hm.trans hm₀) (hrej.trans hr₀) (hr.waiting.trans hw)
  | declined hout hf hm₀ => exact .declined (hr.rooms ▸ hout) (hself hf) (hm.trans hm₀)

end Step

/-! ### The handlers -/

section Turns
variable {room : String} {st : State}

theorem deleteRoom_of_mem (h : room ∈ st.matchingCandidates) :
    deleteRoom st room =
      ⟨{ st with matchingCandidates := st.matchingCandidates.erase room }, [], .returns⟩ := if_pos h

theorem rejectNext_own {userId : UserId} (sockets : List Socket) (idx : ℕ) {rest : List UserId}
    (h : ∀ id ∈ rest, id = userId) :
    rejectNext userId room sockets st idx rest = deleteRoom st room := by
  induction rest generalizing idx with
  | nil => rfl
  | cons uid rest ih =>
    obtain ⟨hu, hrest⟩ := List.forall_mem_cons.mp h
    unfold rejectNext
    rw [if_neg (not_not.mpr hu)]
    exact ih (idx + 1) hrest

theorem rejectNext_members (room : String) (st : State) {userId a b : UserId} (s t : Socket)
    (hne : a ≠ b) (hu : userId = a ∨ userId = b) :
    ∃ uid sock idx rest, rejectNext userId room [s, t] st 0 [a, b] =
        ⟨st, [], .awaits (.send sock .rejected) (.rejecting room [s, t] uid sock idx rest)⟩ ∧
      ∀ id ∈ rest, id = userId := by
  rcases hu with rfl | rfl
  · refine ⟨b, t, 2, [], ?_, fun _ h => absurd h List.not_mem_nil⟩
    simp [rejectNext, hne.symm]
  · refine ⟨a, s, 1, [userId], ?_, fun _ h => List.mem_singleton.mp h⟩
    simp [rejectNext, hne]

def addAcceptance (st : State) (room : String) (data : MatchCandidate) (userId : UserId) : State :=
  { st with
    matchingCandidates :=
      st.matchingCandidates.set room { data with accepted := insert userId data.accepted } }

theorem acceptStart_waits {userId : UserId} {data : MatchCandidate}
    (h : (insert userId data.accepted).card ≠ 2) :
    acceptStart userId room data st =
      ⟨addAcceptance st room data userId, [.accepted room userId], .returns⟩ := if_neg h

theorem acceptStart_matches {userId : UserId} {data : MatchCandidate} {s : Socket}
    {socks : List Socket} (h : (insert userId data.accepted).card = 2)
    (hs : data.sockets = s :: socks) :
    acceptStart userId room data st =
      ⟨addAcceptance st room data userId, [.accepted room userId],
        .awaits (.send s (.matched room)) (.matching room socks)⟩ := by
  obtain ⟨ids, sockets, accepted⟩ := data
  subst hs
  exact if_pos h

theorem connectResume_aside (hex : String) (ws : Socket) (user : User) (query : QueryParams)
    {p : ConnectPoint} (hp : ¬ p.Undecided) (value : Option CallRecord) :
    Aside room st (settle user.id ws .connect (connectResume hex ws user query p (.ok value) st)) := by
  cases p with
  | storing => exact absurd trivial hp
  | reading otherId rest => exact absurd trivial hp
  | proposing partner ws2 name => exact ⟨rfl, rfl, ⟨id, trivial⟩, rfl, rfl⟩
  | proposingPartner partner => exact ⟨rfl, rfl, ⟨id, trivial⟩, rfl, rfl⟩
  | deleting partner => exact ⟨rfl, rfl, ⟨id, trivial⟩, rfl, rfl⟩
  | deletingPartner => exact ⟨rfl, rfl, trivial, rfl, rfl⟩

theorem serve_aside (ws : Socket) {p : ConnectPoint} (hp : ¬ p.Undecided) {request : Request}
    (hreq : request.Proposes) :
    Aside room st ⟨(request.perform none st).1, .ready (.connect p) (request.perform none st).2,
      request.notes ws none⟩ := by
  cases request with
  | redisSet uid record => exact absurd hreq id
  | redisGet uid => exact absurd hreq id
  | redisDelete uid => exact ⟨rfl, rfl, ⟨hp, _, rfl⟩, rfl, rfl⟩
  | send sock event =>
    cases event with
    | matchProposal name partner => exact ⟨rfl, rfl, ⟨hp, _, rfl⟩, rfl, rfl⟩
    | matched name => exact absurd hreq id
    | rejected => exact absurd hreq id
    | disconnected => exact absurd hreq id

end Turns

/-! ### Messages -/

theorem full_of_card {a b : UserId} {accepted : Finset UserId} (hab : a ≠ b)
    (hsub : ∀ id ∈ accepted, id ∈ [a, b]) (h : accepted.card = 2) (id : UserId) :
    id ∈ accepted ↔ id ∈ [a, b] := by
  have heq : accepted = {a, b} := by
    apply Finset.eq_of_subset_of_card_le
    · intro id hid
      simpa using hsub id hid
    · rw [Finset.card_pair hab, h]
  rw [heq]
  simp

theorem card_of_full {a b : UserId} {accepted : Finset UserId} (hab : a ≠ b)
    (h : ∀ id, id ∈ accepted ↔ id ∈ [a, b]) : accepted.card = 2 := by
  have heq : accepted = {a, b} := by
    ext id
    rw [h]
    simp
  rw [heq, Finset.card_pair hab]

section Messages
variable {room : String} {data : MatchCandidate} {start sys : Sys} {ls : List Label} {a b : UserId}
  {s t : Socket} {ws : Socket} {conn conn₀ : Conn} {msg : Json}

def heard (sys : Sys) (ws : Socket) (conn : Conn) (msg : Json) : Reaction :=
  settle conn.user.id ws .event (eventStart conn.user.id msg sys.state)

theorem heard_of_gone {event : Json} (hn : Names msg event room) (hp : event.printable)
    (hout : ¬ room ∈ sys.state.matchingCandidates) : Aside room sys.state (heard sys ws conn msg) := by
  unfold heard
  rw [eventStart_of_names _ hn hp, OrderedDict.get?_eq_none.mpr hout]
  exact ⟨rfl, rfl, trivial, rfl, rfl⟩

theorem heard_waits {data' : MatchCandidate} (hn : Names msg (.str "accept") room)
    (hg : sys.state.matchingCandidates.get? room = some data')
    (h : (insert conn.user.id data'.accepted).card ≠ 2) :
    heard sys ws conn msg = ⟨addAcceptance sys.state room data' conn.user.id, .idle,
      [.did ws (.accepted room conn.user.id)]⟩ := by
  unfold heard
  rw [eventStart_of_names _ hn rfl, hg]
  dsimp only [roomEventStart]
  rw [acceptStart_waits h]
  rfl

theorem heard_matches {data' : MatchCandidate} {socks : List Socket}
    (hn : Names msg (.str "accept") room)
    (hg : sys.state.matchingCandidates.get? room = some data')
    (h : (insert conn.user.id data'.accepted).card = 2) (hs : data'.sockets = s :: socks) :
    heard sys ws conn msg = ⟨addAcceptance sys.state room data' conn.user.id,
      .waiting (.event (.matching room socks)) (.send s (.matched room)),
      [.did ws (.accepted room conn.user.id)]⟩ := by
  unfold heard
  rw [eventStart_of_names _ hn rfl, hg]
  dsimp only [roomEventStart]
  rw [acceptStart_matches h hs]
  rfl

theorem accept_of_busy {event : Json} {data' : MatchCandidate} {ws' : Socket} {conn' : Conn}
    (hd : Deliberate room sys (.act ws (.message msg))) (hn : Names msg event room)
    (hc : sys.conns.get? ws = some conn)
    (hg : sys.state.matchingCandidates.get? room = some data')
    (hc' : sys.conns.get? ws' = some conn') (hbusy : conn'.status.Handling room) :
    event = .str "accept" ∧ (insert conn.user.id data'.accepted).card ≠ 2 := by
  obtain hnone | hlone := hd ws msg event conn data' rfl hn hc hg
  · exact absurd hbusy (hnone ws' conn' hc')
  · exact hlone

theorem stage_accept (h : Stage room data start ls sys) (hids : data.userIds = [a, b])
    (hsocks : data.sockets = [s, t]) (hab : a ≠ b) (hc : sys.conns.get? ws = some conn)
    (hidle : conn.status = .idle) (hu : conn.user.id ∈ data.userIds)
    (hstart : start.conns.get? ws = some conn₀) (huser : conn₀.user = conn.user)
    (hn : Names msg (.str "accept") room)
    (hd : Deliberate room sys (.act ws (.message msg))) :
    Stage room data start (ls ++ [.act ws (.message msg)])
      (sys.reacted ws conn (heard sys ws conn msg)) := by
  have hfree : ¬ conn.status.Handling room := by
    rw [hidle]
    exact id
  have hself : HasSentAccept room start (ls ++ [.act ws (.message msg)]) conn.user.id :=
    ⟨ws, msg, conn₀, by simp, hstart, congrArg User.id huser, hn⟩
  cases h with
  | @offered accepted hg hcard hacc hf hm hr hw =>
    have hacc' : ∀ id ∈ insert conn.user.id accepted, id ∈ data.userIds ∧
        HasSentAccept room start (ls ++ [.act ws (.message msg)]) id := by
      intro id hid
      rcases Finset.mem_insert.mp hid with rfl | hid
      · exact ⟨hu, hself⟩
      · exact ⟨(hacc id hid).1, (hacc id hid).2.mono _⟩
    by_cases hfull : (insert conn.user.id accepted).card = 2
    · rw [heard_matches hn hg hfull hsocks]
      have hall := full_of_card hab (fun id hid => hids ▸ (hacc' id hid).1) hfull
      refine .matching (OrderedDict.get?_set_self _ _ _) (fun id => hids ▸ hall id) ?_
        (get?_reacted.mpr (.inl ⟨rfl, rfl⟩)) ?_ (free_reacted hf (fun _ _ _ => id) ?_)
        ((recipients_reacted rfl).trans hr) hw
      · intro id hid
        exact (hacc' id ((hall id).mpr (hids ▸ hid))).2
      · refine ⟨rfl, s, rfl, ?_⟩
        rw [recipients_reacted rfl, hm, hsocks]
        rfl
      · exact fun hne => absurd rfl hne
    · rw [heard_waits hn hg hfull]
      exact .offered (OrderedDict.get?_set_self _ _ _) hfull hacc'
        (free_reacted hf (fun _ _ _ => id) fun _ => trivial) ((recipients_reacted rfl).trans hm)
        ((recipients_reacted rfl).trans hr) hw
  | @matching accepted ws' conn' hg hacc hall hc' hs hf hr hw =>
    obtain ⟨_, hcard⟩ := accept_of_busy hd hn hc hg hc' (not_free_of_matches hs)
    have hin : insert conn.user.id accepted = accepted :=
      Finset.insert_eq_self.mpr ((hacc _).mpr hu)
    exact absurd (card_of_full hab fun id => hids ▸ hacc id) (hin ▸ hcard)
  | @rejecting ws' conn' hin hc' hs hf hm =>
    obtain ⟨data', hg⟩ := OrderedDict.get?_isSome hin
    obtain ⟨_, hcard⟩ := accept_of_busy hd hn hc hg hc' (not_free_of_rejects hs)
    rw [heard_waits hn hg hcard]
    have hne : ws' ≠ ws := by
      intro he
      rw [he, hc, Option.some.injEq] at hc'
      exact hfree (hc' ▸ not_free_of_rejects hs)
    exact .rejecting (OrderedDict.mem_set.mpr (.inl rfl)) (get?_reacted.mpr (.inr ⟨hne, hc'⟩)) hs
      (free_reacted hf (fun _ _ hnot => hnot) fun _ => trivial) ((recipients_reacted rfl).trans hm)
  | agreed hout hf hall hm hr hw =>
    exact stage_aside (.agreed hout hf hall hm hr hw) hc hfree (heard_of_gone hn rfl hout) _
  | declined hout hf hm =>
    exact stage_aside (.declined hout hf hm) hc hfree (heard_of_gone hn rfl hout) _

theorem stage_rejected (h : Stage room data start ls sys) (hids : data.userIds = [a, b])
    (hsocks : data.sockets = [s, t]) (hab : a ≠ b) (hc : sys.conns.get? ws = some conn)
    (hidle : conn.status = .idle) (hu : conn.user.id ∈ data.userIds)
    (hn : Names msg (.str "rejected") room)
    (hd : Deliberate room sys (.act ws (.message msg))) :
    Stage room data start (ls ++ [.act ws (.message msg)])
      (sys.reacted ws conn (heard sys ws conn msg)) := by
  have hfree : ¬ conn.status.Handling room := by
    rw [hidle]
    exact id
  cases h with
  | @offered accepted hg hcard hacc hf hm hr hw =>
    have hu' : conn.user.id = a ∨ conn.user.id = b := by simpa [hids] using hu
    obtain ⟨uid, sock, idx, rest, hloop, hrest⟩ := rejectNext_members room sys.state s t hab hu'
    have hturn : heard sys ws conn msg =
        ⟨sys.state, .waiting (.event (.rejecting room [s, t] uid sock idx rest))
          (.send sock .rejected), []⟩ := by
      unfold heard
      rw [eventStart_of_names _ hn rfl, hg]
      dsimp only [roomEventStart]
      rw [hids, hsocks, hloop]
      rfl
    rw [hturn]
    exact .rejecting (OrderedDict.mem_of_get? hg) (get?_reacted.mpr (.inl ⟨rfl, rfl⟩))
      ⟨rfl, ⟨sock, rfl⟩, hrest⟩ (free_reacted hf (fun _ _ _ => id) fun hne => absurd rfl hne)
      ((recipients_reacted rfl).trans hm)
  | matching hg hacc hall hc' hs hf hr hw =>
    obtain ⟨he, _⟩ := accept_of_busy hd hn hc hg hc' (not_free_of_matches hs)
    simp at he
  | rejecting hin hc' hs hf hm =>
    obtain ⟨data', hg⟩ := OrderedDict.get?_isSome hin
    obtain ⟨he, _⟩ := accept_of_busy hd hn hc hg hc' (not_free_of_rejects hs)
    simp at he
  | agreed hout hf hall hm hr hw =>
    exact stage_aside (.agreed hout hf hall hm hr hw) hc hfree (heard_of_gone hn rfl hout) _
  | declined hout hf hm =>
    exact stage_aside (.declined hout hf hm) hc hfree (heard_of_gone hn rfl hout) _

end Messages

/-! ### Every step -/

section Acts
variable {room : String} {data : MatchCandidate} {start sys : Sys} {ls : List Label} {ws : Socket}
  {conn : Conn}

theorem Stage.member (h : Stage room data start ls sys) (hc : sys.conns.get? ws = some conn)
    (hu : conn.user.id ∈ data.userIds) : conn.status.Handling room ∨ conn.status.Open := by
  have hfree : ∀ p, FreeExcept room data sys p → ¬ p ws →
      conn.status.Handling room ∨ conn.status.Open := by
    intro p hf hp
    exact .inr ((hf ws conn hc hp).2 hu)
  have hbusy : ∀ ws' conn', sys.conns.get? ws' = some conn' → conn'.status.Handling room →
      ws = ws' → conn.status.Handling room := by
    intro ws' conn' hc' hs he
    rw [← he, hc, Option.some.injEq] at hc'
    exact hc' ▸ hs
  cases h with
  | offered _ _ _ hf _ _ _ => exact hfree _ hf id
  | @matching accepted ws' conn' _ _ _ hc' hs hf _ _ =>
    by_cases he : ws = ws'
    · exact .inl (hbusy ws' conn' hc' (not_free_of_matches hs) he)
    · exact hfree _ hf he
  | @rejecting ws' conn' _ hc' hs hf _ =>
    by_cases he : ws = ws'
    · exact .inl (hbusy ws' conn' hc' (not_free_of_rejects hs) he)
    · exact hfree _ hf he
  | agreed _ hf _ _ _ _ => exact hfree _ hf id
  | declined _ hf _ => exact hfree _ hf id

theorem stage_matching {action : Action} {r : Reaction} {accepted : Finset UserId}
    (hg : sys.state.matchingCandidates.get? room = some { data with accepted := accepted })
    (hacc : ∀ id, id ∈ accepted ↔ id ∈ data.userIds)
    (hall : ∀ id ∈ data.userIds, HasSentAccept room start ls id)
    (hs : conn.status.Matches room data (recipients (.matched room) sys.log))
    (hf : FreeExcept room data sys fun ws' => ws' = ws) (hr : recipients .rejected sys.log = [])
    (hw : sys.state.waitingUsers = start.state.waitingUsers)
    (hact : Reacts ws conn sys.state action r)
    (hup : ∀ failure, action = .serve failure → failure = none) :
    Stage room data start (ls ++ [.act ws action]) (sys.reacted ws conn r) := by
  have hall' : ∀ id ∈ data.userIds, HasSentAccept room start (ls ++ [.act ws action]) id :=
    fun id hid => (hall id hid).mono _
  have hfree : ∀ r : Reaction, FreeExcept room data (sys.reacted ws conn r) fun ws' => ws' = ws :=
    fun r => free_reacted hf (fun _ _ hnot => hnot) fun hne => absurd rfl hne
  have hself : ∀ r : Reaction, (sys.reacted ws conn r).conns.get? ws =
      some { conn with status := r.status } := fun r => get?_reacted.mpr (.inl ⟨rfl, rfl⟩)
  cases hact with
  | message hi =>
    rw [hi] at hs
    exact absurd hs id
  | hangup hi =>
    rw [hi] at hs
    exact absurd hs id
  | @serve failure task request hi =>
    obtain rfl := hup failure rfl
    rw [hi] at hs
    cases task with
    | event p =>
      cases p with
      | matching name rest =>
        obtain ⟨rfl, sock, rfl, hsent⟩ := hs
        refine .matching hg hacc hall' (hself _) ⟨rfl, ⟨none, rfl⟩, ?_⟩ (hfree _) ?_ hw
        · change recipients (.matched name) (sys.log ++ [.sent ws sock (.matched name)]) ++ rest = _
          rw [recipients_append, ← hsent]
          simp [recipients, sentTo]
        · exact (recipients_reacted (by simp [recipients, sentTo, Request.notes])).trans hr
      | rejecting name sockets uid sock idx rest => exact absurd hs id
    | connect p => exact absurd hs id
    | onExcept p => exact absurd hs id
    | onFinally failed p => exact absurd hs id
  | @resume hex drift task reply hi =>
    rw [hi] at hs
    cases task with
    | event p =>
      cases p with
      | matching name rest =>
        obtain ⟨rfl, ⟨value, rfl⟩, hsent⟩ := hs
        cases rest with
        | nil =>
          have hturn : resumeTask hex drift ws conn (.ok value) sys.state (.event (.matching name [])) =
              ⟨{ sys.state with matchingCandidates := sys.state.matchingCandidates.erase name },
                .idle, []⟩ := by
            dsimp only [resumeTask, eventResume, matchNext]
            rw [deleteRoom_of_mem (OrderedDict.mem_of_get? hg)]
            rfl
          rw [hturn]
          rw [List.append_nil] at hsent
          exact .agreed (fun hin => (OrderedDict.mem_erase.mp hin).1 rfl)
            (free_reacted hf (fun _ hne _ => hne) fun _ => trivial) hall'
            ((recipients_reacted rfl).trans hsent) ((recipients_reacted rfl).trans hr) hw
        | cons sock rest =>
          refine .matching hg hacc hall' (hself _) ⟨rfl, sock, rfl, ?_⟩ (hfree _)
            ((recipients_reacted rfl).trans hr) hw
          rw [recipients_reacted rfl]
          exact hsent
      | rejecting name sockets uid sock idx rest => exact absurd hs id
    | connect p => exact absurd hs id
    | onExcept p => exact absurd hs id
    | onFinally failed p => exact absurd hs id

theorem stage_rejecting {action : Action} {r : Reaction}
    (hin : room ∈ sys.state.matchingCandidates) (hs : conn.status.Rejects room conn.user.id)
    (hf : FreeExcept room data sys fun ws' => ws' = ws)
    (hm : recipients (.matched room) sys.log = [])
    (hact : Reacts ws conn sys.state action r)
    (hup : ∀ failure, action = .serve failure → failure = none) :
    Stage room data start (ls ++ [.act ws action]) (sys.reacted ws conn r) := by
  cases hact with
  | message hi =>
    rw [hi] at hs
    exact absurd hs id
  | hangup hi =>
    rw [hi] at hs
    exact absurd hs id
  | @serve failure task request hi =>
    obtain rfl := hup failure rfl
    rw [hi] at hs
    cases task with
    | event p =>
      cases p with
      | matching name rest => exact absurd hs id
      | rejecting name sockets uid sock idx rest =>
        obtain ⟨rfl, ⟨sock', rfl⟩, hrest⟩ := hs
        exact .rejecting hin (get?_reacted.mpr (.inl ⟨rfl, rfl⟩)) ⟨rfl, ⟨none, rfl⟩, hrest⟩
          (free_reacted hf (fun _ _ hnot => hnot) fun hne => absurd rfl hne)
          ((recipients_reacted (by simp [recipients, sentTo, Request.notes])).trans hm)
    | connect p => exact absurd hs id
    | onExcept p => exact absurd hs id
    | onFinally failed p => exact absurd hs id
  | @resume hex drift task reply hi =>
    rw [hi] at hs
    cases task with
    | event p =>
      cases p with
      | matching name rest => exact absurd hs id
      | rejecting name sockets uid sock idx rest =>
        obtain ⟨rfl, ⟨value, rfl⟩, hrest⟩ := hs
        have hturn : resumeTask hex drift ws conn (.ok value) sys.state
            (.event (.rejecting name sockets uid sock idx rest)) =
            ⟨{ requeue sys.state uid sock with
                matchingCandidates := sys.state.matchingCandidates.erase name },
              .idle, [.did ws (.requeued name uid sock)]⟩ := by
          dsimp only [resumeTask, eventResume]
          rw [rejectNext_own sockets idx hrest]
          have hin' : name ∈ (requeue sys.state uid sock).matchingCandidates := hin
          rw [deleteRoom_of_mem hin']
          rfl
        rw [hturn]
        exact .declined (fun hin => (OrderedDict.mem_erase.mp hin).1 rfl)
          (free_reacted hf (fun _ hne _ => hne) fun _ => trivial) ((recipients_reacted rfl).trans hm)
    | connect p => exact absurd hs id
    | onExcept p => exact absurd hs id
    | onFinally failed p => exact absurd hs id

theorem aside_of_open {action : Action} {r : Reaction} (ho : conn.status.Open)
    (hact : Reacts ws conn sys.state action r)
    (hup : ∀ failure, action = .serve failure → failure = none)
    (hkind : action ≠ .hangup ∧ ∀ msg, action ≠ .message msg) : Aside room sys.state r := by
  cases hact with
  | message hi => exact absurd rfl (hkind.2 _)
  | hangup hi => exact absurd rfl hkind.1
  | @serve failure task request hi =>
    obtain rfl := hup failure rfl
    rw [hi] at ho
    cases task with
    | connect p => exact serve_aside ws ho.1 ho.2
    | event p => exact absurd ho id
    | onExcept p => exact absurd ho id
    | onFinally failed p => exact absurd ho id
  | @resume hex drift task reply hi =>
    rw [hi] at ho
    cases task with
    | connect p =>
      obtain ⟨hp, value, rfl⟩ := ho
      exact connectResume_aside hex ws conn.user conn.query hp value
    | event p => exact absurd ho id
    | onExcept p => exact absurd ho id
    | onFinally failed p => exact absurd ho id

end Acts

/-! ### Every run -/

structure Considered (room : String) (data : MatchCandidate) (sys : Sys) (l : Label) : Prop where
  negotiates : Negotiates room data sys l
  deliberate : Deliberate room sys l

structure Bargain (room : String) (data : MatchCandidate) (start : Sys) (ls : List Label)
    (sys : Sys) : Prop where
  stage : Stage room data start ls sys
  unraised : ∀ ws e, .raised ws e ∉ sys.log
  users : ∀ ws conn, sys.conns.get? ws = some conn →
    ∃ conn₀, start.conns.get? ws = some conn₀ ∧ conn₀.user = conn.user

section Run
variable {room : String} {data : MatchCandidate} {start sys sys' : Sys} {ls : List Label}

theorem stage_acts {ws : Socket} {action : Action} {conn : Conn} {r : Reaction}
    (hp : Proposed room data start) (h : Bargain room data start ls sys)
    (hu : Considered room data sys (.act ws action)) (hc : sys.conns.get? ws = some conn)
    (hact : Reacts ws conn sys.state action r) :
    Stage room data start (ls ++ [.act ws action]) (sys.reacted ws conn r) := by
  obtain ⟨a, b, s, t, _, _, hids, hsocks, hab, _⟩ := hp.members
  obtain ⟨⟨conn', hc', hmem⟩, hkind⟩ := hu.negotiates
  rw [hc, Option.some.injEq] at hc'
  subst hc'
  have hup : ∀ failure, action = .serve failure → failure = none := by
    intro failure ha
    subst ha
    exact hkind
  by_cases hbusy : conn.status.Handling room
  · -- the connection whose loop is suspended
    have hhere : ∀ p, FreeExcept room data sys p → p ws := by
      intro p hf
      by_contra hnot
      exact (hf ws conn hc hnot).1 hbusy
    cases h.stage with
    | offered _ _ _ hf _ _ _ => exact absurd (hhere _ hf) id
    | matching hg hacc hall hc' hs hf hr hw =>
      obtain rfl := hhere _ hf
      rw [hc, Option.some.injEq] at hc'
      subst hc'
      exact stage_matching hg hacc hall hs hf hr hw hact hup
    | rejecting hin hc' hs hf hm =>
      obtain rfl := hhere _ hf
      rw [hc, Option.some.injEq] at hc'
      subst hc'
      exact stage_rejecting hin hs hf hm hact hup
    | agreed _ hf _ _ _ _ => exact absurd (hhere _ hf) id
    | declined _ hf _ => exact absurd (hhere _ hf) id
  · obtain hbusy' | ho := h.stage.member hc hmem
    · exact absurd hbusy' hbusy
    · cases action with
      | message msg =>
        obtain ⟨conn₀, hstart, huser⟩ := h.users ws conn hc
        cases hact with
        | message hi =>
          obtain hn | hn := hkind
          · exact stage_accept h.stage hids hsocks hab hc hi hmem hstart huser hn hu.deliberate
          · exact stage_rejected h.stage hids hsocks hab hc hi hmem hn hu.deliberate
      | hangup => exact absurd hkind id
      | serve failure =>
        exact stage_aside h.stage hc hbusy (aside_of_open ho hact hup ⟨nofun, nofun⟩) _
      | resume hex drift =>
        exact stage_aside h.stage hc hbusy (aside_of_open ho hact hup ⟨nofun, nofun⟩) _

theorem bargain_step {l : Label} (hp : Proposed room data start)
    (h : Bargain room data start ls sys) (hu : Considered room data sys l)
    (hstep : interleaved.step sys l sys') : Bargain room data start (ls ++ [l]) sys' := by
  cases steps_of_step hstep with
  | connects hnew => exact absurd hu.negotiates id
  | @acts ws action conn r hc hr =>
    have hact := reacts_of_react hr
    have hstage := stage_acts hp h hu hc hact
    obtain ⟨⟨conn', hc', hmem⟩, _⟩ := hu.negotiates
    rw [hc, Option.some.injEq] at hc'
    subst hc'
    refine ⟨hstage, fun ws' e hin => ?_, fun ws' conn' hc' => ?_⟩
    · -- a connection that raises has left the `try` block
      have hgoes : ¬ r.status.Leaving := by
        obtain hs | hs := hstage.member (get?_reacted.mpr (.inl ⟨rfl, rfl⟩)) hmem
        · exact hs.not_leaving
        · exact hs.not_leaving
      rcases List.mem_append.mp hin with hold | hnew
      · exact h.unraised ws' e hold
      · exact unraised_of_reacts hact hgoes ws' e hnew
    · obtain ⟨rfl, rfl⟩ | ⟨_, hold⟩ := get?_reacted.mp hc'
      · exact h.users ws' conn hc
      · exact h.users ws' conn' hold
  | @elapses seconds today =>
    refine ⟨?_, h.unraised, h.users⟩
    cases h.stage with
    | offered hg hcard hacc hf hm hr hw =>
      exact .offered hg hcard (fun id hid => ⟨(hacc id hid).1, (hacc id hid).2.mono _⟩) hf hm hr hw
    | matching hg hacc hall hc hs hf hr hw =>
      exact .matching hg hacc (fun id hid => (hall id hid).mono _) hc hs hf hr hw
    | rejecting hin hc hs hf hm => exact .rejecting hin hc hs hf hm
    | agreed hout hf hall hm hr hw =>
      exact .agreed hout hf (fun id hid => (hall id hid).mono _) hm hr hw
    | declined hout hf hm => exact .declined hout hf hm

theorem bargain_start (hp : Proposed room data start) : Bargain room data start [] start := by
  have hfree : FreeExcept room data start fun _ => False := by
    intro ws conn hc _
    exact ⟨hp.unhandled ws conn hc, hp.opened ws conn hc⟩
  have hg : start.state.matchingCandidates.get? room = some { data with accepted := ∅ } := by
    rw [hp.present, ← hp.fresh]
  refine ⟨.offered hg (by simp) (fun id hid => absurd hid (Finset.notMem_empty id)) hfree ?_ ?_ rfl,
    ?_, ?_⟩
  · rw [hp.log]
    rfl
  · rw [hp.log]
    rfl
  · rw [hp.log]
    exact fun _ _ => List.not_mem_nil
  · exact fun ws conn hc => ⟨conn, hc, rfl⟩

/-- In every run of 'accept' and 'rejected' for a room whose messages are deliberate, the members
agree on the outcome. -/
theorem settles_of_deliberate (hp : Proposed room data start)
    (hr : (interleaved.guard (Considered room data)).Run start ls sys) :
    Settles room data start ls sys := by
  have h : Bargain room data start ls sys := by
    refine hr.history (Bargain room data start) (bargain_start hp) ?_
    intro hs s l s' hb hstep
    exact bargain_step hp hb hstep.1 hstep.2
  obtain ⟨a, b, s, t, conn, conn', hids, hsocks, hab, hs, ha, ht, hb⟩ := hp.members
  refine h.stage.settles ?_ h.unraised
  rw [hsocks]
  have hne : s ≠ t := by
    intro he
    rw [he, ht, Option.some.injEq] at hs
    exact hab (by rw [← ha, ← hb, hs])
  simpa using hne

end Run

/-! ### Two acceptances, and a third one too early -/

def twoConnects : List Label :=
  [.connect ⟨1⟩ (.plain (.of 1)) .empty, .act ⟨1⟩ (.serve none), .act ⟨1⟩ .goesOn,
    .connect ⟨2⟩ (.plain (.of 2)) .empty] ++
  (List.replicate 6 [Action.serve none, .goesOn]).flatten.map (.act ⟨2⟩)

def proposedSys : Sys :=
  { (Lts.exec Sys.step (Sys.initial .start) twoConnects).getD (Sys.initial .start) with log := [] }

def proposed : MatchCandidate := ⟨[.of 2, .of 1], [⟨2⟩, ⟨1⟩], ∅⟩

theorem proposed_proposedSys : Proposed "room_3_2_b" proposed proposedSys where
  log := rfl
  present := rfl
  fresh := rfl
  members := ⟨.of 2, .of 1, ⟨2⟩, ⟨1⟩, ⟨.plain (.of 2), .empty, .idle⟩, ⟨.plain (.of 1), .empty, .idle⟩,
    rfl, rfl, by decide, rfl, rfl, rfl, rfl⟩
  unhandled := by
    intro ws conn hc
    obtain he | he := List.mem_cons.mp (OrderedDict.get?_eq_some.mp hc)
    · cases he
      exact id
    · cases List.mem_singleton.mp he
      exact id
  opened := by
    intro ws conn hc _
    obtain he | he := List.mem_cons.mp (OrderedDict.get?_eq_some.mp hc)
    · cases he
      trivial
    · cases List.mem_singleton.mp he
      trivial

section Inputs
variable {room : String} {data : MatchCandidate} {sys : Sys} {ws : Socket} {conn : Conn}

theorem negotiates_serve (hc : sys.conns.get? ws = some conn) (hu : conn.user.id ∈ data.userIds) :
    Negotiates room data sys (.act ws (.serve none)) := ⟨⟨conn, hc, hu⟩, rfl⟩

theorem negotiates_accept (hc : sys.conns.get? ws = some conn) (hu : conn.user.id ∈ data.userIds) :
    Negotiates room data sys (.act ws (.message (.message "accept" room))) :=
  ⟨⟨conn, hc, hu⟩, .inl (names_message _ _)⟩

theorem considered_serve (hc : sys.conns.get? ws = some conn) (hu : conn.user.id ∈ data.userIds) :
    Considered room data sys (.act ws (.serve none)) :=
  ⟨negotiates_serve hc hu, fun _ _ _ _ _ hl => nomatch hl⟩

theorem considered_goesOn (hc : sys.conns.get? ws = some conn) (hu : conn.user.id ∈ data.userIds) :
    Considered room data sys (.act ws .goesOn) :=
  ⟨⟨⟨conn, hc, hu⟩, trivial⟩, fun _ _ _ _ _ hl => nomatch hl⟩

theorem considered_accept (hc : sys.conns.get? ws = some conn) (hu : conn.user.id ∈ data.userIds)
    (hidle : sys.conns.entries.map (fun e => e.2.status) = [.idle, .idle]) :
    Considered room data sys (.act ws (.message (.message "accept" room))) := by
  refine ⟨negotiates_accept hc hu, ?_⟩
  intro _ _ _ _ _ _ _ _ _
  refine .inl fun ws' conn' hc' hbusy => ?_
  have hmem : conn'.status ∈ sys.conns.entries.map (fun e => e.2.status) :=
    List.mem_map_of_mem (OrderedDict.get?_eq_some.mp hc')
  have hs : conn'.status = .idle := by simpa [hidle] using hmem
  rw [hs] at hbusy
  exact hbusy

end Inputs

def bothAccept : List Label :=
  [.act ⟨1⟩ (.message (.message "accept" "room_3_2_b")),
    .act ⟨2⟩ (.message (.message "accept" "room_3_2_b")),
    .act ⟨2⟩ (.serve none), .act ⟨2⟩ .goesOn, .act ⟨2⟩ (.serve none), .act ⟨2⟩ .goesOn]

theorem settles_of_deliberate_applied :
    ∃ sys, interleaved.Run proposedSys bothAccept sys ∧
      recipients (.matched "room_3_2_b") sys.log = [⟨2⟩, ⟨1⟩] ∧
      Settles "room_3_2_b" proposed proposedSys bothAccept sys := by
  have hr : (interleaved.guard (Considered "room_3_2_b" proposed)).Run proposedSys bothAccept _ :=
    Lts.Run.cons ⟨considered_accept rfl (by decide) rfl, rfl⟩
      (Lts.Run.cons ⟨considered_accept rfl (by decide) rfl, rfl⟩
      (Lts.Run.cons ⟨considered_serve rfl (by decide), rfl⟩
      (Lts.Run.cons ⟨considered_goesOn rfl (by decide), rfl⟩
      (Lts.Run.cons ⟨considered_serve rfl (by decide), rfl⟩
      (Lts.Run.single ⟨considered_goesOn rfl (by decide), rfl⟩)))))
  exact ⟨_, hr.of_guard, rfl, settles_of_deliberate proposed_proposedSys hr⟩

def hastyAccept : List Label :=
  [.act ⟨1⟩ (.message (.message "accept" "room_3_2_b")),
    .act ⟨2⟩ (.message (.message "accept" "room_3_2_b")),
    .act ⟨1⟩ (.message (.message "accept" "room_3_2_b")),
    .act ⟨2⟩ (.serve none), .act ⟨1⟩ (.serve none)]

theorem matched_twice :
    ¬ ∀ room data start, Proposed room data start → ∀ ls sys,
      (interleaved.guard (Negotiates room data)).Run start ls sys →
        Settles room data start ls sys := by
  intro h
  have hr : (interleaved.guard (Negotiates "room_3_2_b" proposed)).Run proposedSys hastyAccept _ :=
    Lts.Run.cons ⟨negotiates_accept rfl (by decide), rfl⟩
      (Lts.Run.cons ⟨negotiates_accept rfl (by decide), rfl⟩
      (Lts.Run.cons ⟨negotiates_accept rfl (by decide), rfl⟩
      (Lts.Run.cons ⟨negotiates_serve rfl (by decide), rfl⟩
      (Lts.Run.single ⟨negotiates_serve rfl (by decide), rfl⟩))))
  have honce := (h _ _ _ proposed_proposedSys _ _ hr).once
  exact absurd honce (by decide)

end Nalang.Matchmaking
