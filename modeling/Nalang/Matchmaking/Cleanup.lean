import Nalang.Matchmaking.Calls
import Nalang.Matchmaking.Interleaving

/-!
# Nothing is left of a user who has gone

`handle_disconnect` walks over the live `matching_candidates` while it awaits
its sends, and a rejection puts its partner into `waiting_users` after an await.
As long as no room comes or goes under such a loop, and nobody is put back whose
last connection is already closing, every user is cleaned up completely.
-/

namespace Nalang.Matchmaking
open Python Transition

/-! ### The loop of `handle_disconnect` -/

namespace DisconnectPoint

/-- The version of the rooms that the loop started from, and the rooms that it has to remove or that
it has still to visit. -/
def loop : DisconnectPoint → Option (ℕ × List String)
  | .deletingOwn => none
  | .notifying room _ cursor toRemove => some (cursor.version, toRemove ++ room :: cursor.rest)
  | .deletingKey room cursor toRemove => some (cursor.version, toRemove ++ room :: cursor.rest)

def Covers (p : DisconnectPoint) (room : String) : Prop :=
  ∀ version rooms, p.loop = some (version, rooms) → room ∈ rooms

def Valid (p : DisconnectPoint) (st : State) : Prop :=
  ∀ version rooms, p.loop = some (version, rooms) →
    st.matchingCandidates.version = version ∧ rooms.Nodup ∧ ∀ r ∈ rooms, r ∈ st.matchingCandidates

def Awaits (p : DisconnectPoint) (request : Request) : Prop :=
  (∃ room rest cursor toRemove, p = .notifying room rest cursor toRemove) ∨
    ∃ id, request = .redisDelete id

def Takes (p : DisconnectPoint) (reply : Reply) : Prop :=
  (∃ room rest cursor toRemove, p = .notifying room rest cursor toRemove) ∨
    ∃ value, reply = .ok value

theorem Valid.congr {p : DisconnectPoint} {st st' : State} (h : p.Valid st)
    (hm : st'.matchingCandidates = st.matchingCandidates) : p.Valid st' := by
  unfold Valid
  rw [hm]
  exact h

end DisconnectPoint

inductive Proceeds (userId : UserId) (st : State) (covered : String → Prop) :
    Turn DisconnectPoint → Prop
  | awaits {st' : State} {request : Request} {p : DisconnectPoint}
      (hm : st'.matchingCandidates = st.matchingCandidates)
      (he : st'.enteredUsers = st.enteredUsers)
      (hw : ∀ id ∈ st'.waitingUsers, id ∈ st.waitingUsers) (hq : p.Awaits request)
      (hv : p.Valid st)
      (hc : ∀ e ∈ st.rooms, userId ∈ e.2.userIds → covered e.1 → p.Covers e.1) :
      Proceeds userId st covered ⟨st', [], .awaits request p⟩
  | returns {st' : State} {removed : List String}
      (hm : st'.matchingCandidates = st.matchingCandidates.eraseAll removed)
      (he : st'.enteredUsers = st.enteredUsers.erase userId)
      (hw : ∀ id ∈ st'.waitingUsers, id ∈ st.waitingUsers)
      (hc : ∀ e ∈ st.rooms, userId ∈ e.2.userIds → covered e.1 → e.1 ∈ removed) :
      Proceeds userId st covered ⟨st', [], .returns⟩

section Disconnect
variable {userId : UserId} {st : State}

theorem Proceeds.mono {covered covered' : String → Prop} {t : Turn DisconnectPoint}
    (h : Proceeds userId st covered t)
    (hc : ∀ e ∈ st.rooms, userId ∈ e.2.userIds → covered' e.1 → covered e.1) :
    Proceeds userId st covered' t := by
  cases h with
  | awaits hm he hw hq hv hall =>
    exact .awaits hm he hw hq hv fun e hmem hu hcov => hall e hmem hu (hc e hmem hu hcov)
  | returns hm he hw hall =>
    exact .returns hm he hw fun e hmem hu hcov => hall e hmem hu (hc e hmem hu hcov)

theorem notifyNext_proceeds {room : String} {cursor : OrderedDict.Cursor String}
    {toRemove : List String} (socks : List Socket)
    (hv : (DisconnectPoint.deletingKey room cursor toRemove).Valid st) :
    Proceeds userId st (DisconnectPoint.deletingKey room cursor toRemove).Covers
      (notifyNext userId st room cursor toRemove socks) := by
  cases socks with
  | nil => exact .awaits rfl rfl (fun _ h => h) (.inr ⟨userId, rfl⟩) hv fun _ _ _ h => h
  | cons sock socks =>
    exact .awaits rfl rfl (fun _ h => h) (.inl ⟨room, socks, cursor, toRemove, rfl⟩) hv
      fun _ _ _ h => h

theorem disconnectScan_proceeds {cursor : OrderedDict.Cursor String} {keys toRemove : List String}
    (hv : st.matchingCandidates.version = cursor.version) (hn : (toRemove ++ keys).Nodup)
    (hin : ∀ r ∈ toRemove ++ keys, r ∈ st.matchingCandidates) :
    Proceeds userId st (fun r => r ∈ toRemove ++ keys)
      (disconnectScan userId st cursor false keys toRemove) := by
  induction keys generalizing toRemove with
  | nil =>
    rw [List.append_nil] at hn
    simp only [List.append_nil] at hin
    simp only [disconnectScan, Bool.false_eq_true, if_false, List.append_nil]
    rw [disconnectRemove_eq userId hn hin]
    exact .returns rfl rfl (fun _ h => h) fun _ _ _ h => h
  | cons room keys ih =>
    have hassoc : (toRemove ++ [room]) ++ keys = toRemove ++ room :: keys := by simp
    unfold disconnectScan
    cases hg : st.matchingCandidates.get? room with
    | none => exact absurd (hin room (by simp)) (OrderedDict.get?_eq_none.mp hg)
    | some data =>
      dsimp only
      split_ifs with hu he
      · have hrest : Proceeds userId st (fun r => r ∈ (toRemove ++ [room]) ++ keys)
            (disconnectScan userId st cursor false keys (toRemove ++ [room])) :=
          ih (hassoc ▸ hn) (hassoc ▸ hin)
        rwa [hassoc] at hrest
      · have hvalid : (DisconnectPoint.deletingKey room { cursor with rest := keys }
            toRemove).Valid st := by
          intro version rooms hloop
          simp only [DisconnectPoint.loop, Option.some.injEq, Prod.mk.injEq] at hloop
          obtain ⟨rfl, rfl⟩ := hloop
          exact ⟨hv, hn, hin⟩
        refine (notifyNext_proceeds data.sockets hvalid).mono ?_
        intro e _ _ hmem version rooms hloop
        simp only [DisconnectPoint.loop, Option.some.injEq, Prod.mk.injEq] at hloop
        rw [← hloop.2]
        exact hmem
      · have hsub : (toRemove ++ keys).Sublist (toRemove ++ room :: keys) :=
          (List.sublist_cons_self _ _).append_left _
        refine (ih (hn.sublist hsub) fun r hr => hin r (hsub.subset hr)).mono ?_
        -- a room with the user in it is another one
        intro e hmem hue hcov
        have hne : e.1 ≠ room := by
          intro heq
          have hge := OrderedDict.get?_eq_some.mpr
            (show (e.1, e.2) ∈ st.matchingCandidates.entries from hmem)
          rw [heq, hg, Option.some.injEq] at hge
          exact hu (hge ▸ hue)
        simp only [List.mem_append, List.mem_cons] at hcov ⊢
        rcases hcov with hcov | hcov | hcov
        · exact .inl hcov
        · exact absurd hcov hne
        · exact .inr hcov

theorem disconnectRooms_proceeds (covered : String → Prop) :
    Proceeds userId st covered (disconnectRooms userId st) := by
  unfold disconnectRooms
  rw [disconnectNext_of_version userId _ rfl]
  refine (disconnectScan_proceeds rfl ?_ ?_).mono ?_
  · exact st.matchingCandidates.nodup
  · intro r hr
    exact OrderedDict.mem_def.mpr hr
  · intro e hmem _ _
    exact List.mem_map_of_mem hmem

theorem disconnectStart_proceeds (covered : String → Prop) :
    Proceeds userId st covered (disconnectStart userId st) ∧
      ¬ userId ∈ (disconnectStart userId st).state.waitingUsers := by
  unfold disconnectStart
  split_ifs with hw
  · refine ⟨.awaits rfl rfl ?_ (.inr ⟨userId, rfl⟩) ?_ ?_, by simp⟩
    · intro id hid
      exact (OrderedDict.mem_erase.mp hid).2
    · intro version rooms hloop
      cases hloop
    · intro _ _ _ _ version rooms hloop
      cases hloop
  · have h : Proceeds userId st covered (disconnectRooms userId st) :=
      disconnectRooms_proceeds covered
    refine ⟨h, ?_⟩
    generalize disconnectRooms userId st = t at h
    cases h with
    | awaits _ _ hsub _ _ _ => exact fun hin => hw (hsub _ hin)
    | returns _ _ hsub _ => exact fun hin => hw (hsub _ hin)

theorem disconnectResume_proceeds (drift : OrderedDict.Drift String) {p : DisconnectPoint}
    {reply : Reply} (hv : p.Valid st) (ht : p.Takes reply) :
    Proceeds userId st p.Covers (disconnectResume userId drift p reply st) := by
  cases p with
  | deletingOwn =>
    obtain ⟨_, _, _, _, h⟩ | ⟨value, rfl⟩ := ht
    · cases h
    · exact disconnectRooms_proceeds _
  | notifying room rest cursor toRemove =>
    exact notifyNext_proceeds rest hv
  | deletingKey room cursor toRemove =>
    obtain ⟨_, _, _, _, h⟩ | ⟨value, rfl⟩ := ht
    · cases h
    · obtain ⟨hver, hn, hin⟩ := hv _ _ rfl
      have hassoc : (toRemove ++ [room]) ++ cursor.rest = toRemove ++ room :: cursor.rest := by simp
      have hscan : Proceeds userId st (fun r => r ∈ (toRemove ++ [room]) ++ cursor.rest)
          (disconnectScan userId st cursor false cursor.rest (toRemove ++ [room])) :=
        disconnectScan_proceeds hver (hassoc ▸ hn) (hassoc ▸ hin)
      unfold disconnectResume
      dsimp only
      rw [disconnectNext_of_version userId drift hver]
      refine hscan.mono ?_
      intro e _ _ hcov
      rw [hassoc]
      exact hcov _ _ rfl

end Disconnect

/-! ### The other handlers -/

structure Upholds {π : Type} (userId : UserId) (requeued : Option UserId) (st : State) (t : Turn π) :
    Prop where
  waiting : ∀ id ∈ t.state.waitingUsers,
    id ∈ st.waitingUsers ∨ id = userId ∨ requeued = some id
  rooms : ∀ e ∈ t.state.rooms, (∃ e₀ ∈ st.rooms, e₀.1 = e.1 ∧ e₀.2.userIds = e.2.userIds) ∨
    ∀ id ∈ e.2.userIds, id = userId ∨ id ∈ st.waitingUsers
  entered : ∀ id ∈ t.state.enteredUsers, id ∈ st.enteredUsers ∨ id = userId
  follows : t.state.matchingCandidates.Follows st.matchingCandidates

section Upholds
variable {userId : UserId} {st : State}

theorem upholds_same {π : Type} {requeued : Option UserId} {t : Turn π} (h : t.state = st) :
    Upholds userId requeued st t where
  waiting _ hid := .inl (h ▸ hid)
  rooms e he := .inl ⟨e, h ▸ he, rfl, rfl⟩
  entered _ hid := .inl (h ▸ hid)
  follows := h ▸ OrderedDict.Follows.refl _

theorem Upholds.after {π : Type} {requeued : Option UserId} {st' : State} {t : Turn π}
    (h : Upholds userId none st' t)
    (hw : ∀ id ∈ st'.waitingUsers, id ∈ st.waitingUsers ∨ requeued = some id)
    (hr : ∀ e ∈ st'.rooms, ∃ e₀ ∈ st.rooms, e₀.1 = e.1 ∧ e₀.2.userIds = e.2.userIds)
    (hn : ∀ e ∈ t.state.rooms, ∃ e₀ ∈ st'.rooms, e₀.1 = e.1 ∧ e₀.2.userIds = e.2.userIds)
    (he : st'.enteredUsers = st.enteredUsers)
    (hf : st'.matchingCandidates.Follows st.matchingCandidates) :
    Upholds userId requeued st t where
  waiting id hid := by
    rcases h.waiting id hid with hid | hid | hid
    · exact (hw id hid).imp_right .inr
    · exact .inr (.inl hid)
    · cases hid
  rooms e hmem := by
    obtain ⟨e₁, hmem₁, hname₁, hids₁⟩ := hn e hmem
    obtain ⟨e₀, hmem₀, hname₀, hids₀⟩ := hr e₁ hmem₁
    exact .inl ⟨e₀, hmem₀, hname₀.trans hname₁, hids₀.trans hids₁⟩
  entered id hid := he ▸ h.entered id hid
  follows := h.follows.trans hf

theorem deleteRoom_rooms {room : String} {e : String × MatchCandidate}
    (h : e ∈ (deleteRoom st room).state.rooms) : e ∈ st.rooms := by
  unfold deleteRoom at h
  split_ifs at h
  · exact (OrderedDict.mem_entries_erase.mp h).1
  · exact h

theorem deleteRoom_upholds (room : String) : Upholds userId none st (deleteRoom st room) := by
  have hrooms : ∀ e ∈ (deleteRoom st room).state.rooms, e ∈ st.rooms := fun e => deleteRoom_rooms
  unfold deleteRoom at hrooms ⊢
  split_ifs at hrooms ⊢
  · exact {
      waiting := fun id hid => .inl hid
      rooms := fun e he => .inl ⟨e, hrooms e he, rfl, rfl⟩
      entered := fun id hid => .inl hid
      follows := OrderedDict.follows_erase _ _ }
  · exact upholds_same rfl

theorem matchNext_upholds (userId : UserId) (st : State) (room : String) (socks : List Socket) :
    Upholds userId none st (matchNext room st socks) ∧
      ∀ e ∈ (matchNext room st socks).state.rooms, e ∈ st.rooms := by
  cases socks with
  | nil => exact ⟨deleteRoom_upholds room, fun e => deleteRoom_rooms⟩
  | cons sock socks => exact ⟨upholds_same rfl, fun e he => he⟩

theorem rejectNext_upholds (userId : UserId) (st : State) (room : String) (sockets : List Socket)
    (idx : ℕ) (uids : List UserId) :
    Upholds userId none st (rejectNext userId room sockets st idx uids) ∧
      ∀ e ∈ (rejectNext userId room sockets st idx uids).state.rooms, e ∈ st.rooms := by
  induction uids generalizing idx with
  | nil => exact ⟨deleteRoom_upholds room, fun e => deleteRoom_rooms⟩
  | cons uid uids ih =>
    unfold rejectNext
    split_ifs with hu
    · cases sockets[idx]? with
      | none => exact ⟨upholds_same rfl, fun e he => he⟩
      | some sock => exact ⟨upholds_same rfl, fun e he => he⟩
    · exact ih (idx + 1)

theorem Upholds.with_effects {π : Type} {requeued : Option UserId} {t : Turn π}
    (h : Upholds userId requeued st t) (es : List Effect) :
    Upholds userId requeued st { t with effects := es } :=
  ⟨h.waiting, h.rooms, h.entered, h.follows⟩

theorem acceptStart_upholds {room : String} {data : MatchCandidate}
    (hg : st.matchingCandidates.get? room = some data) :
    Upholds userId none st (acceptStart userId room data st) := by
  have hset : ∀ e ∈ (st.matchingCandidates.set room
      { data with accepted := insert userId data.accepted }).entries,
      ∃ e₀ ∈ st.rooms, e₀.1 = e.1 ∧ e₀.2.userIds = e.2.userIds := by
    intro e he
    rcases OrderedDict.mem_entries_set.mp he with rfl | ⟨he, _⟩
    · exact ⟨(room, data), OrderedDict.get?_eq_some.mp hg, rfl, rfl⟩
    · exact ⟨e, he, rfl, rfl⟩
  unfold acceptStart
  dsimp only
  split_ifs with hc
  · obtain ⟨hup, hsub⟩ := matchNext_upholds userId { st with
      matchingCandidates := st.matchingCandidates.set room
        { data with accepted := insert userId data.accepted } } room data.sockets
    refine (hup.after ?_ hset ?_ rfl (OrderedDict.follows_set _ _ _)).with_effects _
    · exact fun id hid => .inl hid
    · exact fun e he => ⟨e, hsub e he, rfl, rfl⟩
  · exact {
      waiting := fun id hid => .inl hid
      rooms := fun e he => .inl (hset e he)
      entered := fun id hid => .inl hid
      follows := OrderedDict.follows_set _ _ _ }

theorem eventStart_upholds (msg : Json) : Upholds userId none st (eventStart userId msg st) := by
  unfold eventStart
  rcases msg.get "event" with e | event
  · exact upholds_same rfl
  rcases msg.get "room" with e | roomJson
  · exact upholds_same rfl
  dsimp only
  split_ifs
  swap
  · exact upholds_same rfl
  rcases roomJson.asRoomKey with e | room
  · exact upholds_same rfl
  cases room with
  | none => exact upholds_same rfl
  | some room =>
    dsimp only
    cases hg : st.matchingCandidates.get? room with
    | none => exact upholds_same rfl
    | some data =>
      dsimp only
      unfold roomEventStart
      split
      · exact {
          waiting := fun id hid => .inl hid
          rooms := fun e he => .inl ⟨e, he, rfl, rfl⟩
          entered := fun id hid => (Finset.mem_insert.mp hid).symm
          follows := OrderedDict.Follows.refl _ }
      · exact acceptStart_upholds hg
      · exact (rejectNext_upholds userId st room data.sockets 0 data.userIds).1
      · exact upholds_same rfl

def EventPoint.requeues (p : EventPoint) (reply : Reply) : Option UserId :=
  match p, reply with
  | .rejecting _ _ uid _ _ _, .ok _ => some uid
  | _, _ => none

theorem eventResume_upholds (p : EventPoint) (reply : Reply) :
    Upholds userId (p.requeues reply) st (eventResume userId p reply st) := by
  cases p with
  | matching room rest =>
    cases reply with
    | error e => exact upholds_same rfl
    | ok value => exact (matchNext_upholds userId st room rest).1
  | rejecting room sockets uid sock idx rest =>
    cases reply with
    | error e => exact (rejectNext_upholds userId st room sockets idx rest).1
    | ok value =>
      obtain ⟨hup, hsub⟩ :=
        rejectNext_upholds userId (requeue st uid sock) room sockets idx rest
      have hall : Upholds userId (some uid) st
          (rejectNext userId room sockets (requeue st uid sock) idx rest) := by
        refine hup.after ?_ ?_ ?_ rfl (OrderedDict.Follows.refl _)
        · intro id hid
          rcases OrderedDict.mem_set.mp hid with rfl | hid
          · exact .inr rfl
          · exact .inl hid
        · exact fun e he => ⟨e, he, rfl, rfl⟩
        · exact fun e he => ⟨e, hsub e he, rfl, rfl⟩
      exact hall.with_effects _

theorem connectScan_upholds (ws : Socket) (user : User) (es : List (UserId × Socket)) :
    Upholds user.id none st (connectScan ws user st es) := by
  induction es with
  | nil =>
    exact {
      waiting := fun id hid => (OrderedDict.mem_set.mp hid).symm.imp_right .inl
      rooms := fun e he => .inl ⟨e, he, rfl, rfl⟩
      entered := fun id hid => .inl hid
      follows := OrderedDict.Follows.refl _ }
  | cons e es ih =>
    unfold connectScan
    split_ifs with hself
    · exact ih
    · exact upholds_same rfl

theorem connectClaim_upholds (hex : String) (ws : Socket) (user : User) (partner : UserId) :
    Upholds user.id none st (connectClaim hex ws user st partner) := by
  unfold connectClaim
  cases hg : st.waitingUsers.get? partner with
  | none => exact upholds_same rfl
  | some ws2 =>
    exact {
      waiting := fun id hid => .inl (OrderedDict.mem_erase.mp hid).2
      rooms := by
        intro e he
        rcases OrderedDict.mem_entries_set.mp he with rfl | ⟨he, _⟩
        · refine .inr fun id hid => ?_
          simp only [List.mem_cons, List.not_mem_nil, or_false] at hid
          rcases hid with hid | hid
          · exact .inl hid
          · exact .inr (hid ▸ OrderedDict.mem_of_get? hg)
        · exact .inl ⟨e, he, rfl, rfl⟩
      entered := fun id hid => .inl hid
      follows := OrderedDict.follows_set _ _ _ }

theorem connectResume_upholds (hex : String) (ws : Socket) (user : User) (query : QueryParams)
    (p : ConnectPoint) (reply : Reply) :
    Upholds user.id none st (connectResume hex ws user query p reply st) := by
  unfold connectResume
  cases reply with
  | error e => exact upholds_same rfl
  | ok value =>
    cases p with
    | storing => exact connectScan_upholds ws user _
    | reading otherId rest =>
      cases value with
      | none => exact connectScan_upholds ws user rest
      | some parsed =>
        dsimp only
        rcases mutualMatch st.clock.today parsed user.userData query.filters with e | b
        · exact upholds_same rfl
        · cases b with
          | true => exact connectClaim_upholds hex ws user otherId
          | false => exact connectScan_upholds ws user rest
    | proposing partner ws2 room => exact upholds_same rfl
    | proposingPartner partner => exact upholds_same rfl
    | deleting partner => exact upholds_same rfl
    | deletingPartner => exact upholds_same rfl

end Upholds

/-! ### Who takes care of a user -/

namespace Status

def final : Status → Option DisconnectPoint
  | .waiting (.onFinally _ p) _ => some p
  | .ready (.onFinally _ p) _ => some p
  | _ => none

def Alive (s : Status) : Prop := ∀ failed, s ≠ .finished failed

def Anchored (s : Status) : Prop := s.final = none ∧ s.Alive

def Watches (room : String) (s : Status) : Prop :=
  s.Anchored ∨ ∃ p, s.final = some p ∧ p.Covers room

def Sound (st : State) : Status → Prop
  | .finished failed => failed = none
  | .waiting (.onExcept p) request => p.Valid st ∧ p.Awaits request
  | .waiting (.onFinally failed p) request => failed = none ∧ p.Valid st ∧ p.Awaits request
  | .ready (.onExcept p) reply => p.Valid st ∧ p.Takes reply
  | .ready (.onFinally failed p) reply => failed = none ∧ p.Valid st ∧ p.Takes reply
  | _ => True

def InLoop : Status → Prop
  | .waiting (.onExcept p) _ => p.loop ≠ none
  | .waiting (.onFinally _ p) _ => p.loop ≠ none
  | .ready (.onExcept p) _ => p.loop ≠ none
  | .ready (.onFinally _ p) _ => p.loop ≠ none
  | _ => False

end Status

def Holds (look : Socket → Option Conn) (id : UserId) (P : Status → Prop) : Prop :=
  ∃ ws conn, look ws = some conn ∧ conn.user.id = id ∧ P conn.status

structure Placed (st : State) (look : Socket → Option Conn) : Prop where
  waiting : ∀ id ∈ st.waitingUsers, Holds look id Status.Anchored
  rooms : ∀ e ∈ st.rooms, ∀ id ∈ e.2.userIds, Holds look id (Status.Watches e.1)
  entered : ∀ id ∈ st.enteredUsers, Holds look id Status.Alive

section Connection
variable {look : Socket → Option Conn} {ws : Socket} {conn : Conn} {st : State}

def withStatus (look : Socket → Option Conn) (ws : Socket) (conn : Conn) (s : Status) :
    Socket → Option Conn :=
  Function.update look ws (some { conn with status := s })

theorem withStatus_self (s : Status) :
    withStatus look ws conn s ws = some { conn with status := s } := Function.update_self ..

theorem withStatus_withStatus (s s' : Status) :
    withStatus (withStatus look ws conn s) ws { conn with status := s } s' =
      withStatus look ws conn s' := Function.update_idem ..

theorem holds_self {P : Status → Prop} {s : Status} (h : P s) :
    Holds (withStatus look ws conn s) conn.user.id P :=
  ⟨ws, _, withStatus_self s, rfl, h⟩

theorem holds_withStatus {P : Status → Prop} {s : Status} {id : UserId} (hc : look ws = some conn)
    (h : Holds look id P) (hP : conn.user.id = id → P conn.status → P s) :
    Holds (withStatus look ws conn s) id P := by
  obtain ⟨ws', conn', hc', hid, hp⟩ := h
  by_cases hws : ws' = ws
  · rw [hws, hc, Option.some.injEq] at hc'
    rw [← hc'] at hid hp
    rw [← hid]
    exact holds_self (hP hid hp)
  · exact ⟨ws', conn', (Function.update_of_ne hws _ _).trans hc', hid, hp⟩

theorem Status.Anchored.watches {s : Status} (h : s.Anchored) (room : String) : s.Watches room :=
  .inl h

theorem Placed.shrink {st' : State} (h : Placed st look)
    (hw : ∀ id ∈ st'.waitingUsers, id ∈ st.waitingUsers) (hr : ∀ e ∈ st'.rooms, e ∈ st.rooms)
    (he : ∀ id ∈ st'.enteredUsers, id ∈ st.enteredUsers) : Placed st' look :=
  ⟨fun id hid => h.waiting id (hw id hid), fun e hmem => h.rooms e (hr e hmem),
    fun id hid => h.entered id (he id hid)⟩

theorem placed_upholds {π : Type} {requeued : Option UserId} {t : Turn π} {s : Status}
    (h : Placed st look) (hc : look ws = some conn) (hu : Upholds conn.user.id requeued st t)
    (hq : ∀ id, requeued = some id → Holds look id Status.Anchored) (hs : s.Anchored) :
    Placed t.state (withStatus look ws conn s) where
  waiting id hid := by
    rcases hu.waiting id hid with hold | rfl | hre
    · exact holds_withStatus hc (h.waiting id hold) fun _ _ => hs
    · exact holds_self hs
    · exact holds_withStatus hc (hq id hre) fun _ _ => hs
  rooms e hmem id hid := by
    rcases hu.rooms e hmem with ⟨e₀, hmem₀, hname, hids⟩ | hnew
    · have hold := h.rooms e₀ hmem₀ id (hids ▸ hid)
      rw [hname] at hold
      exact holds_withStatus hc hold fun _ _ => hs.watches e.1
    · rcases hnew id hid with rfl | hwait
      · exact holds_self (hs.watches e.1)
      · obtain ⟨ws', conn', hc', hid', ha⟩ := h.waiting id hwait
        exact holds_withStatus hc ⟨ws', conn', hc', hid', ha.watches e.1⟩ fun _ _ => hs.watches e.1
  entered id hid := by
    rcases hu.entered id hid with hold | rfl
    · exact holds_withStatus hc (h.entered id hold) fun _ _ => hs.2
    · exact holds_self hs.2

structure Tended (look : Socket → Option Conn) (ws : Socket) (conn : Conn) (st : State)
    (r : Reaction) : Prop where
  placed : Placed r.state (withStatus look ws conn r.status)
  sound : r.status.Sound r.state
  follows : r.state.matchingCandidates.Follows st.matchingCandidates

theorem finally_tended {covered : String → Prop} {t : Turn DisconnectPoint} (h : Placed st look)
    (hc : look ws = some conn) (ht : Proceeds conn.user.id st covered t)
    (hw : conn.user.id ∈ t.state.waitingUsers → ¬ conn.status.Anchored)
    (hcov : ∀ room, conn.status.Watches room → covered room) :
    Tended look ws conn st (afterFinally none t) := by
  cases ht with
  | @awaits st' request p hm he hsub hq hv hall =>
    refine ⟨⟨fun id hid => ?_, fun e hmem id hid => ?_, fun id hid => ?_⟩, ?_, ?_⟩
    · refine holds_withStatus hc (h.waiting id (hsub id hid)) fun hu ha => ?_
      exact absurd ha (hw (hu ▸ hid))
    · have hmem' : e ∈ st.rooms := by
        unfold State.rooms
        rw [← hm]
        exact hmem
      refine holds_withStatus hc (h.rooms e hmem' id hid) fun hu hwatch => ?_
      exact .inr ⟨p, rfl, hall e hmem' (hu ▸ hid) (hcov e.1 hwatch)⟩
    · refine holds_withStatus hc (h.entered id (he ▸ hid)) fun _ _ failed hf => ?_
      cases hf
    · exact ⟨rfl, hv.congr hm, hq⟩
    · change st'.matchingCandidates.Follows st.matchingCandidates
      rw [hm]
      exact OrderedDict.Follows.refl _
  | @returns st' removed hm he hsub hall =>
    refine ⟨⟨fun id hid => ?_, fun e hmem id hid => ?_, fun id hid => ?_⟩, rfl, ?_⟩
    · refine holds_withStatus hc (h.waiting id (hsub id hid)) fun hu ha => ?_
      exact absurd ha (hw (hu ▸ hid))
    · have hmem' : e ∈ (st.matchingCandidates.eraseAll removed).entries := hm ▸ hmem
      obtain ⟨hold, hnot⟩ := OrderedDict.mem_entries_eraseAll.mp hmem'
      refine holds_withStatus hc (h.rooms e hold id hid) fun hu hwatch => ?_
      exact absurd (hall e hold (hu ▸ hid) (hcov e.1 hwatch)) hnot
    · have hid' : id ∈ st.enteredUsers.erase conn.user.id := he ▸ hid
      obtain ⟨hne, hold⟩ := Finset.mem_erase.mp hid'
      exact holds_withStatus hc (h.entered id hold) fun hu => absurd hu.symm hne
    · change st'.matchingCandidates.Follows st.matchingCandidates
      rw [hm]
      exact OrderedDict.follows_eraseAll _ _

theorem finally_start_tended (h : Placed st look) (hc : look ws = some conn) :
    Tended look ws conn st (afterFinally none (disconnectStart conn.user.id st)) := by
  obtain ⟨hp, hnot⟩ : Proceeds conn.user.id st (fun _ => True) _ ∧ _ := disconnectStart_proceeds _
  exact finally_tended h hc hp (fun hw => absurd hw hnot) fun _ _ => trivial

theorem except_tended {covered : String → Prop} {t : Turn DisconnectPoint} (h : Placed st look)
    (hc : look ws = some conn) (ht : Proceeds conn.user.id st covered t) :
    Tended look ws conn st (afterExcept conn.user.id t) := by
  cases ht with
  | @awaits st' request p hm he hsub hq hv hall =>
    have ha : (Status.waiting (.onExcept p) request).Anchored := ⟨rfl, fun _ hf => nomatch hf⟩
    refine ⟨⟨fun id hid => ?_, fun e hmem id hid => ?_, fun id hid => ?_⟩, ⟨hv.congr hm, hq⟩, ?_⟩
    · exact holds_withStatus hc (h.waiting id (hsub id hid)) fun _ _ => ha
    · have hmem' : e ∈ st.rooms := by
        unfold State.rooms
        rw [← hm]
        exact hmem
      exact holds_withStatus hc (h.rooms e hmem' id hid) fun _ _ => ha.watches e.1
    · exact holds_withStatus hc (h.entered id (he ▸ hid)) fun _ _ => ha.2
    · change st'.matchingCandidates.Follows st.matchingCandidates
      rw [hm]
      exact OrderedDict.Follows.refl _
  | @returns st' removed hm he hsub hall =>
    have hplaced : Placed st' look := by
      refine h.shrink hsub ?_ ?_
      · intro e hmem
        have hmem' : e ∈ (st.matchingCandidates.eraseAll removed).entries := hm ▸ hmem
        exact (OrderedDict.mem_entries_eraseAll.mp hmem').1
      · intro id hid
        have hid' : id ∈ st.enteredUsers.erase conn.user.id := he ▸ hid
        exact (Finset.mem_erase.mp hid').2
    have hlast := finally_start_tended hplaced hc
    refine ⟨hlast.placed, hlast.sound, hlast.follows.trans ?_⟩
    rw [hm]
    exact OrderedDict.follows_eraseAll _ _

theorem leave_tended (h : Placed st look) (hc : look ws = some conn) (raised : Option PyError) :
    Tended look ws conn st (leave conn.user.id raised st) := by
  unfold leave
  split_ifs
  · exact except_tended h hc (disconnectStart_proceeds fun _ => True).1
  · exact finally_start_tended h hc

theorem settle_tended {π : Type} {requeued : Option UserId} {task : π → Task} {t : Turn π}
    (h : Placed st look) (hc : look ws = some conn) (hu : Upholds conn.user.id requeued st t)
    (hq : ∀ id, requeued = some id → Holds look id Status.Anchored)
    (htask : ∀ p request, (Status.waiting (task p) request).Anchored ∧
      ∀ st, (Status.waiting (task p) request).Sound st) :
    Tended look ws conn st (settle conn.user.id ws task t) := by
  obtain ⟨st', es, next⟩ := t
  cases next with
  | awaits request p =>
    obtain ⟨ha, hsound⟩ := htask p request
    exact ⟨placed_upholds h hc hu hq ha, hsound _, hu.follows⟩
  | returns =>
    have ha : Status.idle.Anchored := ⟨rfl, fun _ hf => nomatch hf⟩
    exact ⟨placed_upholds h hc hu hq ha, trivial, hu.follows⟩
  | raises e =>
    have ha : Status.idle.Anchored := ⟨rfl, fun _ hf => nomatch hf⟩
    have hmid := placed_upholds h hc hu hq ha
    have hleave : Tended (withStatus look ws conn .idle) ws { conn with status := .idle } st'
        (leave conn.user.id (some e) st') := leave_tended hmid (withStatus_self _) (some e)
    refine ⟨?_, hleave.sound, hleave.follows.trans hu.follows⟩
    have hplaced := hleave.placed
    rw [withStatus_withStatus] at hplaced
    exact hplaced

end Connection

/-! ### Every step -/

namespace DisconnectPoint

theorem Valid.of_follows {p : DisconnectPoint} {st st' : State} (h : p.Valid st)
    (hf : st'.matchingCandidates.Follows st.matchingCandidates)
    (hsame : p.loop ≠ none → st'.matchingCandidates.version = st.matchingCandidates.version) :
    p.Valid st' := by
  intro version rooms hloop
  obtain ⟨hver, hn, hin⟩ := h version rooms hloop
  have hv := hsame (by simp [hloop])
  refine ⟨hv.trans hver, hn, fun r hr => ?_⟩
  rw [OrderedDict.mem_def, hf.keys_eq hv]
  exact hin r hr

end DisconnectPoint

theorem Status.Sound.of_follows {s : Status} {st st' : State} (h : s.Sound st)
    (hf : st'.matchingCandidates.Follows st.matchingCandidates)
    (hsame : s.InLoop → st'.matchingCandidates.version = st.matchingCandidates.version) :
    s.Sound st' := by
  cases s with
  | idle => trivial
  | waiting task request =>
    cases task with
    | connect p => trivial
    | event p => trivial
    | onExcept p => exact ⟨h.1.of_follows hf hsame, h.2⟩
    | onFinally failed p => exact ⟨h.1, h.2.1.of_follows hf hsame, h.2.2⟩
  | ready task reply =>
    cases task with
    | connect p => trivial
    | event p => trivial
    | onExcept p => exact ⟨h.1.of_follows hf hsame, h.2⟩
    | onFinally failed p => exact ⟨h.1, h.2.1.of_follows hf hsame, h.2.2⟩
  | finished failed => exact h

structure Tidy (sys : Sys) : Prop where
  placed : Placed sys.state sys.conns.get?
  sound : ∀ ws conn, sys.conns.get? ws = some conn → conn.status.Sound sys.state

/-- The step of `ws` does not bring or take a room from under a loop of `handle_disconnect`, and
puts nobody back who has no connection that will still run `handle_disconnect`. -/
structure Undisturbed (sys : Sys) (l : Label) : Prop where
  rooms : ∀ ws action sys', l = .act ws action → sys.step l = some sys' →
    sys'.state.matchingCandidates.version ≠ sys.state.matchingCandidates.version →
    ∀ ws' conn, sys.conns.get? ws' = some conn → conn.status.InLoop → ws' = ws
  requeues : ∀ ws conn hex drift p reply id, l = .act ws (.resume hex drift) →
    sys.conns.get? ws = some conn → conn.status = .ready (.event p) reply →
    p.requeues reply = some id → Holds sys.conns.get? id Status.Anchored

theorem Request.perform_tables (failure : Option PyError) (st : State) (request : Request) :
    (request.perform failure st).1.waitingUsers = st.waitingUsers ∧
      (request.perform failure st).1.matchingCandidates = st.matchingCandidates ∧
      (request.perform failure st).1.enteredUsers = st.enteredUsers := by
  cases request with
  | redisSet id record => exact ⟨rfl, rfl, rfl⟩
  | redisGet id => exact ⟨rfl, rfl, rfl⟩
  | redisDelete id => exact ⟨rfl, rfl, rfl⟩
  | send sock event =>
    cases failure with
    | none => exact ⟨rfl, rfl, rfl⟩
    | some e => exact ⟨rfl, rfl, rfl⟩

theorem DisconnectPoint.Awaits.takes {p : DisconnectPoint} {request : Request} (h : p.Awaits request)
    (failure : Option PyError) (st : State) : p.Takes (request.perform failure st).2 := by
  obtain hp | ⟨id, rfl⟩ := h
  · exact .inl hp
  · exact .inr ⟨none, rfl⟩

section React
variable {look : Socket → Option Conn} {ws : Socket} {conn : Conn} {st : State}

theorem tended_of_serve {task : Task} {request : Request} (failure : Option PyError)
    (h : Placed st look) (hc : look ws = some conn) (hs : conn.status = .waiting task request)
    (hsound : conn.status.Sound st) :
    Tended look ws conn st ⟨(request.perform failure st).1,
      .ready task (request.perform failure st).2, request.notes ws failure⟩ := by
  obtain ⟨hw, hm, he⟩ := request.perform_tables failure st
  have hfinal : (Status.ready task (request.perform failure st).2).final = conn.status.final := by
    rw [hs]
    cases task <;> rfl
  have halive : (Status.ready task (request.perform failure st).2).Alive := fun _ hf => nomatch hf
  have hanchored : conn.status.Anchored →
      (Status.ready task (request.perform failure st).2).Anchored :=
    fun ha => ⟨hfinal.trans ha.1, halive⟩
  have hplaced : Placed (request.perform failure st).1 look := by
    refine h.shrink (fun id hid => hw ▸ hid) (fun e hmem => ?_) fun id hid => he ▸ hid
    unfold State.rooms at hmem ⊢
    exact hm ▸ hmem
  refine ⟨⟨fun id hid => ?_, fun e hmem id hid => ?_, fun id hid => ?_⟩, ?_, ?_⟩
  · exact holds_withStatus hc (hplaced.waiting id hid) fun _ => hanchored
  · refine holds_withStatus hc (hplaced.rooms e hmem id hid) fun _ hwatch => ?_
    unfold Status.Watches at hwatch ⊢
    rw [hfinal]
    exact hwatch.imp_left hanchored
  · exact holds_withStatus hc (hplaced.entered id hid) fun _ _ => halive
  · rw [hs] at hsound
    cases task with
    | connect p => trivial
    | event p => trivial
    | onExcept p => exact ⟨hsound.1.congr hm, hsound.2.takes failure st⟩
    | onFinally failed p => exact ⟨hsound.1, hsound.2.1.congr hm, hsound.2.2.takes failure st⟩
  · change (request.perform failure st).1.matchingCandidates.Follows st.matchingCandidates
    rw [hm]
    exact OrderedDict.Follows.refl _

theorem tended_of_resume {task : Task} {reply : Reply} (hex : String)
    (drift : OrderedDict.Drift String) (h : Placed st look) (hc : look ws = some conn)
    (hs : conn.status = .ready task reply) (hsound : conn.status.Sound st)
    (hq : ∀ p id, task = .event p → p.requeues reply = some id → Holds look id Status.Anchored) :
    Tended look ws conn st (resumeTask hex drift ws conn reply st task) := by
  rw [hs] at hsound
  cases task with
  | connect p =>
    refine settle_tended h hc (connectResume_upholds hex ws conn.user conn.query p reply) ?_ ?_
    · intro id hid
      cases hid
    · exact fun p request => ⟨⟨rfl, fun _ hf => nomatch hf⟩, fun _ => trivial⟩
  | event p =>
    refine settle_tended h hc (eventResume_upholds p reply) (fun id => hq p id rfl) ?_
    exact fun p request => ⟨⟨rfl, fun _ hf => nomatch hf⟩, fun _ => trivial⟩
  | onExcept p => exact except_tended h hc (disconnectResume_proceeds drift hsound.1 hsound.2)
  | onFinally failed p =>
    obtain ⟨rfl, hv, ht⟩ := hsound
    refine finally_tended h hc (disconnectResume_proceeds drift hv ht) (fun _ ha => ?_) ?_
    · rw [hs] at ha
      cases ha.1
    · intro room hwatch
      rw [hs] at hwatch
      obtain ha | ⟨p', hp', hcov⟩ := hwatch
      · cases ha.1
      · cases hp'
        exact hcov

theorem tended_of_reacts {action : Action} {r : Reaction} (h : Placed st look)
    (hc : look ws = some conn) (hsound : conn.status.Sound st)
    (hq : ∀ hex drift p reply id, action = .resume hex drift →
      conn.status = .ready (.event p) reply → p.requeues reply = some id →
      Holds look id Status.Anchored)
    (hr : Reacts ws conn st action r) : Tended look ws conn st r := by
  cases hr with
  | message hs =>
    refine settle_tended h hc (eventStart_upholds _) ?_ ?_
    · intro id hid
      cases hid
    · exact fun p request => ⟨⟨rfl, fun _ hf => nomatch hf⟩, fun _ => trivial⟩
  | hangup hs => exact leave_tended h hc none
  | serve hs => exact tended_of_serve _ h hc hs hsound
  | @resume hex drift task reply hs =>
    refine tended_of_resume hex drift h hc hs hsound fun p id htask => ?_
    exact hq hex drift p reply id rfl (htask ▸ hs)

end React

theorem Holds.mono {look look' : Socket → Option Conn} {id : UserId} {P : Status → Prop}
    (h : Holds look id P) (hl : ∀ ws conn, look ws = some conn → look' ws = some conn) :
    Holds look' id P := by
  obtain ⟨ws, conn, hc, hid, hp⟩ := h
  exact ⟨ws, conn, hl ws conn hc, hid, hp⟩

theorem tidy_step {sys sys' : Sys} {l : Label} (h : Tidy sys) (hu : Undisturbed sys l)
    (hstep : interleaved.step sys l sys') : Tidy sys' := by
  cases steps_of_step hstep with
  | @connects ws user query hnew =>
    have hnone := OrderedDict.get?_eq_none.mpr hnew
    have hkeep : ∀ ws' conn, sys.conns.get? ws' = some conn →
        (sys.conns.set ws ⟨user, query, .waiting (.connect .storing)
          (.redisSet user.id (recordOf user query))⟩).get? ws' = some conn := by
      intro ws' conn hc
      have hne : ws' ≠ ws := by
        intro he
        rw [he, hnone] at hc
        cases hc
      rw [OrderedDict.get?_set_ne _ _ hne]
      exact hc
    refine ⟨⟨fun id hid => ?_, fun e hmem id hid => ?_, fun id hid => ?_⟩, ?_⟩
    · exact (h.placed.waiting id hid).mono hkeep
    · exact (h.placed.rooms e hmem id hid).mono hkeep
    · exact (h.placed.entered id hid).mono hkeep
    · intro ws' conn hc
      obtain ⟨_, rfl⟩ | ⟨_, hold⟩ := OrderedDict.get?_set_eq_some.mp hc
      · trivial
      · exact h.sound ws' conn hold
  | @acts ws action conn r hc hr =>
    have ht := tended_of_reacts h.placed hc (h.sound ws conn hc)
      (fun hex drift p reply id ha hs => hu.requeues ws conn hex drift p reply id (ha ▸ rfl) hc hs)
      (reacts_of_react hr)
    refine ⟨?_, fun ws' conn' hc' => ?_⟩
    · have hplaced := ht.placed
      unfold withStatus at hplaced
      rw [← OrderedDict.get?_set] at hplaced
      exact hplaced
    · obtain ⟨rfl, rfl⟩ | ⟨he, hold⟩ := get?_reacted.mp hc'
      · exact ht.sound
      · refine (h.sound ws' conn' hold).of_follows ht.follows fun hloop => ?_
        by_contra hne
        exact he (hu.rooms ws action _ rfl hstep hne ws' conn' hold hloop)
  | elapses =>
    refine ⟨h.placed.shrink (fun _ hid => hid) (fun _ he => he) fun _ hid => hid, ?_⟩
    intro ws conn hc
    exact (h.sound ws conn hc).of_follows (OrderedDict.Follows.refl _) fun _ => rfl

theorem tidy_run {clock : Clock} {ls : List Label} {sys : Sys}
    (hr : (interleaved.guard Undisturbed).Run (Sys.initial clock) ls sys) : Tidy sys := by
  have hstart : Tidy (Sys.initial clock) := by
    refine ⟨⟨?_, ?_, ?_⟩, ?_⟩
    · intro id hid
      exact absurd hid (OrderedDict.not_mem_empty id)
    · intro e hmem
      cases hmem
    · intro id hid
      exact absurd hid (Finset.notMem_empty id)
    · intro ws conn hc
      cases hc
  refine hr.invariant Tidy hstart ?_
  intro s l s' h hs
  exact tidy_step h hs.1 hs.2

/-- Once all connections of a user have ended, nothing of it is left. -/
theorem nothing_left_of_finished {clock : Clock} {ls : List Label} {sys : Sys}
    (hr : (interleaved.guard Undisturbed).Run (Sys.initial clock) ls sys) {id : UserId}
    (hfin : ∀ ws conn, sys.conns.get? ws = some conn → conn.user.id = id →
      ∃ failed, conn.status = .finished failed) :
    (∀ ws conn, sys.conns.get? ws = some conn → conn.user.id = id →
      conn.status = .finished none) ∧
    ¬ id ∈ sys.state.waitingUsers ∧ (∀ e ∈ sys.state.rooms, id ∉ e.2.userIds) ∧
      id ∉ sys.state.enteredUsers := by
  have h := tidy_run hr
  have hgone : ∀ P : Status → Prop, (∀ failed, ¬ P (.finished failed)) →
      ¬ Holds sys.conns.get? id P := by
    intro P hP hholds
    obtain ⟨ws, conn, hc, hid, hp⟩ := hholds
    obtain ⟨failed, hs⟩ := hfin ws conn hc hid
    exact hP failed (hs ▸ hp)
  refine ⟨fun ws conn hc hid => ?_, fun hw => ?_, fun e hmem hin => ?_, fun he => ?_⟩
  · obtain ⟨failed, hs⟩ := hfin ws conn hc hid
    have hsound := h.sound ws conn hc
    rw [hs] at hsound ⊢
    exact congrArg _ hsound
  · exact hgone _ (fun failed ha => ha.2 failed rfl) (h.placed.waiting id hw)
  · refine hgone _ (fun failed hwatch => ?_) (h.placed.rooms e hmem id hin)
    obtain ha | ⟨p, hp, _⟩ := hwatch
    · exact ha.2 failed rfl
    · cases hp
  · exact hgone _ (fun failed ha => ha failed rfl) (h.placed.entered id he)

/-! ### A departure after a rejection, and a departure during a rejection -/

instance : DecidablePred Status.InLoop
  | .waiting (.onExcept p) _ | .waiting (.onFinally _ p) _
  | .ready (.onExcept p) _ | .ready (.onFinally _ p) _ =>
    inferInstanceAs (Decidable (p.loop ≠ none))
  | .idle | .finished _ | .waiting (.connect _) _ | .waiting (.event _) _
  | .ready (.connect _) _ | .ready (.event _) _ => isFalse id

instance : DecidablePred Status.Anchored
  | .waiting (.onFinally _ _) _ | .ready (.onFinally _ _) _ => isFalse fun h => nomatch h.1
  | .finished failed => isFalse fun h => h.2 failed rfl
  | .idle | .waiting (.connect _) _ | .waiting (.event _) _ | .waiting (.onExcept _) _
  | .ready (.connect _) _ | .ready (.event _) _ | .ready (.onExcept _) _ =>
    isTrue ⟨rfl, fun _ h => nomatch h⟩

def Status.requeues : Status → Option UserId
  | .ready (.event p) reply => p.requeues reply
  | _ => none

def Sys.calm (sys : Sys) : Label → Bool
  | .act ws action =>
    ((sys.step (.act ws action)).all fun sys' =>
      sys'.state.matchingCandidates.version = sys.state.matchingCandidates.version ||
        sys.conns.entries.all fun e => e.1 = ws || !decide e.2.status.InLoop) &&
      sys.conns.entries.all fun e => e.2.status.requeues.all fun id =>
        sys.conns.entries.any fun e' => e'.2.user.id = id && decide e'.2.status.Anchored
  | _ => true

theorem undisturbed_of_calm (sys : Sys) (l : Label) (hl : sys.calm l = true) :
    Undisturbed sys l := by
  cases l with
  | connect ws user query => constructor <;> intros <;> contradiction
  | elapse seconds today => constructor <;> intros <;> contradiction
  | act ws action =>
    obtain ⟨hrooms, hrequeues⟩ := (Bool.and_eq_true _ _).mp hl
    constructor
    · intro ws₁ action₁ sys' he hstep hne ws' conn hc hloop
      cases he
      rw [hstep, Option.all_some, Bool.or_eq_true, decide_eq_true_eq] at hrooms
      have hall := List.all_eq_true.mp (hrooms.resolve_left hne) _ (OrderedDict.get?_eq_some.mp hc)
      simpa [hloop] using hall
    · intro ws₁ conn hex drift p reply id _ hc hs hput
      have hid : conn.status.requeues = some id := hs ▸ hput
      have hany := List.all_eq_true.mp hrequeues _ (OrderedDict.get?_eq_some.mp hc)
      rw [hid, Option.all_some, List.any_eq_true] at hany
      obtain ⟨e, hin, he⟩ := hany
      simp only [Bool.and_eq_true, decide_eq_true_eq] at he
      exact ⟨e.1, e.2, OrderedDict.get?_eq_some.mpr hin, he.1, he.2⟩

def departureAfterRejection : List Label :=
  [.connect ⟨1⟩ (.plain (.of 1)) .empty, .act ⟨1⟩ (.serve none), .act ⟨1⟩ .goesOn,
    .connect ⟨2⟩ (.plain (.of 2)) .empty] ++
  (List.replicate 6 [.serve none, .goesOn]).flatten.map (.act ⟨2⟩) ++
  [.act ⟨2⟩ (.message (.message "rejected" "room_3_2_b")), .act ⟨2⟩ (.serve none),
    .act ⟨2⟩ .goesOn, .act ⟨1⟩ .hangup, .act ⟨1⟩ (.serve none), .act ⟨1⟩ .goesOn, .act ⟨2⟩ .hangup]

theorem nothing_left_of_finished_applied :
    ∃ sys, interleaved.Run (Sys.initial .start) departureAfterRejection sys ∧
      sys.log.getLast? = some (.did ⟨2⟩ (.requeued "room_3_2_b" (.of 1) ⟨1⟩)) ∧
      ∀ id ∈ [UserId.of 1, .of 2],
        ¬ id ∈ sys.state.waitingUsers ∧ (∀ e ∈ sys.state.rooms, id ∉ e.2.userIds) ∧
          id ∉ sys.state.enteredUsers := by
  obtain ⟨sys, hsys, hlog, hconns⟩ : ∃ sys,
      Lts.exec (Lts.checked Sys.step Sys.calm) (Sys.initial .start) departureAfterRejection =
        some sys ∧
      sys.log.getLast? = some (.did ⟨2⟩ (.requeued "room_3_2_b" (.of 1) ⟨1⟩)) ∧
      sys.conns.entries = [(⟨1⟩, ⟨.plain (.of 1), .empty, .finished none⟩),
        (⟨2⟩, ⟨.plain (.of 2), .empty, .finished none⟩)] := ⟨_, rfl, rfl, rfl⟩
  have hr := Lts.guard_run_of_checked undisturbed_of_calm hsys
  refine ⟨sys, hr.of_guard, hlog, fun id _ => (nothing_left_of_finished hr ?_).2⟩
  intro ws conn hc _
  have hmem := OrderedDict.get?_eq_some.mp hc
  rw [hconns, List.mem_cons, List.mem_singleton] at hmem
  rcases hmem with he | he
  · cases he
    exact ⟨none, rfl⟩
  · cases he
    exact ⟨none, rfl⟩

/-- The second user is proposed to the first and rejects; the first closes while the handler of the
second is suspended at its send. -/
def departureDuringRejection : List Label :=
  [.connect ⟨1⟩ (.plain (.of 1)) .empty, .act ⟨1⟩ (.serve none), .act ⟨1⟩ .goesOn,
    .connect ⟨2⟩ (.plain (.of 2)) .empty] ++
  (List.replicate 6 [.serve none, .goesOn]).flatten.map (.act ⟨2⟩) ++
  [.act ⟨2⟩ (.message (.message "rejected" "room_3_2_b")), .act ⟨2⟩ (.serve none),
    .act ⟨1⟩ .hangup] ++
  (List.replicate 3 [.serve none, .goesOn]).flatten.map (.act ⟨1⟩) ++
  [.act ⟨2⟩ .goesOn]

theorem departed_user_waits :
    ¬ ∀ (clock : Clock) (ls : List Label) (sys : Sys) (id : UserId),
      interleaved.Run (Sys.initial clock) ls sys →
        (∀ ws conn, sys.conns.get? ws = some conn → conn.user.id = id →
          ∃ failed, conn.status = .finished failed) →
        (∀ ws conn, sys.conns.get? ws = some conn → conn.user.id = id →
          conn.status = .finished none) ∧
        ¬ id ∈ sys.state.waitingUsers ∧ (∀ e ∈ sys.state.rooms, id ∉ e.2.userIds) ∧
          id ∉ sys.state.enteredUsers := by
  intro h
  have hr : interleaved.Run (Sys.initial .start) departureDuringRejection _ :=
    Lts.run_of_exec (rfl : Lts.exec _ _ departureDuringRejection = some _)
  refine (h .start _ _ (.of 1) hr ?_).2.1 (by decide)
  intro ws conn hc hid
  have hmem := OrderedDict.get?_eq_some.mp hc
  obtain he | he := List.mem_cons.mp hmem
  · cases he
    exact ⟨none, rfl⟩
  · cases List.mem_singleton.mp he
    exact absurd hid (by decide)

end Nalang.Matchmaking
