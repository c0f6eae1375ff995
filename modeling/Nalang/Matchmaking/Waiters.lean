import Nalang.Matchmaking.Server

/-!
# Waiting users and their records

A waiting user is found by its record in Redis, which only its own connect
writes. The record is gone 600 seconds later, and at once when the user is
proposed to somebody; a rejection puts the user back into the queue without it.
-/

namespace Nalang.Matchmaking
open Python Transition

/-! ### What the handlers leave in Redis -/

theorem handleConnect_slot {net : Net} {hex : String} {ws : Socket} {user : User}
    {query : QueryParams} {st : State} {id : UserId} {x : CallRecord × ℕ}
    (h : (handleConnect net hex ws user query st).state.redis.slot id = some x) :
    id = user.id ∧ x.1 = recordOf user query ∨ id ≠ user.id ∧ st.redis.slot id = some x := by
  have hset : (st.setRecord user.id (recordOf user query)).redis.slot id = some x := by
    cases handleConnect_cases net hex ws user query st with
    | raises e _ ho => rwa [ho] at h
    | registers _ ho => rwa [ho] at h
    | proposes partner ws2 _ _ _ ho =>
      rw [ho] at h
      unfold propose at h
      cases h₀ : net 0 ws with
      | some e => rwa [h₀] at h
      | none =>
        cases h₁ : net 1 ws2 with
        | some e => rwa [h₀, h₁] at h
        | none =>
          rw [h₀, h₁] at h
          exact ExpiringStore.slot_of_delete (ExpiringStore.slot_of_delete h)
  exact ExpiringStore.slot_of_set hset

theorem handleReceiveEvent_redis (net : Net) (userId : UserId) (msg : Json) (st : State) :
    (handleReceiveEvent net userId msg st).state.redis = st.redis := by
  rcases handleReceiveEvent_cases net userId msg st with ⟨e, ho⟩ | ⟨event, room, data, _, _, ho⟩
  · rw [ho]
  rcases handleRoomEvent_cases net userId event room data st with
    ⟨_, hr⟩ | ⟨_, hr⟩ | ⟨_, hr⟩ | ⟨_, _, _, hr⟩
  · rw [ho, hr]
  · rw [ho, hr]
    rcases handleAccept_state net userId room data st with h | ⟨_, h⟩
    · rw [h]
    · rw [h]
  · rw [ho, hr]
    unfold handleRejected
    split
    · rfl
    · rfl
  · rw [ho, hr]

theorem handleDisconnect_slot {net : Net} {userId id : UserId} {st : State} {x : CallRecord × ℕ}
    (h : (handleDisconnect net userId st).state.redis.slot id = some x) :
    st.redis.slot id = some x := by
  have hforget : (forgetWaiting userId st).redis.slot id = some x → st.redis.slot id = some x := by
    unfold forgetWaiting
    split_ifs with hw
    · exact ExpiringStore.slot_of_delete
    · exact fun h => h
  have hloop : (disconnectLoop net userId 0 (forgetWaiting userId st).matchingCandidates.entries
      (forgetWaiting userId st)).1.redis.slot id = some x := h
  rcases disconnectLoop_state net userId 0 (forgetWaiting userId st).matchingCandidates.entries
    (forgetWaiting userId st) with hs | hs
  · rw [hs] at hloop
    exact hforget hloop
  · rw [hs] at hloop
    exact hforget (ExpiringStore.slot_of_delete hloop)

/-! ### Records and latest connections -/

def Input.record? (i : Input) (id : UserId) : Option CallRecord :=
  match i with
  | .connect _ _ _ user query => if user.id = id then some (recordOf user query) else none
  | _ => none

def latestRecord (is : List Input) (id : UserId) : Option CallRecord :=
  is.reverse.findSome? fun i => i.record? id

theorem latestRecord_snoc (is : List Input) (i : Input) (id : UserId) :
    latestRecord (is ++ [i]) id = (i.record? id).or (latestRecord is id) := by
  unfold latestRecord
  rw [List.reverse_append, List.reverse_singleton, List.singleton_append, List.findSome?_cons]
  cases i.record? id with
  | none => rfl
  | some r => rfl

def RecordsLatest (is : List Input) (sv : Server) : Prop :=
  ∀ id r expiry, sv.state.redis.slot id = some (r, expiry) → latestRecord is id = some r

theorem recordsLatest_step {is : List Input} {i : Input} {sv sv' : Server}
    (h : RecordsLatest is sv) (hstep : server.step sv i sv') : RecordsLatest (is ++ [i]) sv' := by
  obtain ⟨c, hserves⟩ := serves_of_step hstep
  intro id r expiry hslot
  rw [latestRecord_snoc]
  cases hserves with
  | @connects net hex ws user query _ phase _ hs _ =>
    rw [hs] at hslot
    rcases handleConnect_slot hslot with ⟨hid, hr⟩ | ⟨hid, hold⟩
    · have hnew : Input.record? (.connect net hex ws user query) id = some r := by
        rw [Input.record?, if_pos hid.symm, ← hr]
      rw [hnew]
      rfl
    · have hnew : Input.record? (.connect net hex ws user query) id = none :=
        if_neg (Ne.symm hid)
      rw [hnew]
      exact h id r expiry hold
  | receives _ hs _ =>
    rw [hs, handleReceiveEvent_redis] at hslot
    exact h id r expiry hslot
  | ends _ hs _ =>
    rw [hs] at hslot
    exact h id r expiry (handleDisconnect_slot hslot)
  | elapses hs _ =>
    rw [hs] at hslot
    exact h id r expiry hslot

theorem getRecord_latest {clock : Clock} {is : List Input} {sv : Server}
    (hr : server.Run (.initial clock) is sv) {id : UserId} {r : CallRecord}
    (hg : sv.state.getRecord id = some r) : latestRecord is id = some r := by
  have hlatest : RecordsLatest is sv := by
    refine hr.history RecordsLatest ?_ ?_
    · intro id r expiry hslot
      cases hslot
    · intro hs s i s' h hstep
      exact recordsLatest_step h hstep
  obtain ⟨expiry, hslot⟩ := ExpiringStore.slot_of_get hg
  exact hlatest id r expiry hslot

/-! ### Who finds a partner -/

def Compatible (today : Date) (record : CallRecord) (user : User) (query : QueryParams) : Prop :=
  isMatch today record.user query.filters = .ok true ∧
    isMatch today user.userData record.filters = .ok true

def Claims (hex : String) (ws : Socket) (user : User) (st st' : State) (partner : UserId) : Prop :=
  ∃ ws2, st.waitingUsers.get? partner = some ws2 ∧ partner ≠ user.id ∧
    st'.waitingUsers = st.waitingUsers.erase partner ∧
    st'.matchingCandidates = st.matchingCandidates.set (roomName user.id partner hex)
      ⟨[user.id, partner], [ws, ws2], ∅⟩

theorem claims_iff (net : Net) (hex : String) (ws : Socket) (user : User) (query : QueryParams)
    (st : State) (partner : UserId) :
    Claims hex ws user st (handleConnect net hex ws user query st).state partner ↔
      FindsPartner user query st partner := by
  rw [← partnerFor_eq_some]
  refine ⟨fun h => ?_, fun hp => ?_⟩
  · obtain ⟨ws2, hg, _, hw, _⟩ := h
    have hmem := OrderedDict.mem_of_get? hg
    have hgone : ¬ partner ∈ (handleConnect net hex ws user query st).state.waitingUsers := by
      rw [hw]
      simp
    cases handleConnect_cases net hex ws user query st with
    | raises e _ ho =>
      rw [ho] at hgone
      exact absurd hmem hgone
    | registers _ ho =>
      rw [ho] at hgone
      exact absurd (OrderedDict.mem_set.mpr (.inr hmem)) hgone
    | proposes partner' ws2' hp _ _ ho =>
      rw [ho, (propose_tables _ _ _ _ _ _ _).1] at hgone
      by_cases heq : partner = partner'
      · rwa [heq]
      · exact absurd (OrderedDict.mem_erase.mpr ⟨heq, hmem⟩) hgone
  · cases handleConnect_cases net hex ws user query st with
    | raises e hp' _ =>
      rw [hp] at hp'
      cases hp'
    | registers hp' _ =>
      rw [hp] at hp'
      cases hp'
    | proposes partner' ws2 hp' hne hg ho =>
      rw [hp, Except.ok.injEq, Option.some.injEq] at hp'
      subst hp'
      refine ⟨ws2, hg, hne, ?_, ?_⟩
      · rw [ho, (propose_tables _ _ _ _ _ _ _).1]
        rfl
      · rw [ho, (propose_tables _ _ _ _ _ _ _).2.1]
        rfl

theorem judge_of_record {user : User} {query : QueryParams} {st : State} {id : UserId}
    {record : CallRecord} (hne : id ≠ user.id) (hg : st.getRecord id = some record) :
    judge user query st id = .ok true ↔ Compatible st.clock.today record user query := by
  unfold judge
  rw [weigh_of_record st user.id user.userData query.filters hne hg]
  exact mutualMatch_eq_true

def MatchableWaiter (user : User) (query : QueryParams) (st : State) (id : UserId) : Prop :=
  id ∈ st.waitingUsers ∧ id ≠ user.id ∧
    ∃ record, st.getRecord id = some record ∧ Compatible st.clock.today record user query

theorem matchableWaiter_of_finds {user : User} {query : QueryParams} {st : State} {id : UserId}
    (h : FindsPartner user query st id) : MatchableWaiter user query st id := by
  obtain ⟨ws, ⟨pre, post, hes, _⟩, hj⟩ := h
  have hmem : id ∈ st.waitingUsers := OrderedDict.mem_iff_exists.mpr ⟨ws, by simp [hes]⟩
  have hnot : weigh st user.id user.userData query.filters id ≠ .ok false := by
    unfold judge at hj
    rw [hj]
    simp
  obtain ⟨hne, record, hg⟩ := weigh_ne_false st user.id user.userData query.filters hnot
  exact ⟨hmem, hne, record, hg, (judge_of_record hne hg).mp hj⟩

theorem finds_of_matchable {user : User} {query : QueryParams} {st : State} {id : UserId}
    (hs : ¬ Stumbles user query st) (h : MatchableWaiter user query st id) :
    ∃ partner, FindsPartner user query st partner := by
  obtain ⟨hmem, hne, record, hg, hc⟩ := h
  rw [← partnerFor_eq_error] at hs
  rcases hp : partnerFor user query st with e | m
  · exact absurd ⟨e, hp⟩ hs
  cases m with
  | some partner => exact ⟨partner, partnerFor_eq_some.mp hp⟩
  | none =>
    obtain ⟨ws, hentry⟩ := OrderedDict.mem_iff_exists.mp hmem
    have hall := findPartner_none (partnerFor_eq user query st ▸ hp) (id, ws) hentry
    have hj := (judge_of_record hne hg).mpr hc
    unfold judge at hj
    rw [hall] at hj
    simp at hj

theorem not_stumbles_of_finds {user : User} {query : QueryParams} {st : State} {id : UserId}
    (h : FindsPartner user query st id) : ¬ Stumbles user query st := by
  rw [← partnerFor_eq_some] at h
  rw [← partnerFor_eq_error, h]
  simp

/-! ### Waiting users who are not missed -/

/-- Somebody compatible by the data of its latest connection is claimed, and not both users are left
in the queue. -/
def MatchesWaiter (is : List Input) (hex : String) (ws : Socket) (user : User) (query : QueryParams)
    (waiter : UserId) (st st' : State) : Prop :=
  (∃ partner record, Claims hex ws user st st' partner ∧ latestRecord is partner = some record ∧
      Compatible st.clock.today record user query) ∧
    ¬ (waiter ∈ st'.waitingUsers ∧ user.id ∈ st'.waitingUsers)

/-- A connect matches a waiting user it is compatible with, or another one, exactly when no filter
makes the loop raise, the record of the one or the other is still there, and the user that connects
is not in the queue itself or takes just this waiting user. -/
theorem waiter_matched_iff {clock : Clock} {is : List Input} {sv : Server} {waiter : UserId}
    {record : CallRecord} {user : User} {query : QueryParams} (net : Net) (hex : String)
    (ws : Socket) (hr : server.Run (.initial clock) is sv)
    (hw : waiter ∈ sv.state.waitingUsers) (hne : waiter ≠ user.id)
    (hl : latestRecord is waiter = some record)
    (hc : Compatible sv.state.clock.today record user query) :
    MatchesWaiter is hex ws user query waiter sv.state
        (handleConnect net hex ws user query sv.state).state ↔
      ¬ Stumbles user query sv.state ∧
        (sv.state.getRecord waiter ≠ none ∨ ∃ id, MatchableWaiter user query sv.state id) ∧
        (user.id ∉ sv.state.waitingUsers ∨ FindsPartner user query sv.state waiter) := by
  refine ⟨fun h => ?_, fun h => ?_⟩
  · obtain ⟨⟨partner, _, hclaims, _⟩, hboth⟩ := h
    have hf := (claims_iff net hex ws user query sv.state partner).mp hclaims
    refine ⟨not_stumbles_of_finds hf, .inr ⟨partner, matchableWaiter_of_finds hf⟩, ?_⟩
    by_cases hself : user.id ∈ sv.state.waitingUsers
    · -- the entry of the user itself stays, so the waiting user is the one that is claimed
      obtain ⟨ws2, _, hpu, hw', _⟩ := hclaims
      rw [hw', OrderedDict.mem_erase, OrderedDict.mem_erase] at hboth
      by_cases hwp : waiter = partner
      · exact .inr (hwp ▸ hf)
      · exact absurd ⟨⟨hwp, hw⟩, Ne.symm hpu, hself⟩ hboth
    · exact .inl hself
  · obtain ⟨hquiet, hlive, hself⟩ := h
    have hmatchable : ∃ id, MatchableWaiter user query sv.state id := by
      rcases hlive with hlive | hother
      · obtain ⟨r, hg⟩ := Option.ne_none_iff_exists'.mp hlive
        have hsame : r = record := by
          rw [getRecord_latest hr hg, Option.some.injEq] at hl
          exact hl
        exact ⟨waiter, hw, hne, r, hg, hsame ▸ hc⟩
      · exact hother
    obtain ⟨id, hid⟩ := hmatchable
    obtain ⟨partner, hf⟩ := finds_of_matchable hquiet hid
    have hclaims := (claims_iff net hex ws user query sv.state partner).mpr hf
    obtain ⟨_, _, r, hg, hcompat⟩ := matchableWaiter_of_finds hf
    refine ⟨⟨partner, r, hclaims, getRecord_latest hr hg, hcompat⟩, fun hboth => ?_⟩
    obtain ⟨ws2, _, _, hw', _⟩ := hclaims
    rw [hw', OrderedDict.mem_erase, OrderedDict.mem_erase] at hboth
    rcases hself with hself | hself
    · exact hself hboth.2.2
    · rw [← partnerFor_eq_some] at hf hself
      rw [hf, Except.ok.injEq, Option.some.injEq] at hself
      exact hboth.1.1 hself.symm

def requeuedInputs : List Input :=
  [.connect .up "a" ⟨1⟩ (.plain (.of 1)) .empty, .connect .up "b" ⟨2⟩ (.plain (.of 2)) .empty,
    .message .up ⟨2⟩ (.message "rejected" "room_3_2_b")]

theorem compatible_plain (today : Date) (id id' : UserId) :
    Compatible today (recordOf (.plain id) .empty) (.plain id') .empty := ⟨rfl, rfl⟩

theorem waiter_matched_iff_applied :
    ∃ sv, server.Run (.initial .start) requeuedInputs sv ∧
      ¬ MatchesWaiter requeuedInputs "c" ⟨3⟩ (.plain (.of 3)) .empty (.of 1) sv.state
        (handleConnect .up "c" ⟨3⟩ (.plain (.of 3)) .empty sv.state).state := by
  obtain ⟨sv, hsv⟩ : ∃ sv, Lts.exec Server.step (.initial .start) requeuedInputs = some sv :=
    ⟨_, rfl⟩
  have hr : server.Run (.initial .start) requeuedInputs sv := Lts.run_of_exec hsv
  have hgone : sv.state.getRecord (.of 1) = none := by
    cases hsv
    rfl
  have hkeys : sv.state.waitingUsers.keys = [.of 1] := by
    cases hsv
    rfl
  have hw : UserId.of 1 ∈ sv.state.waitingUsers := by
    rw [OrderedDict.mem_def, hkeys]
    exact List.mem_cons_self
  refine ⟨sv, hr, fun h => ?_⟩
  obtain ⟨_, hlive, _⟩ := (waiter_matched_iff .up "c" ⟨3⟩ hr hw (by decide) rfl
    (compatible_plain _ _ _)).mp h
  rcases hlive with hlive | ⟨id, hid, _, record, hg, _⟩
  · exact hlive hgone
  · rw [OrderedDict.mem_def, hkeys, List.mem_singleton] at hid
    rw [hid, hgone] at hg
    cases hg

theorem requeued_waiter_missed :
    ¬ ∀ (clock : Clock) (is : List Input) (sv : Server) (waiter : UserId) (s : Socket)
      (record : CallRecord) (user : User) (query : QueryParams) (net : Net) (hex : String)
      (ws : Socket), server.Run (.initial clock) is sv → waiter ∈ sv.state.waitingUsers →
        sv.Open s waiter → ¬ ws ∈ sv.connections → waiter ≠ user.id →
          latestRecord is waiter = some record →
            Compatible sv.state.clock.today record user query →
              MatchesWaiter is hex ws user query waiter sv.state
                (handleConnect net hex ws user query sv.state).state := by
  intro h
  obtain ⟨sv, hsv⟩ : ∃ sv, Lts.exec Server.step (.initial .start) requeuedInputs = some sv :=
    ⟨_, rfl⟩
  have hmatched := h .start requeuedInputs sv (.of 1) ⟨1⟩ (recordOf (.plain (.of 1)) .empty)
    (.plain (.of 3)) .empty .up "c" ⟨3⟩ (Lts.run_of_exec hsv)
  cases hsv
  have hboth := (hmatched (by decide) ⟨⟨.plain (.of 1), .live⟩, rfl, rfl⟩ (by decide) (by decide) rfl
    (compatible_plain _ _ _)).2
  exact hboth ⟨by decide, by decide⟩

end Nalang.Matchmaking
