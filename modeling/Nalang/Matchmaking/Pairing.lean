import Nalang.Matchmaking.FilterErrors

/-!
# What a connect does to the tables

A connect whose sends succeed takes the first waiting user that matches in both
directions, in the order of the queue, or else registers its own user. Whatever is
not named stays as it was.
-/

namespace Nalang.Matchmaking
open Python

def Suits (user : User) (query : QueryParams) (st : State) (otherId : UserId) : Prop :=
  otherId ≠ user.id ∧ ∃ record, st.getRecord otherId = some record ∧
    isMatch st.clock.today record.user query.filters = .ok true ∧
      isMatch st.clock.today user.userData record.filters = .ok true

theorem judge_eq_true {user : User} {query : QueryParams} {st : State} {otherId : UserId} :
    judge user query st otherId = .ok true ↔ Suits user query st otherId := by
  unfold judge weigh Suits
  split_ifs with hu
  · simp [hu]
  · cases hr : st.getRecord otherId with
    | none => simp
    | some record => simp [mutualMatch_eq_true, hu]

structure Paired (user : User) (ws : Socket) (st : State) (partner : UserId) (ws2 : Socket)
    (room : String) (o : Outcome) : Prop where
  waitingUsers : o.state.waitingUsers = st.waitingUsers.erase partner
  rooms : o.state.rooms = st.rooms ++ [(room, ⟨[user.id, partner], [ws, ws2], ∅⟩)]
  enteredUsers : o.state.enteredUsers = st.enteredUsers
  records : ∀ id, o.state.redis.slot id =
    if id = user.id ∨ id = partner then none else st.redis.slot id
  clock : o.state.clock = st.clock
  sent : o.sent = [⟨ws, .matchProposal room partner, none⟩, ⟨ws2, .matchProposal room user.id, none⟩]
  raised : o.raised = none

structure Queued (user : User) (query : QueryParams) (ws : Socket) (st : State) (o : Outcome) :
    Prop where
  waitingUsers : o.state.waitingUsers = st.waitingUsers.set user.id ws
  matchingCandidates : o.state.matchingCandidates = st.matchingCandidates
  enteredUsers : o.state.enteredUsers = st.enteredUsers
  records : ∀ id, o.state.redis.slot id =
    if id = user.id then some (recordOf user query, st.clock.now + 600) else st.redis.slot id
  clock : o.state.clock = st.clock
  sent : o.sent = []
  raised : o.raised = none

section Outcomes
variable {net : Net} {hex : String} {ws : Socket} {user : User} {query : QueryParams} {st : State}

theorem paired_of_propose (hnet : ∀ n sock, net n sock = none) {partner : UserId} {ws2 : Socket}
    {room : String} (hfresh : ¬ room ∈ st.matchingCandidates) :
    Paired user ws st partner ws2 room (propose net
      (claim (st.setRecord user.id (recordOf user query)) user.id ws partner ws2 room)
      user.id ws partner ws2 room) := by
  have hp : propose net
      (claim (st.setRecord user.id (recordOf user query)) user.id ws partner ws2 room)
      user.id ws partner ws2 room =
      ⟨((claim (st.setRecord user.id (recordOf user query)) user.id ws partner ws2
          room).deleteRecord user.id).deleteRecord partner,
        [⟨ws, .matchProposal room partner, none⟩, ⟨ws2, .matchProposal room user.id, none⟩],
        none⟩ := by
    simp [propose, hnet]
  rw [hp]
  constructor
  case waitingUsers => rfl
  case rooms => exact OrderedDict.entries_set_of_not_mem hfresh _
  case enteredUsers => rfl
  case records =>
    intro id
    simp only [State.deleteRecord, claim, State.setRecord, ExpiringStore.delete, ExpiringStore.set,
      Function.update_apply]
    split_ifs with hpartner huser hboth hboth <;> simp_all
  case clock => rfl
  case sent => rfl
  case raised => rfl

theorem queued_of_register : Queued user query ws st
    ⟨register (st.setRecord user.id (recordOf user query)) user.id ws, [], none⟩ where
  waitingUsers := rfl
  matchingCandidates := rfl
  enteredUsers := rfl
  records _ := Function.update_apply _ _ _ _
  clock := rfl
  sent := rfl
  raised := rfl

/-- Either the first waiting user that suits becomes the partner, or nobody suits and the newcomer
waits. -/
theorem handleConnect_pairs (hnet : ∀ n sock, net n sock = none) (hq : query.filters.WellFormed)
    (hr : ∀ id record, st.getRecord id = some record → record.filters.WellFormed)
    (hfresh : ∀ partner, ¬ roomName user.id partner hex ∈ st.matchingCandidates) :
    (∃ pre partner ws2 post, st.waitingUsers.entries = pre ++ (partner, ws2) :: post ∧
      Suits user query st partner ∧ (∀ e ∈ pre, ¬ Suits user query st e.1) ∧
      Paired user ws st partner ws2 (roomName user.id partner hex)
        (handleConnect net hex ws user query st)) ∨
    (∀ e ∈ st.waitingUsers.entries, ¬ Suits user query st e.1) ∧
      Queued user query ws st (handleConnect net hex ws user query st) := by
  have hnot : ∀ {id}, judge user query st id = .ok false → ¬ Suits user query st id := by
    intro id hj hs
    rw [judge_eq_true.mpr hs] at hj
    cases hj
  cases handleConnect_cases net hex ws user query st with
  | raises e hp ho =>
    obtain ⟨entry, x, _, hj⟩ := partnerFor_eq_error.mp ⟨e, hp⟩
    have hwell : ¬ Malformed st entry.1 := by
      unfold Malformed
      cases hg : st.getRecord entry.1 with
      | none => exact id
      | some record => exact not_not_intro (hr _ record hg)
    obtain ⟨b, hb⟩ : ∃ b, judge user query st entry.1 = .ok b := judge_of_wellFormed hq hwell
    rw [hb] at hj
    cases hj
  | registers hp ho =>
    rw [partnerFor_eq] at hp
    refine .inr ⟨fun e he => hnot (findPartner_none hp e he), ?_⟩
    rw [ho]
    exact queued_of_register
  | proposes partner ws2 hp hne hw ho =>
    obtain ⟨ws', ⟨pre, post, hes, hpre⟩, hj⟩ := partnerFor_eq_some.mp hp
    have hsame : ws' = ws2 := by
      have hget : st.waitingUsers.get? partner = some ws' :=
        OrderedDict.get?_eq_some.mpr (by simp [hes])
      rw [hw, Option.some.injEq] at hget
      exact hget.symm
    rw [hsame] at hes
    refine .inl ⟨pre, partner, ws2, post, hes, judge_eq_true.mp hj,
      fun e he => hnot (hpre e he), ?_⟩
    rw [ho]
    exact paired_of_propose hnet (hfresh partner)

end Outcomes

/-! ### A queue with two users that suit -/

def twoWaiting : State :=
  let st := ((State.initial .start).setRecord (.of 1) (recordOf (.plain (.of 1)) .empty)).setRecord
    (.of 2) (recordOf (.plain (.of 2)) .empty)
  { st with waitingUsers := (OrderedDict.empty.set (.of 1) ⟨1⟩).set (.of 2) ⟨2⟩ }

theorem twoWaiting_record {id : UserId} {record : CallRecord}
    (h : twoWaiting.getRecord id = some record) : record.filters = QueryParams.empty.filters := by
  obtain ⟨expiry, hslot⟩ := ExpiringStore.slot_of_get h
  rcases ExpiringStore.slot_of_set hslot with ⟨_, rfl⟩ | ⟨_, hslot⟩
  · rfl
  · rcases ExpiringStore.slot_of_set hslot with ⟨_, rfl⟩ | ⟨_, hslot⟩
    · rfl
    · cases hslot

theorem handleConnect_pairs_applied : ∃ partner ws2,
    Paired (.plain (.of 3)) ⟨3⟩ twoWaiting partner ws2 (roomName (.of 3) partner "a")
      (handleConnect .up "a" ⟨3⟩ (.plain (.of 3)) .empty twoWaiting) := by
  have hsuits : Suits (.plain (.of 3)) .empty twoWaiting (.of 1) := judge_eq_true.mp rfl
  have hwell : QueryParams.empty.filters.WellFormed := by decide
  rcases @handleConnect_pairs .up "a" ⟨3⟩ (.plain (.of 3)) .empty twoWaiting (fun _ _ => rfl) hwell
    (fun id record h => twoWaiting_record h ▸ hwell)
    (fun partner => OrderedDict.not_mem_empty _) with ⟨_, partner, ws2, _, _, _, _, h⟩ | ⟨hnone, _⟩
  · exact ⟨partner, ws2, h⟩
  · exact absurd hsuits (hnone (.of 1, ⟨1⟩) (by decide))

end Nalang.Matchmaking
