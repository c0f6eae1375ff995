import Nalang.Matchmaking.Pairing

/-!
# A partner whose socket is dead

`handle_connect` takes the partner out of the queue and stores the room before it
sends the two proposals, and nothing catches what a send raises.
-/

namespace Nalang.Matchmaking
open Python

structure SoleRoom (userId : UserId) (o : Outcome) (room : String) (data : MatchCandidate) :
    Prop where
  mem : (room, data) ∈ o.state.rooms
  member : userId ∈ data.userIds
  sole : ∀ e ∈ o.state.rooms, userId ∈ e.2.userIds → e.1 = room
  accepted : ∃ partner sock, partner ≠ userId ∧ (partner, sock) ∈ data.userIds.zip data.sockets ∧
    ⟨sock, .matchProposal room userId, none⟩ ∈ o.sent

structure Served (userId : UserId) (o : Outcome) : Prop where
  raised : o.raised = none
  placed : userId ∈ o.state.waitingUsers ∨ ∃ room data, SoleRoom userId o room data
  delivered : ∀ e ∈ o.state.rooms, ∀ m ∈ o.sent, ∀ other,
    m.event = .matchProposal e.1 other → m.failure = none

/-- The user is queued already, or is in no other room than the one to come. -/
def Unplaced (userId : UserId) (room : String) (st : State) : Prop :=
  userId ∈ st.waitingUsers ∨ ∀ e ∈ st.rooms, userId ∈ e.2.userIds → e.1 = room

section Served
variable {net : Net} {hex : String} {ws : Socket} {user : User} {query : QueryParams} {st : State}

theorem served_of_register : Served user.id
    ⟨register (st.setRecord user.id (recordOf user query)) user.id ws, [], none⟩ where
  raised := rfl
  placed := .inl (OrderedDict.mem_set.mpr (.inl rfl))
  delivered _ _ _ hm := absurd hm List.not_mem_nil

theorem propose_of_up {partner : UserId} {ws2 : Socket} (room : String) (hws : net 0 ws = none)
    (hdeliver : net 1 ws2 = none) :
    propose net st user.id ws partner ws2 room =
      ⟨(st.deleteRecord user.id).deleteRecord partner,
        [⟨ws, .matchProposal room partner, none⟩, ⟨ws2, .matchProposal room user.id, none⟩],
        none⟩ := by
  simp only [propose, hws, hdeliver]

theorem propose_of_dead {partner : UserId} {ws2 : Socket} {e : PyError} (room : String)
    (hws : net 0 ws = none) (hdead : net 1 ws2 = some e) :
    (propose net st user.id ws partner ws2 room).raised = some e := by
  simp only [propose, hws, hdead]

theorem served_claim_iff {partner : UserId} {ws2 : Socket} {room : String} (hne : partner ≠ user.id)
    (hws : net 0 ws = none) (hdeliver : net 1 ws2 = none) :
    Served user.id (propose net
        (claim (st.setRecord user.id (recordOf user query)) user.id ws partner ws2 room)
        user.id ws partner ws2 room) ↔ Unplaced user.id room st := by
  rw [propose_of_up room hws hdeliver]
  have hself : (room, (⟨[user.id, partner], [ws, ws2], ∅⟩ : MatchCandidate)) ∈
      (st.matchingCandidates.set room ⟨[user.id, partner], [ws, ws2], ∅⟩).entries :=
    OrderedDict.mem_entries_set.mpr (.inl rfl)
  constructor
  · intro h
    rcases h.placed with hwait | ⟨room', data, hsole⟩
    · exact .inl (OrderedDict.mem_erase.mp hwait).2
    · refine .inr fun e he hu => ?_
      by_contra hroom
      -- the new room and this one are two
      have hold := hsole.sole e (OrderedDict.mem_entries_set.mpr (.inr ⟨he, hroom⟩)) hu
      have hnew := hsole.sole _ hself (List.mem_cons_self ..)
      exact hroom (hold.trans hnew.symm)
  · intro h
    refine ⟨rfl, ?_, ?_⟩
    · rcases h with hwait | hrooms
      · exact .inl (OrderedDict.mem_erase.mpr ⟨hne.symm, hwait⟩)
      · refine .inr ⟨room, ⟨[user.id, partner], [ws, ws2], ∅⟩, hself, List.mem_cons_self .., ?_, ?_⟩
        · intro e he hu
          rcases OrderedDict.mem_entries_set.mp he with rfl | ⟨he, _⟩
          · rfl
          · exact hrooms e he hu
        · refine ⟨partner, ws2, hne, ?_, ?_⟩
          · simp
          · simp
    · intro e _ m hm other _
      simp only [List.mem_cons, List.not_mem_nil, or_false] at hm
      rcases hm with rfl | rfl
      · rfl
      · rfl

theorem not_stumbles {found : Option UserId} (h : partnerFor user query st = .ok found) :
    ¬ Stumbles user query st := by
  intro hstumbles
  obtain ⟨e, he⟩ := partnerFor_eq_error.mpr hstumbles
  rw [h] at he
  cases he

/-- A newcomer whose own socket works is served exactly when no waiting user that the loop reaches
makes it raise, and the partner it finds, if any, has a socket that takes the proposal. -/
theorem served_iff (hws : ∀ n, net n ws = none) :
    Served user.id (handleConnect net hex ws user query st) ↔
      ¬ Stumbles user query st ∧
        ∀ partner ws2, FindsPartner user query st partner →
          st.waitingUsers.get? partner = some ws2 →
          net 1 ws2 = none ∧ Unplaced user.id (roomName user.id partner hex) st := by
  cases handleConnect_cases net hex ws user query st with
  | raises e hp ho =>
    rw [ho]
    refine iff_of_false (fun h => ?_) fun h => h.1 (partnerFor_eq_error.mp ⟨e, hp⟩)
    cases h.raised
  | registers hp ho =>
    rw [ho]
    refine iff_of_true served_of_register ⟨not_stumbles hp, fun partner ws2 hfinds _ => ?_⟩
    rw [partnerFor_eq_some.mpr hfinds] at hp
    cases hp
  | proposes partner ws2 hp hne hw ho =>
    rw [ho]
    have hfinds : FindsPartner user query st partner := partnerFor_eq_some.mp hp
    cases hdeliver : net 1 ws2 with
    | some e =>
      refine iff_of_false (fun h => ?_) fun h => ?_
      · have hraised := h.raised
        rw [propose_of_dead _ (hws 0) hdeliver] at hraised
        cases hraised
      · rw [(h.2 partner ws2 hfinds hw).1] at hdeliver
        cases hdeliver
    | none =>
      rw [served_claim_iff hne (hws 0) hdeliver]
      constructor
      · intro h
        refine ⟨not_stumbles hp, fun partner' ws2' hfinds' hw' => ?_⟩
        -- the loop finds one partner only
        have hsame : partner' = partner := by
          have hp' := partnerFor_eq_some.mpr hfinds'
          rw [hp, Except.ok.injEq, Option.some.injEq] at hp'
          exact hp'.symm
        subst hsame
        rw [hw, Option.some.injEq] at hw'
        subst hw'
        exact ⟨hdeliver, h⟩
      · intro h
        exact (h.2 partner ws2 hfinds hw).2

end Served

/-! ### One waiting user, with a working socket and with a dead one -/

def firstWaits : State :=
  (handleConnect .up "a" ⟨1⟩ (.plain (.of 1)) .empty (.initial .start)).state

def Net.without (dead : Socket) : Net := fun _ sock =>
  if sock = dead then some .webSocketDisconnect else none

theorem served_iff_firstWaits :
    Served (.of 2) (handleConnect .up "b" ⟨2⟩ (.plain (.of 2)) .empty firstWaits) ∧
      ¬ Served (.of 2)
        (handleConnect (.without ⟨1⟩) "b" ⟨2⟩ (.plain (.of 2)) .empty firstWaits) := by
  have hfound : partnerFor (.plain (.of 2)) .empty firstWaits = .ok (some (.of 1)) := rfl
  constructor
  · refine (@served_iff _ _ _ (.plain (.of 2)) _ _ fun _ => rfl).mpr ⟨not_stumbles hfound, ?_⟩
    intro partner ws2 _ _
    exact ⟨rfl, .inr fun e he => absurd he List.not_mem_nil⟩
  · intro h
    have hworks := ((@served_iff _ _ _ (.plain (.of 2)) _ _ fun _ => by simp [Net.without]).mp h).2
      (.of 1) ⟨1⟩ (partnerFor_eq_some.mp hfound) rfl
    exact absurd hworks.1 (by simp [Net.without])

theorem dead_partner_raises :
    ¬ ∀ (net : Net) (hex : String) (ws : Socket) (user : User) (query : QueryParams) (st : State),
      (∀ n, net n ws = none) → Served user.id (handleConnect net hex ws user query st) := by
  intro h
  have hserved := h (.without ⟨1⟩) "b" ⟨2⟩ (.plain (.of 2)) .empty firstWaits fun _ => by
    simp [Net.without]
  have hraised : (handleConnect (.without ⟨1⟩) "b" ⟨2⟩ (.plain (.of 2)) .empty firstWaits).raised =
      some .webSocketDisconnect := rfl
  rw [hserved.raised] at hraised
  cases hraised

end Nalang.Matchmaking
