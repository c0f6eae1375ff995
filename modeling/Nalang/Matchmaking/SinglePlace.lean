import Nalang.Matchmaking.Calls

/-!
# At most one place for a user

A user is placed by its key in `waiting_users` and by every room that lists its
id. Only a connect can place a user twice, and it does so exactly when the user
is already placed and the connect does not just renew the waiting entry.
-/

namespace Nalang.Matchmaking
open Python Transition

def roomIds (rooms : List (String × MatchCandidate)) : List UserId :=
  rooms.flatMap fun e => e.2.userIds

def State.placed (st : State) : List UserId := st.waitingUsers.keys ++ roomIds st.rooms

def SinglePlace (st : State) : Prop := st.placed.Nodup

instance (st : State) : Decidable (SinglePlace st) := inferInstanceAs (Decidable st.placed.Nodup)

theorem mem_roomIds {rooms : List (String × MatchCandidate)} {id : UserId} :
    id ∈ roomIds rooms ↔ ∃ e ∈ rooms, id ∈ e.2.userIds := List.mem_flatMap

theorem singlePlace_iff {st : State} : SinglePlace st ↔
    (roomIds st.rooms).Nodup ∧ ∀ id ∈ st.waitingUsers, id ∉ roomIds st.rooms := by
  have hk : st.waitingUsers.keys.Nodup := st.waitingUsers.nodup
  unfold SinglePlace State.placed
  rw [List.nodup_append]
  refine ⟨fun h => ⟨h.2.1, fun id hid hr => h.2.2 id hid id hr rfl⟩, fun h => ⟨hk, h.1, ?_⟩⟩
  intro a ha b hb hab
  exact h.2 a ha (hab ▸ hb)

theorem singlePlace_of_sublist {st st' : State} (h : SinglePlace st)
    (hr : (roomIds st'.rooms).Sublist (roomIds st.rooms))
    (hw : ∀ id ∈ st'.waitingUsers, id ∈ st.waitingUsers) : SinglePlace st' := by
  obtain ⟨hn, hd⟩ := singlePlace_iff.mp h
  exact singlePlace_iff.mpr ⟨hn.sublist hr, fun id hid hmem => hd id (hw id hid) (hr.subset hmem)⟩

theorem roomIds_filter_sublist (p : String × MatchCandidate → Bool)
    (rooms : List (String × MatchCandidate)) :
    (roomIds (rooms.filter p)).Sublist (roomIds rooms) := by
  induction rooms with
  | nil => exact List.Sublist.slnil
  | cons e rooms ih =>
    by_cases he : p e
    · simpa [roomIds, List.filter_cons, he] using ih
    · simpa [roomIds, List.filter_cons, he] using ih.trans (List.sublist_append_right _ _)

theorem roomIds_set_accepted {st : State} {room : String} {data : MatchCandidate}
    (hg : st.matchingCandidates.get? room = some data) (accepted : Finset UserId) :
    roomIds (st.matchingCandidates.set room { data with accepted := accepted }).entries =
      roomIds st.rooms := by
  have hmem := OrderedDict.get?_eq_some.mp hg
  rw [OrderedDict.entries_set_of_mem (OrderedDict.mem_of_get? hg), roomIds, List.flatMap_map]
  refine List.flatMap_congr fun e he => ?_
  by_cases hr : e.1 = room
  · have hed : e = (room, data) := List.inj_on_of_nodup_map st.matchingCandidates.nodup he hmem hr
    subst hed
    simp [OrderedDict.writeEntry]
  · simp [OrderedDict.writeEntry, hr]

theorem singlePlace_accepts {st st' : State} {room : String} {data : MatchCandidate}
    {accepted : Finset UserId} (h : SinglePlace st)
    (hg : st.matchingCandidates.get? room = some data)
    (hw : st'.waitingUsers = st.waitingUsers)
    (hm : st'.matchingCandidates = st.matchingCandidates.set room
        { data with accepted := accepted } ∨
      st'.matchingCandidates = (st.matchingCandidates.set room
        { data with accepted := accepted }).erase room) : SinglePlace st' := by
  have hset := roomIds_set_accepted hg accepted
  refine singlePlace_of_sublist h ?_ fun id hid => by rwa [hw] at hid
  rcases hm with hm | hm
  · rw [State.rooms, hm, hset]
  · rw [State.rooms, hm, OrderedDict.entries_erase, ← hset]
    exact roomIds_filter_sublist _ _

theorem singlePlace_rejects {st st' : State} {net : Net} {userId : UserId} {room : String}
    {data : MatchCandidate} (h : SinglePlace st)
    (hg : st.matchingCandidates.get? room = some data)
    (hw : st'.waitingUsers =
      (rejectLoop net userId data.sockets 0 0 data.userIds st.waitingUsers).1)
    (hm : st'.matchingCandidates = st.matchingCandidates.erase room) : SinglePlace st' := by
  obtain ⟨hn, hd⟩ := singlePlace_iff.mp h
  have hperm : (roomIds st.rooms).Perm (data.userIds ++ roomIds st'.rooms) := by
    have hp := OrderedDict.entries_perm_cons_erase (OrderedDict.get?_eq_some.mp hg)
    rw [State.rooms, State.rooms, hm]
    simpa [roomIds] using hp.flatMap_right fun e => e.2.userIds
  have hn' := List.nodup_append.mp (hperm.nodup_iff.mp hn)
  refine singlePlace_iff.mpr ⟨hn'.2.1, fun id hid hr => ?_⟩
  rw [hw] at hid
  obtain ⟨sock, he⟩ := OrderedDict.mem_iff_exists.mp hid
  rcases rejectLoop_waiting net userId data.sockets 0 0 data.userIds st.waitingUsers he with
    hold | ⟨_, i, hi, _⟩
  · exact hd id (OrderedDict.mem_iff_exists.mpr ⟨sock, hold⟩)
      (hperm.mem_iff.mpr (List.mem_append_right _ hr))
  · exact hn'.2.2 id (List.mem_of_getElem? hi) id hr rfl

/-! ### The connects that keep users in one place -/

/-- Either the loop raises, or the user is in no room and, if it is already waiting, finds no
partner. -/
def KeepsPlaces (st : State) : Call → Prop
  | .connect _ _ _ user query =>
    Stumbles user query st ∨
      user.id ∉ roomIds st.rooms ∧
        (user.id ∈ st.waitingUsers → ∀ partner, ¬ FindsPartner user query st partner)
  | _ => True

theorem singlePlace_registers {st st' : State} {userId : UserId} {ws : Socket} (h : SinglePlace st)
    (hw : st'.waitingUsers = st.waitingUsers.set userId ws)
    (hm : st'.matchingCandidates = st.matchingCandidates) :
    SinglePlace st' ↔ userId ∉ roomIds st.rooms := by
  obtain ⟨hn, hd⟩ := singlePlace_iff.mp h
  rw [singlePlace_iff, State.rooms, hm, hw]
  refine ⟨fun h' => h'.2 userId (OrderedDict.mem_set.mpr (.inl rfl)), fun hu => ⟨hn, ?_⟩⟩
  intro id hid
  rcases OrderedDict.mem_set.mp hid with rfl | hid
  · exact hu
  · exact hd id hid

theorem singlePlace_claims {st st' : State} {userId partner : UserId} {ws ws2 : Socket}
    {hex : String} (hs : RoomsShaped st) (h : SinglePlace st) (hne : partner ≠ userId)
    (hg : st.waitingUsers.get? partner = some ws2)
    (hw : st'.waitingUsers = st.waitingUsers.erase partner)
    (hm : st'.matchingCandidates = st.matchingCandidates.set (roomName userId partner hex)
      ⟨[userId, partner], [ws, ws2], ∅⟩) :
    SinglePlace st' ↔ userId ∉ roomIds st.rooms ∧ userId ∉ st.waitingUsers := by
  obtain ⟨hn, hd⟩ := singlePlace_iff.mp h
  have hpw : partner ∈ st.waitingUsers := OrderedDict.mem_of_get? hg
  have hpr : partner ∉ roomIds st.rooms := hd partner hpw
  let kept := roomIds (st.matchingCandidates.erase (roomName userId partner hex)).entries
  have hsub : kept.Sublist (roomIds st.rooms) := roomIds_filter_sublist _ _
  have hperm : (roomIds st'.rooms).Perm (userId :: partner :: kept) := by
    have hp := OrderedDict.entries_set_perm st.matchingCandidates (roomName userId partner hex)
      ⟨[userId, partner], [ws, ws2], ∅⟩
    rw [State.rooms, hm]
    simpa [roomIds, kept] using hp.flatMap_right fun e => e.2.userIds
  -- a room of the same name would hold the partner, who is waiting
  have hkept : userId ∈ roomIds st.rooms → userId ∈ kept := by
    intro hu
    obtain ⟨e, he, hue⟩ := mem_roomIds.mp hu
    refine mem_roomIds.mpr ⟨e, OrderedDict.mem_entries_erase.mpr ⟨he, fun hname => ?_⟩, hue⟩
    obtain ⟨u, v, s, t, hex', _, hroom, hids, _⟩ := hs e he
    obtain ⟨_, hv⟩ := roomName_inj (hroom.symm.trans hname)
    refine hpr (mem_roomIds.mpr ⟨e, he, ?_⟩)
    rw [hids, ← hv]
    simp
  rw [singlePlace_iff, hperm.nodup_iff, hw]
  refine ⟨fun h' => ⟨fun hu => ?_, fun hu => ?_⟩, fun hu => ⟨?_, fun id hid hr => ?_⟩⟩
  · have hnot := (List.nodup_cons.mp h'.1).1
    exact hnot (List.mem_cons_of_mem _ (hkept hu))
  · refine h'.2 userId (OrderedDict.mem_erase.mpr ⟨hne.symm, hu⟩) (hperm.mem_iff.mpr ?_)
    exact List.mem_cons_self
  · refine List.nodup_cons.mpr
      ⟨?_, List.nodup_cons.mpr ⟨fun hp => hpr (hsub.subset hp), hn.sublist hsub⟩⟩
    intro hmem
    rcases List.mem_cons.mp hmem with heq | hk
    · exact hne heq.symm
    · exact hu.1 (hsub.subset hk)
  · obtain ⟨hidp, hidw⟩ := OrderedDict.mem_erase.mp hid
    rcases List.mem_cons.mp (hperm.mem_iff.mp hr) with rfl | hr
    · exact hu.2 hidw
    rcases List.mem_cons.mp hr with rfl | hr
    · exact hidp rfl
    · exact hd id hidw (hsub.subset hr)

theorem singlePlace_step {st st' : State} {c : Call} (hs : RoomsShaped st) (h : SinglePlace st)
    (hstep : calls.step st c st') : SinglePlace st' ↔ KeepsPlaces st c := by
  cases change_of_step hs hstep with
  | same hw hm _ hc =>
    have hst' : SinglePlace st' := by
      refine singlePlace_of_sublist h ?_ fun id hid => by rwa [hw] at hid
      rw [State.rooms, hm]
      exact List.Sublist.refl _
    refine iff_of_true hst' ?_
    cases c with
    | connect net hex ws user query =>
      exact .inl (partnerFor_eq_error.mp (hc net hex ws user query rfl))
    | receive net userId msg => trivial
    | disconnect net userId => trivial
    | elapse seconds today => trivial
  | @registers net hex ws user query _ hp hw hm _ =>
    have hnone : ∀ partner, ¬ FindsPartner user query st partner := by
      intro partner hf
      rw [← partnerFor_eq_some, hp] at hf
      simp at hf
    have hquiet : ¬ Stumbles user query st := by
      rw [← partnerFor_eq_error, hp]
      simp
    rw [singlePlace_registers h hw hm]
    exact ⟨fun hu => .inr ⟨hu, fun _ => hnone⟩, fun hk => (hk.resolve_left hquiet).1⟩
  | @claims net hex ws user query _ partner ws2 hp hne hg hw hm _ =>
    have hfinds : FindsPartner user query st partner := partnerFor_eq_some.mp hp
    have hquiet : ¬ Stumbles user query st := by
      rw [← partnerFor_eq_error, hp]
      simp
    rw [singlePlace_claims hs h hne hg hw hm]
    refine ⟨fun hu => .inr ⟨hu.1, fun hw' => absurd hw' hu.2⟩, fun hk => ?_⟩
    obtain ⟨hr, hnot⟩ := hk.resolve_left hquiet
    exact ⟨hr, fun hw' => hnot hw' partner hfinds⟩
  | enters _ _ _ _ hw hm _ =>
    refine iff_of_true (singlePlace_of_sublist h ?_ fun id hid => by rwa [hw] at hid) trivial
    rw [State.rooms, hm]
    exact List.Sublist.refl _
  | accepts room data _ hg hw hm _ => exact iff_of_true (singlePlace_accepts h hg hw hm) trivial
  | rejects room data _ hg hw hm _ => exact iff_of_true (singlePlace_rejects h hg hw hm) trivial
  | leaves hw hm _ =>
    refine iff_of_true (singlePlace_of_sublist h ?_ fun id hid => ?_) trivial
    · rw [hm]
      exact roomIds_filter_sublist _ _
    · rw [OrderedDict.mem_def, OrderedDict.keys, hw] at hid
      exact (OrderedDict.mem_erase.mp hid).2

/-- Users stay in one place all along a run exactly when every connect of the run keeps them so. -/
theorem singlePlace_along_run (clock : Clock) (cs : List Call) :
    (∀ pre st, pre <+: cs → calls.Run (State.initial clock) pre st → SinglePlace st) ↔
      ∀ pre c st, pre ++ [c] <+: cs → calls.Run (State.initial clock) pre st →
        KeepsPlaces st c := by
  refine ⟨fun h pre c st hpre hr => ?_, fun h pre st hpre hr => ?_⟩
  · have hstep : calls.step st c (c.run st).state := calls_step.mpr rfl
    have hbefore := h pre st ((List.prefix_append pre [c]).trans hpre) hr
    have hafter := h (pre ++ [c]) _ hpre (hr.snoc hstep)
    exact (singlePlace_step (roomsShaped_of_run hr) hbefore hstep).mp hafter
  · induction hr with
    | nil => exact List.nodup_nil
    | @snoc ls s s' l hr hs ih =>
      have hbefore := ih ((List.prefix_append ls [l]).trans hpre)
      exact (singlePlace_step (roomsShaped_of_run hr) hbefore hs).mpr (h ls l s hpre hr)

theorem second_connect_places_twice :
    ¬ ∀ (clock : Clock) (cs : List Call) (st : State),
      calls.Run (State.initial clock) cs st → SinglePlace st := by
  intro h
  have hr := h Clock.start _ _ (Lts.run_of_exec (rfl : Lts.exec _ _
    [.connect .up "a" ⟨1⟩ (.plain (.of 1)) .empty, .connect .up "b" ⟨2⟩ (.plain (.of 2)) .empty,
      .connect .up "c" ⟨3⟩ (.plain (.of 1)) .empty] = some _))
  exact absurd hr (by decide)

end Nalang.Matchmaking
