import Nalang.Accounts.Lifetimes
import Nalang.CallRoutes.Noninterference

/-!
# The order of the call history

Rows are stamped when they are stored and keep their place. So the list of a user is what
has been posted for the user, read backwards.
-/

namespace Nalang.CallRoutes
open Accounts

theorem mergeSort_of_ascending {α : Type*} {key : α → ℤ} {l : List α}
    (h : (l.map key).Pairwise (· < ·)) :
    (l.mergeSort fun a b => key b ≤ key a) = l.reverse := by
  have hsorted : (l.mergeSort fun a b => key b ≤ key a).Pairwise fun a b => key b ≤ key a := by
    refine (List.pairwise_mergeSort ?_ ?_ l).imp of_decide_eq_true
    · intro a b c hab hbc
      exact decide_eq_true ((of_decide_eq_true hbc).trans (of_decide_eq_true hab))
    · intro a b
      rw [Bool.or_eq_true, decide_eq_true_iff, decide_eq_true_iff]
      exact le_total (key b) (key a)
  have hreverse : l.reverse.Pairwise fun a b => key b ≤ key a := by
    rw [List.pairwise_reverse]
    exact (List.pairwise_map.mp h).imp le_of_lt
  have hperm := (List.mergeSort_perm l fun a b => key b ≤ key a).trans l.reverse_perm.symm
  refine hperm.eq_of_pairwise (fun a b ha hb hba hab => ?_) hsorted hreverse
  have hmem : a ∈ l := (List.mergeSort_perm _ _).mem_iff.mp ha
  exact List.inj_on_of_nodup_map (h.imp ne_of_lt) hmem (List.mem_reverse.mp hb)
    (le_antisymm hab hba)

/-! ### The rows and the clock -/

def Request.recordedAt (req : Request) : Option Timestamp :=
  match req.route with
  | .record _ => some req.createdAt
  | _ => none

/-- The rows have come one after another, and those of the requests come after them. -/
def State.Clocked (st : State) (reqs : List Request) : Prop :=
  (st.histories.map CallHistory.createdAt ++ reqs.filterMap Request.recordedAt).Pairwise (· < ·)

structure State.Keyed (st : State) : Prop where
  ids : st.histories.Pairwise fun a b => a.id < b.id
  fresh : ∀ ch ∈ st.histories, ch.id < st.nextId

def State.joined (st : State) (user : User) : List (CallHistory × User) :=
  (st.histories.filter fun ch => ch.userId = (user.id : ℤ)).flatMap fun ch =>
    (st.users.rows.filter fun p => ch.partnerId = (p.id : ℤ)).map (ch, ·)

section Order
variable {env : Env} {st : State} {req : Request} {reqs : List Request} {user : User}

theorem createHistory_rows (createdAt : Timestamp) (data : CallHistoryCreate) (st : State) :
    (createCallHistoryWithCheck createdAt data st).2.histories = st.histories ∨
      ∃ row : CallHistory, row.createdAt = createdAt ∧ row.id = st.nextId ∧
        (createCallHistoryWithCheck createdAt data st).2.nextId = st.nextId + 1 ∧
        (createCallHistoryWithCheck createdAt data st).2.histories = st.histories ++ [row] := by
  unfold createCallHistoryWithCheck createCallHistory
  split_ifs
  · exact .inl rfl
  · exact .inr ⟨_, rfl, rfl, rfl, rfl⟩
  · exact .inl rfl
  · exact .inl rfl

theorem nextId_le_handle (env : Env) (st : State) (req : Request) :
    st.nextId ≤ (handle env st req).2.nextId := by
  unfold handle
  cases req.route with
  | record data =>
    change st.nextId ≤ (createCallHistoryWithCheck req.createdAt data st).2.nextId
    unfold createCallHistoryWithCheck createCallHistory
    split_ifs <;> simp
  | waiting =>
    cases req.currentUser env st.users with
    | error e => exact le_rfl
    | ok user =>
      change st.nextId ≤ (registerForCallQueue req.now user.id st).2.nextId
      unfold registerForCallQueue
      dsimp only
      split <;> exact le_rfl
  | token room => cases req.currentUser env st.users <;> exact le_rfl
  | history => cases req.currentUser env st.users <;> exact le_rfl
  | deleteRoom roomName livekit => exact le_rfl
  | roomTest => exact le_rfl
  | recordAudio data => exact (updateAudioUrl_frame data st).2.2.ge

theorem rows_of_handle {α : Type*} (column : CallHistory → α)
    (hcolumn : ∀ ch url, column { ch with recordingUrl := url } = column ch)
    (env : Env) (st : State) (req : Request) :
    (handle env st req).2.histories.map column = st.histories.map column ∨
      ∃ row : CallHistory, req.recordedAt = some row.createdAt ∧ row.id = st.nextId ∧
        (handle env st req).2.nextId = st.nextId + 1 ∧
        (handle env st req).2.histories.map column = (st.histories ++ [row]).map column := by
  by_cases hrecord : ∃ data, req.route = .record data
  · obtain ⟨data, hr⟩ := hrecord
    unfold handle Request.recordedAt
    rw [hr]
    rcases createHistory_rows req.createdAt data st with hsame | ⟨row, htime, hid, hnext, hrows⟩
    · exact .inl (congrArg _ hsame)
    · exact .inr ⟨row, congrArg some htime.symm, hid, hnext, congrArg _ hrows⟩
  · refine .inl ?_
    cases effect_of_handle env st req with
    | stores data row hs hrow hhist => exact absurd ⟨data, hs.1⟩ hrecord
    | leaves _ _ hhist => exact congrArg _ hhist
    | records audio hr hfits hhist =>
      rw [hhist, List.map_map]
      apply List.map_congr_left
      intro ch _
      rw [Function.comp_apply]
      unfold AudioUrlUpdate.write
      split_ifs
      · exact hcolumn ch _
      · rfl

theorem State.Clocked.handle (h : st.Clocked (req :: reqs)) :
    (handle env st req).2.Clocked reqs := by
  unfold State.Clocked at h ⊢
  rw [List.filterMap_cons] at h
  rcases rows_of_handle CallHistory.createdAt (fun _ _ => rfl) env st req with
    hsame | ⟨row, htime, -, -, hrows⟩
  · rw [hsame]
    refine List.Pairwise.sublist ?_ h
    apply List.Sublist.append_left
    cases req.recordedAt with
    | none => exact List.Sublist.refl _
    | some t => exact List.sublist_cons_self t _
  · rw [htime] at h
    rw [hrows, List.map_append, List.append_assoc]
    exact h

theorem State.Clocked.run (h : st.Clocked reqs) (env : Env) : (run env st reqs).Clocked [] := by
  induction reqs generalizing st with
  | nil => exact h
  | cons req reqs ih => exact ih h.handle

theorem State.Clocked.rows (h : st.Clocked reqs) :
    (st.histories.map CallHistory.createdAt).Pairwise (· < ·) :=
  List.Pairwise.sublist (List.sublist_append_left _ _) h

theorem keyed_of_ids {st' : State} (h : st.Keyed)
    (hids : st'.histories.map CallHistory.id = st.histories.map CallHistory.id)
    (hnext : st.nextId ≤ st'.nextId) : st'.Keyed := by
  refine ⟨?_, fun ch hch => ?_⟩
  · rw [← List.pairwise_map (f := CallHistory.id), hids]
    exact List.pairwise_map.mpr h.ids
  · have hmem := List.mem_map_of_mem (f := CallHistory.id) hch
    rw [hids] at hmem
    obtain ⟨old, hold, hid⟩ := List.mem_map.mp hmem
    have hfresh := h.fresh old hold
    omega

theorem State.Keyed.handle (h : st.Keyed) (env : Env) (req : Request) :
    (handle env st req).2.Keyed := by
  rcases rows_of_handle CallHistory.id (fun _ _ => rfl) env st req with
    hsame | ⟨row, -, hid, hnext, hrows⟩
  · exact keyed_of_ids h hsame (nextId_le_handle env st req)
  · have hkeyed : State.Keyed
        { st with histories := st.histories ++ [row], nextId := st.nextId + 1 } := by
      refine ⟨List.pairwise_append.mpr ⟨h.ids, List.pairwise_singleton _ _, ?_⟩, ?_⟩
      · intro ch hch last hlast
        rw [List.mem_singleton.mp hlast, hid]
        exact h.fresh ch hch
      · intro ch hch
        rcases List.mem_append.mp hch with hch | hch
        · exact (h.fresh ch hch).trans (Nat.lt_succ_self _)
        · rw [List.mem_singleton.mp hch, hid]
          exact Nat.lt_succ_self _
    exact keyed_of_ids hkeyed hrows (le_of_eq hnext.symm)

theorem State.Keyed.run (h : st.Keyed) (env : Env) (reqs : List Request) :
    (run env st reqs).Keyed := by
  induction reqs generalizing st with
  | nil => exact h
  | cons req reqs ih => exact ih (h.handle env req)

/-! ### The list of a user -/

/-- A row has at most one partner, so the join keeps the order of the rows. -/
theorem joined_pairwise {R : CallHistory → CallHistory → Prop} (h : st.histories.Pairwise R)
    (user : User) : (st.joined user).Pairwise fun a b => R a.1 b.1 := by
  unfold State.joined
  rw [List.pairwise_flatMap]
  constructor
  · intro ch _
    have hdistinct : st.users.rows.Pairwise fun p q => p.id ≠ q.id :=
      List.pairwise_map.mp st.users.ids
    rw [List.pairwise_map]
    refine (hdistinct.filter _).imp_of_mem fun hp hq hne => ?_
    have hpid := of_decide_eq_true (List.mem_filter.mp hp).2
    have hqid := of_decide_eq_true (List.mem_filter.mp hq).2
    omega
  · refine (h.filter _).imp fun hab a ha b hb => ?_
    obtain ⟨_, -, rfl⟩ := List.mem_map.mp ha
    obtain ⟨_, -, rfl⟩ := List.mem_map.mp hb
    exact hab

theorem mem_joined {r : CallHistory × User} (h : r ∈ st.joined user) :
    r.2 ∈ st.users.rows ∧ r.1.partnerId = (r.2.id : ℤ) := by
  obtain ⟨ch, -, hr⟩ := List.mem_flatMap.mp h
  obtain ⟨p, hp, rfl⟩ := List.mem_map.mp hr
  exact ⟨(List.mem_filter.mp hp).1, of_decide_eq_true (List.mem_filter.mp hp).2⟩

theorem joined_facts (href : Referential st) (user : User) :
    (st.joined user).map (fun r => (r.1.item r.2).facts) = st.facts user.id := by
  unfold State.joined State.facts
  rw [List.map_flatMap, List.map_eq_flatMap]
  apply List.flatMap_congr
  intro ch hch
  obtain ⟨p, hp, hid⟩ := href ch (List.mem_filter.mp hch).1
  rw [filter_id_eq hp hid]
  simp [CallHistoryList.facts, CallHistory.item, CallHistoryCreate.facts, hid]

theorem getHistoryList_eq (h : st.Clocked reqs) (user : User) :
    getHistoryList user st = ((st.joined user).map fun r => r.1.item r.2).reverse := by
  have hascending : ((st.joined user).map fun r => r.1.createdAt).Pairwise (· < ·) :=
    List.pairwise_map.mpr (joined_pairwise (List.pairwise_map.mp h.rows) user)
  rw [← List.map_reverse, ← mergeSort_of_ascending hascending]
  rfl

theorem history_facts (h : st.Clocked reqs) (href : Referential st) (user : User) :
    (getHistoryList user st).map CallHistoryList.facts = (st.facts user.id).reverse := by
  rw [getHistoryList_eq h, List.map_reverse, List.map_map, ← joined_facts href user]
  rfl

theorem history_ids (h : st.Clocked reqs) (hkeys : st.Keyed) (user : User) :
    (getHistoryList user st).Pairwise fun a b => b.id < a.id := by
  rw [getHistoryList_eq h, List.pairwise_reverse, List.pairwise_map]
  exact joined_pairwise hkeys.ids user

theorem history_partners (h : st.Clocked reqs) (user : User) :
    ∀ item ∈ getHistoryList user st,
      ∃ p ∈ st.users.rows, item.partner = ⟨p.id, p.name, p.profileImage⟩ := by
  intro item hitem
  rw [getHistoryList_eq h, List.mem_reverse] at hitem
  obtain ⟨r, hr, rfl⟩ := List.mem_map.mp hitem
  exact ⟨r.2, (mem_joined hr).1, rfl⟩

end Order

/-- Whatever the requests before it, `GET /history` answers with the calls posted for the user, the
last one first, and then with those that were there. -/
theorem history_newest_first {env : Env} {st : State} {reqs : List Request}
    (hclock : st.Clocked reqs) (href : Referential st) (hkeys : st.Keyed) {req : Request}
    (hroute : req.route = .history) {user : User}
    (hauth : req.currentUser env st.users = .ok user) :
    ∃ items, (handle env (run env st reqs) req).1 = .ok (.history items) ∧
      items.map CallHistoryList.facts =
        (posted st.users user.id reqs).reverse ++ (st.facts user.id).reverse ∧
      items.Pairwise (fun a b => b.id < a.id) ∧
      ∀ item ∈ items, ∃ p ∈ st.users.rows, item.partner = ⟨p.id, p.name, p.profileImage⟩ := by
  have hclocked := hclock.run env
  refine ⟨getHistoryList user (run env st reqs), ?_, ?_,
    history_ids hclocked (hkeys.run env reqs) user, ?_⟩
  · unfold handle
    rw [hroute, run_users, hauth]
  · rw [history_facts hclocked (referential_run href reqs), facts_run, List.reverse_append]
  · rw [← run_users env st reqs]
    exact history_partners hclocked user

/-! ### Two calls of one user -/

def postAt (createdAt : Timestamp) (roomName : String) : Request :=
  ⟨0, createdAt, none,
    .record ⟨1, 2, roomName, createdAt - 60, createdAt, 60, none, none, none⟩⟩

theorem keyed_beforeCalls : beforeCalls.Keyed := ⟨.nil, fun _ h => absurd h List.not_mem_nil⟩

theorem history_newest_first_applied : ∃ access items,
    (handle plainEnv (run plainEnv beforeCalls
        [postAt 100 "room_1_2_a", agentPut, postAt 200 "room_1_2_b"])
      ⟨0, 300, some access, .history⟩).1 = .ok (.history items) ∧
      items.map CallHistoryList.facts =
        [("room_1_2_b", 2, 140, 200, 60), ("room_1_2_a", 2, 40, 100, 60)] := by
  obtain ⟨access, ha⟩ : ∃ access,
      Accounts.createAccessToken plainEnv 0 (some (toString kim.id)) = some access := ⟨_, rfl⟩
  have hauth : getCurrentUser plainEnv twoUsers 0 (some access) = .ok kim :=
    (getCurrentUser_issued plainJose_lawful rfl (by decide) (by decide) ha kim).mpr
      ⟨rfl, by decide⟩
  have hclock : beforeCalls.Clocked
      [postAt 100 "room_1_2_a", agentPut, postAt 200 "room_1_2_b"] := by
    unfold State.Clocked
    decide
  obtain ⟨items, hanswer, hfacts, -, -⟩ := history_newest_first hclock referential_beforeCalls
    keyed_beforeCalls (rfl : Request.route ⟨0, 300, some access, .history⟩ = .history) hauth
  exact ⟨access, items, hanswer, hfacts⟩

end Nalang.CallRoutes
