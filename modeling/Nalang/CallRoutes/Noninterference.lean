import Mathlib.Data.Multiset.AddSub
import Nalang.CallRoutes.Recordings

/-!
# Who writes into a user's call history

A row names its owner in the body of the request. What the requests without a
token of a user add to the history of this user are their posts that name the
user.
-/

namespace Nalang.CallRoutes
open Accounts

abbrev Facts := String × ℤ × Timestamp × Timestamp × ℤ

def CallHistoryCreate.facts (data : CallHistoryCreate) : Facts :=
  (data.roomName, data.partnerId, data.startedAt, data.endedAt, data.durationSec)

def CallHistoryList.facts (item : CallHistoryList) : Facts :=
  (item.roomName, item.partner.id, item.startedAt, item.endedAt, item.durationSec)

def State.facts (st : State) (userId : ℤ) : List Facts :=
  (st.histories.filter fun ch => ch.userId = userId).map fun ch => ch.toCallHistoryCreate.facts

def posted (users : Users) (userId : ℤ) (reqs : List Request) : List Facts :=
  ((reqs.filterMap (·.stored users)).filter fun data => data.userId = userId).map
    CallHistoryCreate.facts

def Request.carries (env : Env) (users : Users) (u : User) (req : Request) : Bool :=
  match req.currentUser env users with
  | .ok user => user = u
  | .error _ => false

section Rows
variable {env : Env} {st : State} {req : Request}

theorem posted_append {users : Users} {userId : ℤ} (reqs reqs' : List Request) :
    posted users userId (reqs ++ reqs') = posted users userId reqs ++ posted users userId reqs' := by
  simp [posted]

theorem facts_write (audio : AudioUrlUpdate) (st : State) (userId : ℤ) :
    State.facts { st with histories := st.histories.map audio.write } userId = st.facts userId := by
  unfold State.facts AudioUrlUpdate.write
  induction st.histories with
  | nil => rfl
  | cons ch rest ih =>
    by_cases hroom : ch.roomName = audio.roomName <;> by_cases huser : ch.userId = userId <;>
      simpa [hroom, huser, CallHistoryCreate.facts] using ih

theorem facts_handle (env : Env) (st : State) (req : Request) (userId : ℤ) :
    (handle env st req).2.facts userId = st.facts userId ++ posted st.users userId [req] := by
  cases effect_of_handle env st req with
  | stores data row hs hrow hhist =>
    unfold State.facts posted
    rw [hhist, List.filter_append, List.map_append, List.filterMap_cons, stored_eq_some.mpr hs]
    by_cases h : data.userId = userId <;> simp [h, hrow]
  | records audio hr hfits hhist =>
    have hnone : req.stored st.users = none := by
      unfold Request.stored
      rw [hr]
    have hfacts : (handle env st req).2.facts userId =
        State.facts { st with histories := st.histories.map audio.write } userId := by
      unfold State.facts
      rw [hhist]
    rw [hfacts, facts_write]
    simp [posted, hnone]
  | leaves hrecord haudio hhist =>
    have hnone : req.stored st.users = none := by
      cases hs : req.stored st.users with
      | none => rfl
      | some data => exact absurd (stored_eq_some.mp hs) (hrecord data)
    unfold State.facts
    rw [hhist]
    simp [posted, hnone]

theorem facts_run (env : Env) (st : State) (reqs : List Request) (userId : ℤ) :
    (run env st reqs).facts userId = st.facts userId ++ posted st.users userId reqs := by
  induction reqs generalizing st with
  | nil => simp [posted]
  | cons req reqs ih =>
    rw [run_cons, ih, facts_handle, handle_users, List.append_assoc, ← posted_append,
      List.singleton_append]

/-- The foreign key of the partner. -/
def Referential (st : State) : Prop :=
  ∀ ch ∈ st.histories, ∃ p ∈ st.users.rows, ch.partnerId = (p.id : ℤ)

theorem referential_handle (h : Referential st) : Referential (handle env st req).2 := by
  intro ch hch
  rw [handle_users]
  cases effect_of_handle env st req with
  | stores data row hs hrow hhist =>
    rw [hhist, List.mem_append, List.mem_singleton] at hch
    rcases hch with hch | rfl
    · exact h ch hch
    · have hpartner : (st.users.getUserById data.partnerId).isSome := by
        have hstorable := hs.2.2
        unfold Storable at hstorable
        exact ((Bool.and_eq_true _ _).mp hstorable).2
      obtain ⟨p, hp⟩ := Option.isSome_iff_exists.mp hpartner
      obtain ⟨hmem, hid⟩ := Users.getUserById_eq_some hp
      refine ⟨p, hmem, ?_⟩
      rw [hid, ← hrow]
  | records audio hr hfits hhist =>
    rw [hhist] at hch
    obtain ⟨ch', hch', rfl⟩ := List.mem_map.mp hch
    obtain ⟨p, hp, hid⟩ := h ch' hch'
    refine ⟨p, hp, ?_⟩
    unfold AudioUrlUpdate.write
    split_ifs <;> exact hid
  | leaves _ _ hhist =>
    rw [hhist] at hch
    exact h ch hch

theorem referential_run (h : Referential st) (reqs : List Request) :
    Referential (run env st reqs) := by
  induction reqs generalizing st with
  | nil => exact h
  | cons req reqs ih => exact ih (referential_handle h)

theorem filter_id_eq {t : Users} {p : User} (hp : p ∈ t.rows) {id : ℤ} (hid : id = (p.id : ℤ)) :
    t.rows.filter (fun q => id = (q.id : ℤ)) = [p] := by
  have hnodup : t.rows.Nodup := List.Nodup.of_map _ t.ids
  refine List.perm_singleton.mp ((List.perm_ext_iff_of_nodup (hnodup.filter _)
    (List.nodup_singleton p)).mpr fun q => ?_)
  rw [List.mem_filter, List.mem_singleton, decide_eq_true_iff]
  constructor
  · rintro ⟨hq, hid'⟩
    exact List.inj_on_of_nodup_map t.ids hq hp (Int.ofNat.inj (hid'.symm.trans hid))
  · rintro rfl
    exact ⟨hp, hid⟩

theorem getHistoryList_facts (h : Referential st) (u : User) :
    (((getHistoryList u st).map CallHistoryList.facts : List Facts) : Multiset Facts) =
      (st.facts u.id : Multiset Facts) := by
  have hjoin : ∀ rows : List CallHistory, (∀ ch ∈ rows, ch ∈ st.histories) →
      (rows.flatMap fun ch => (st.users.rows.filter fun p => ch.partnerId = (p.id : ℤ)).map
        (ch, ·)).map (fun r => (r.1.item r.2).facts) =
      rows.map fun ch => ch.toCallHistoryCreate.facts := by
    intro rows hrows
    induction rows with
    | nil => rfl
    | cons ch rows ih =>
      obtain ⟨p, hp, hid⟩ := h ch (hrows ch List.mem_cons_self)
      rw [List.flatMap_cons, List.map_append, ih fun c hc => hrows c (List.mem_cons_of_mem _ hc),
        filter_id_eq hp hid, List.map_cons]
      simp only [List.map_cons, List.map_nil, List.cons_append, List.nil_append, List.cons.injEq,
        and_true]
      unfold CallHistoryList.facts CallHistory.item CallHistoryCreate.facts
      rw [hid]
  unfold getHistoryList State.facts
  dsimp only
  rw [List.map_map, Multiset.coe_eq_coe, ← hjoin _ fun ch hch => (List.mem_filter.mp hch).1]
  exact (List.mergeSort_perm _ _).map _

theorem posted_split {users : Users} {userId : ℤ} (p : Request → Bool) (reqs : List Request) :
    (posted users userId reqs : Multiset Facts) =
      posted users userId (reqs.filter p) + posted users userId (reqs.filter fun req => !p req) := by
  rw [Multiset.coe_add, ← posted_append, Multiset.coe_eq_coe]
  unfold posted
  exact (((List.filter_append_perm p reqs).symm.filterMap _).filter _).map _

end Rows

/-- Two sequences that agree on the requests with a token of the user leave the same history exactly
when the others post the same rows in the name of the user. -/
theorem same_history_iff {env : Env} {st : State} (h : Referential st) (u : User)
    {reqs reqs' : List Request} (hagree : reqs.filter (Request.carries env st.users u) =
      reqs'.filter (Request.carries env st.users u)) :
    (((run env st reqs).facts u.id : Multiset Facts) = (run env st reqs').facts u.id ∧
        (((getHistoryList u (run env st reqs)).map CallHistoryList.facts : List Facts) :
            Multiset Facts) =
          ((getHistoryList u (run env st reqs')).map CallHistoryList.facts : List Facts)) ↔
      (posted st.users u.id (reqs.filter fun req => !req.carries env st.users u) : Multiset Facts) =
        posted st.users u.id (reqs'.filter fun req => !req.carries env st.users u) := by
  rw [getHistoryList_facts (referential_run h reqs), getHistoryList_facts (referential_run h reqs'),
    and_self, facts_run, facts_run, ← Multiset.coe_add, ← Multiset.coe_add, Multiset.add_right_inj,
    posted_split (Request.carries env st.users u) reqs,
    posted_split (Request.carries env st.users u) reqs', hagree, Multiset.add_right_inj]

/-! ### Somebody posts a call -/

def kim : User := { caller kimsEmail "Kim" with id := 1 }

theorem referential_beforeCalls : Referential beforeCalls := by
  intro ch hch
  cases hch

theorem same_history_iff_applied : kim ∈ beforeCalls.users.rows ∧
    (((run plainEnv beforeCalls [postOf 2 1]).facts kim.id : Multiset Facts) =
        (run plainEnv beforeCalls []).facts kim.id ∧
      (((getHistoryList kim (run plainEnv beforeCalls [postOf 2 1])).map
          CallHistoryList.facts : List Facts) : Multiset Facts) =
        ((getHistoryList kim (run plainEnv beforeCalls [])).map
          CallHistoryList.facts : List Facts)) := by
  refine ⟨by decide, (same_history_iff referential_beforeCalls kim rfl).mpr ?_⟩
  decide

theorem posted_for_another :
    ¬ ∀ env st, Referential st → ∀ u ∈ st.users.rows, ∀ reqs reqs',
      reqs.filter (Request.carries env st.users u) =
        reqs'.filter (Request.carries env st.users u) →
      ((run env st reqs).facts u.id : Multiset Facts) = (run env st reqs').facts u.id := by
  intro h
  have hsame := h plainEnv beforeCalls referential_beforeCalls kim (by decide) [postOf 1 2] [] rfl
  exact absurd hsame (by decide)

end Nalang.CallRoutes
