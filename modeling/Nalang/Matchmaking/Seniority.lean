import Nalang.Library.ArrivalOrder
import Nalang.Matchmaking.Pairing
import Nalang.Matchmaking.Waiters

/-!
# The queue is served in the order of arrival

`waiting_users` remembers the order in which its keys came. A connect of a user
who is waiting already keeps the place, a user who is put back after a rejection
starts again at the end, and the loop of `handle_connect` goes through the keys
in their order: the partner is the one who has been waiting for longest among
those that suit.
-/

namespace Nalang.Matchmaking
open Python Transition ArrivalOrder

def State.queue (st : State) : List UserId := st.waitingUsers.keys

structure Grows (q q' : List UserId) : Prop where
  append : ∃ new, q' = q ++ new ∧ ∀ id ∈ new, id ∉ q

theorem Grows.refl (q : List UserId) : Grows q q := ⟨[], by simp, by simp⟩

theorem Grows.trans {q q' q'' : List UserId} (h : Grows q q') (h' : Grows q' q'') :
    Grows q q'' := by
  obtain ⟨new, rfl, hnew⟩ := h.append
  obtain ⟨new', rfl, hnew'⟩ := h'.append
  refine ⟨new ++ new', List.append_assoc _ _ _, fun id hid => ?_⟩
  rcases List.mem_append.mp hid with hid | hid
  · exact hnew id hid
  · exact fun hq => hnew' id hid (List.mem_append_left _ hq)

theorem Grows.moves {q q' : List UserId} (h : Grows q q') : Moves q q' := by
  obtain ⟨new, rfl, hnew⟩ := h.append
  exact moves_append hnew

theorem grows_set (waiting : OrderedDict UserId Socket) (id : UserId) (ws : Socket) :
    Grows waiting.keys (waiting.set id ws).keys := by
  by_cases h : id ∈ waiting
  · have hkeys : (waiting.set id ws).keys = waiting.keys := by
      rw [OrderedDict.keys, OrderedDict.entries_set_of_mem h, OrderedDict.map_writeEntry_fst]
      rfl
    rw [hkeys]
    exact .refl _
  · refine ⟨[id], ?_, ?_⟩
    · rw [OrderedDict.keys, OrderedDict.entries_set_of_not_mem h, List.map_append]
      rfl
    · intro a ha
      rwa [List.mem_singleton.mp ha]

theorem grows_rejectLoop (net : Net) (userId : UserId) (sockets : List Socket) (idx n : ℕ)
    (uids : List UserId) (waiting : OrderedDict UserId Socket) :
    Grows waiting.keys (rejectLoop net userId sockets idx n uids waiting).1.keys := by
  induction uids generalizing idx n waiting with
  | nil => exact .refl _
  | cons uid uids ih =>
    unfold rejectLoop
    split_ifs with hu
    · cases hs : sockets[idx]? with
      | none => exact .refl _
      | some sock =>
        dsimp only
        by_cases hnet : (net n sock).isNone
        · rw [if_pos hnet]
          exact (grows_set waiting uid sock).trans (ih _ _ _)
        · rw [if_neg hnet]
          exact ih _ _ _
    · exact ih _ _ _

theorem keys_erase_sublist (waiting : OrderedDict UserId Socket) (id : UserId) :
    (waiting.erase id).keys.Sublist waiting.keys := by
  unfold OrderedDict.keys
  rw [OrderedDict.entries_erase]
  exact List.filter_sublist.map Prod.fst

theorem moves_of_change {st st' : State} {c : Call} (h : Change st c st') :
    Moves st.queue st'.queue := by
  unfold State.queue
  cases h with
  | same hw _ _ _ =>
    rw [hw]
    exact (Grows.refl _).moves
  | registers _ hw _ _ =>
    rw [hw]
    exact (grows_set _ _ _).moves
  | claims partner ws2 _ _ _ hw _ _ =>
    rw [hw]
    exact moves_of_sublist (keys_erase_sublist _ _)
  | enters _ _ _ _ hw _ _ =>
    rw [hw]
    exact (Grows.refl _).moves
  | accepts _ _ _ _ hw _ _ =>
    rw [hw]
    exact (Grows.refl _).moves
  | rejects _ _ _ _ hw _ _ =>
    rw [hw]
    exact (grows_rejectLoop _ _ _ _ _ _ _).moves
  | leaves hw _ _ =>
    have hkeys : st'.waitingUsers.keys = _ := congrArg (List.map Prod.fst) hw
    rw [hkeys]
    exact moves_of_sublist (keys_erase_sublist _ _)

/-- The queues of a run of the handlers, and for how many calls a user has been in them. -/
def waitedFor (s : List (State × Call) × State) (id : UserId) : ℕ := stay (history State.queue s) id

theorem queue_ordered {clock : Clock} {cs : List Call} {s : List (State × Call) × State}
    (hr : calls.recorded.Run ([], State.initial clock) cs s) :
    s.2.queue.Pairwise fun id id' => waitedFor s id' ≤ waitedFor s id :=
  ordered_of_run RoomsShaped (fun _ he => absurd he List.not_mem_nil)
    (fun _ _ _ h hs => roomsShaped_step h hs)
    (fun _ _ _ h hs => moves_of_change (change_of_step h hs)) hr

/-- Whoever a connect takes suits, and nobody who suits has been waiting for longer. -/
theorem longest_waiting_first {clock : Clock} {cs : List Call} {s : List (State × Call) × State}
    (hr : calls.recorded.Run ([], State.initial clock) cs s) (net : Net) (hex : String) (ws : Socket)
    (user : User) (query : QueryParams) :
    (s.2.queue.Pairwise fun id id' => waitedFor s id' ≤ waitedFor s id) ∧
    (∀ partner,
      Claims hex ws user s.2 (handleConnect net hex ws user query s.2).state partner →
        Suits user query s.2 partner ∧
          ∀ id ∈ s.2.queue, Suits user query s.2 id → waitedFor s id ≤ waitedFor s partner) ∧
    (∀ id ∈ s.2.queue, Suits user query s.2 id → ¬ Stumbles user query s.2 →
      ∃ partner, Claims hex ws user s.2 (handleConnect net hex ws user query s.2).state partner) := by
  have hord := queue_ordered hr
  refine ⟨hord, fun partner hclaims => ?_, fun id hid hsuits hquiet => ?_⟩
  · obtain ⟨ws2, ⟨pre, post, hes, hpre⟩, hj⟩ :=
      (claims_iff net hex ws user query s.2 partner).mp hclaims
    refine ⟨judge_eq_true.mp hj, ?_⟩
    have hkeys : s.2.queue = pre.map Prod.fst ++ partner :: post.map Prod.fst := by
      simp [State.queue, OrderedDict.keys, hes]
    refine Ordered.longest hord hkeys fun id hid hsuits => ?_
    obtain ⟨e, he, rfl⟩ := List.mem_map.mp hid
    have hpassed := hpre e he
    rw [judge_eq_true.mpr hsuits] at hpassed
    cases hpassed
  · obtain ⟨hne, record, hg, hfirst, hsecond⟩ := hsuits
    obtain ⟨partner, hf⟩ := finds_of_matchable hquiet ⟨hid, hne, record, hg, hfirst, hsecond⟩
    exact ⟨partner, (claims_iff net hex ws user query s.2 partner).mpr hf⟩

/-! ### Two users who wait for the same partner -/

def seeksGender : QueryParams := ⟨[("filter_gender_id", "7")]⟩

def sought : User := ⟨.of 3, [7], [], none⟩

def twoSeekers : List Call :=
  [.connect .up "a" ⟨1⟩ (.plain (.of 1)) seeksGender,
    .connect .up "b" ⟨2⟩ (.plain (.of 2)) seeksGender]

theorem longest_waiting_first_applied :
    ∃ s, calls.recorded.Run ([], State.initial .start) twoSeekers s ∧
      Claims "c" ⟨3⟩ sought s.2 (handleConnect .up "c" ⟨3⟩ sought .empty s.2).state (.of 1) ∧
      .of 2 ∈ s.2.queue ∧ waitedFor s (.of 2) ≤ waitedFor s (.of 1) := by
  obtain ⟨st, hst, hpartner, hjudge, hmem⟩ : ∃ st,
      Lts.exec (fun st c => some (Call.run c st).state) (State.initial .start) twoSeekers = some st ∧
      partnerFor sought .empty st = .ok (some (.of 1)) ∧
      judge sought .empty st (.of 2) = .ok true ∧ .of 2 ∈ st.queue := by
    refine ⟨_, rfl, rfl, rfl, ?_⟩
    exact List.mem_cons_of_mem _ List.mem_cons_self
  have hrun : calls.Run (State.initial .start) twoSeekers st := Lts.run_of_exec hst
  obtain ⟨log, hr⟩ := hrun.logged
  obtain ⟨-, hlongest, -⟩ := longest_waiting_first hr .up "c" ⟨3⟩ sought .empty
  have hclaims := (claims_iff .up "c" ⟨3⟩ sought .empty st (.of 1)).mpr
    (partnerFor_eq_some.mp hpartner)
  exact ⟨(log, st), hr, hclaims, hmem, (hlongest _ hclaims).2 _ hmem (judge_eq_true.mp hjudge)⟩

end Nalang.Matchmaking
