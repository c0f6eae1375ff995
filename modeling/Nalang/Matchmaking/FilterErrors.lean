import Nalang.Matchmaking.Calls

/-!
# Malformed filters in the queue

The filters of a waiting user are interpreted in the candidate loop of another
user's connect. They change that connect unless every waiting user with a
malformed filter that the loop comes to is turned down by `is_match` itself.
-/

namespace Nalang.Matchmaking
open Python Transition

def Malformed (st : State) (id : UserId) : Prop :=
  match st.getRecord id with
  | none => False
  | some record => ¬ record.filters.WellFormed

instance (st : State) : DecidablePred (Malformed st) := fun id => by
  unfold Malformed
  cases st.getRecord id with
  | none => exact inferInstanceAs (Decidable False)
  | some record => exact inferInstanceAs (Decidable (¬ record.filters.WellFormed))

def State.withoutMalformed (st : State) : State :=
  { st with waitingUsers := st.waitingUsers.restrict fun id => ¬ Malformed st id }

/-- The connect does not raise while its sends succeed, and two outcomes agree on the partner or on
the registration. -/
def DecidesAlike (net : Net) (o o' : Outcome) : Prop :=
  ((∀ n sock, net n sock = none) → o.raised = none) ∧ o.raised = o'.raised ∧ o.sent = o'.sent ∧
    o.state.matchingCandidates = o'.state.matchingCandidates

def TurnedDown (user : User) (query : QueryParams) (st : State) (id : UserId) : Prop :=
  id = user.id ∨ ∀ record, st.getRecord id = some record →
    isMatch st.clock.today record.user query.filters = .ok false ∨
      isMatch st.clock.today user.userData record.filters = .ok false

/-- Every malformed entry queued before the first well-formed match is turned down. -/
def MalformedTurnedDown (user : User) (query : QueryParams) (st : State)
    (es : List (UserId × Socket)) : Prop :=
  ∀ pre e post, es = pre ++ e :: post → Malformed st e.1 →
    (∀ e' ∈ pre, Malformed st e'.1 ∨ judge user query st e'.1 ≠ .ok true) →
      TurnedDown user query st e.1

section Queue
variable {user : User} {query : QueryParams} {st : State}

theorem judge_of_wellFormed (hq : query.filters.WellFormed) {id : UserId}
    (h : ¬ Malformed st id) : ∃ b, judge user query st id = .ok b := by
  unfold judge weigh
  split_ifs with hu
  · exact ⟨false, rfl⟩
  · cases hr : st.getRecord id with
    | none => exact ⟨false, rfl⟩
    | some record =>
      have hf : record.filters.WellFormed := by simpa [Malformed, hr] using h
      exact mutualMatch_of_wellFormed hq hf _ _

theorem judge_eq_false (hq : query.filters.WellFormed) {id : UserId} :
    judge user query st id = .ok false ↔ TurnedDown user query st id := by
  unfold judge weigh TurnedDown
  split_ifs with hu
  · exact iff_of_true rfl (.inl hu)
  · cases hr : st.getRecord id with
    | none => simp
    | some record =>
      obtain ⟨b, hb⟩ := isMatch_of_wellFormed hq st.clock.today record.user
      cases b with
      | false => simp [mutualMatch, hb]
      | true => simp [mutualMatch, hb, hu]

theorem findPartner_judge (e : UserId × Socket) (es : List (UserId × Socket)) :
    findPartner st user.id user.userData query.filters (e :: es) =
      match judge user query st e.1 with
      | .error x => .error x
      | .ok true => .ok (some e.1)
      | .ok false => findPartner st user.id user.userData query.filters es :=
  findPartner_cons st user.id user.userData query.filters e.1 e.2 es

theorem findPartner_wellFormed (hq : query.filters.WellFormed) (es : List (UserId × Socket)) :
    ∃ m, findPartner st user.id user.userData query.filters
        (es.filter fun e => ¬ Malformed st e.1) = .ok m ∧
      ∀ p, m = some p → ¬ Malformed st p := by
  induction es with
  | nil => exact ⟨none, rfl, fun p h => nomatch h⟩
  | cons e es ih =>
    by_cases hm : Malformed st e.1
    · rw [List.filter_cons_of_neg (by simpa using hm)]
      exact ih
    · rw [List.filter_cons_of_pos (by simpa using hm), findPartner_judge]
      obtain ⟨b, hb⟩ : ∃ b, judge user query st e.1 = .ok b := judge_of_wellFormed hq hm
      cases b with
      | true =>
        refine ⟨some e.1, by rw [hb], fun p hp => ?_⟩
        rwa [← Option.some.inj hp]
      | false =>
        rw [hb]
        exact ih

theorem malformedTurnedDown_cons {e : UserId × Socket} {es : List (UserId × Socket)} :
    MalformedTurnedDown user query st (e :: es) ↔
      (Malformed st e.1 → TurnedDown user query st e.1) ∧
        (Malformed st e.1 ∨ judge user query st e.1 ≠ .ok true →
          MalformedTurnedDown user query st es) := by
  refine ⟨fun h => ⟨fun hm => h [] e es rfl hm (by simp), fun he => ?_⟩, fun h => ?_⟩
  · intro pre e' post hes hm hpre
    refine h (e :: pre) e' post (by rw [hes, List.cons_append]) hm ?_
    exact List.forall_mem_cons.mpr ⟨he, hpre⟩
  · intro pre e' post hes hm hpre
    cases pre with
    | nil =>
      rw [List.nil_append, List.cons.injEq] at hes
      rw [← hes.1] at hm ⊢
      exact h.1 hm
    | cons a pre =>
      rw [List.cons_append, List.cons.injEq] at hes
      obtain ⟨ha, hpre⟩ := List.forall_mem_cons.mp hpre
      rw [← hes.1] at ha
      exact h.2 ha pre e' post hes.2 hm hpre

/-- The loop comes to the same result without the malformed entries exactly when all of them that
it could come to are turned down. -/
theorem findPartner_filter_iff (hq : query.filters.WellFormed) (es : List (UserId × Socket)) :
    findPartner st user.id user.userData query.filters es =
        findPartner st user.id user.userData query.filters
          (es.filter fun e => ¬ Malformed st e.1) ↔
      MalformedTurnedDown user query st es := by
  induction es with
  | nil =>
    refine iff_of_true rfl fun pre e post hes => ?_
    simp at hes
  | cons e es ih =>
    rw [malformedTurnedDown_cons]
    by_cases hm : Malformed st e.1
    · rw [List.filter_cons_of_neg (by simpa using hm), findPartner_judge]
      obtain ⟨m, hok, hgood⟩ : ∃ m, findPartner st user.id user.userData query.filters
          (es.filter fun e => ¬ Malformed st e.1) = .ok m ∧ ∀ p, m = some p → ¬ Malformed st p :=
        findPartner_wellFormed hq es
      have hturn : judge user query st e.1 = .ok false ↔ TurnedDown user query st e.1 :=
        judge_eq_false hq
      rcases hj : judge user query st e.1 with x | b
      · refine iff_of_false (by rw [hok]; simp) fun h => ?_
        rw [hturn.mpr (h.1 hm)] at hj
        cases hj
      cases b with
      | true =>
        refine iff_of_false (fun h => ?_) fun h => ?_
        · rw [hok, Except.ok.injEq] at h
          exact hgood e.1 h.symm hm
        · rw [hturn.mpr (h.1 hm)] at hj
          cases hj
      | false => exact ih.trans ⟨fun h => ⟨fun _ => hturn.mp hj, fun _ => h⟩, fun h => h.2 (.inl hm)⟩
    · rw [List.filter_cons_of_pos (by simpa using hm), findPartner_judge, findPartner_judge]
      obtain ⟨b, hb⟩ : ∃ b, judge user query st e.1 = .ok b := judge_of_wellFormed hq hm
      rw [hb]
      cases b with
      | true =>
        refine iff_of_true rfl ⟨fun h => absurd h hm, fun h => ?_⟩
        exact absurd rfl (h.resolve_left hm)
      | false =>
        exact ih.trans ⟨fun h => ⟨fun h' => absurd h' hm, fun _ => h⟩,
          fun h => h.2 (.inr (by simp))⟩

theorem partnerFor_withoutMalformed (user : User) (query : QueryParams) (st : State) :
    partnerFor user query st.withoutMalformed =
      findPartner st user.id user.userData query.filters
        (st.waitingUsers.entries.filter fun e => ¬ Malformed st e.1) := by
  rw [partnerFor_eq]
  have hloop : ∀ es, findPartner st.withoutMalformed user.id user.userData query.filters es =
      findPartner st user.id user.userData query.filters es := by
    intro es
    induction es with
    | nil => rfl
    | cons e es ih => rw [findPartner_judge, findPartner_judge, ih]; rfl
  exact hloop _

end Queue

section Connect
variable {net : Net} {hex : String} {ws : Socket} {user : User} {query : QueryParams} {st : State}

theorem connect_withoutMalformed (hq : query.filters.WellFormed) :
    ∃ m, partnerFor user query st.withoutMalformed = .ok m ∧ ∀ p, m = some p → ¬ Malformed st p := by
  rw [partnerFor_withoutMalformed]
  exact findPartner_wellFormed hq st.waitingUsers.entries

theorem partnerFor_eq_of_decidesAlike (hq : query.filters.WellFormed)
    (h : DecidesAlike net (handleConnect net hex ws user query st)
      (handleConnect net hex ws user query st.withoutMalformed)) :
    partnerFor user query st = partnerFor user query st.withoutMalformed := by
  obtain ⟨m, hm, _⟩ : ∃ m, partnerFor user query st.withoutMalformed = .ok m ∧ _ :=
    connect_withoutMalformed hq
  obtain ⟨_, hraised, hsent, _⟩ := h
  have hhead := congrArg List.head? hsent
  cases handleConnect_cases net hex ws user query st.withoutMalformed with
  | raises e hp' _ =>
    rw [hm] at hp'
    cases hp'
  | registers hp' ho' =>
    cases handleConnect_cases net hex ws user query st with
    | raises e hp ho =>
      rw [ho, ho'] at hraised
      cases hraised
    | registers hp ho => rw [hp, hp']
    | proposes partner ws2 hp _ _ ho =>
      rw [ho, ho', propose_sent] at hhead
      cases hhead
  | proposes partner' ws2' hp' _ _ ho' =>
    cases handleConnect_cases net hex ws user query st with
    | raises e hp ho =>
      rw [ho, ho', propose_sent] at hhead
      cases hhead
    | registers hp ho =>
      rw [ho, ho', propose_sent] at hhead
      cases hhead
    | proposes partner ws2 hp _ _ ho =>
      rw [ho, ho', propose_sent, propose_sent, Option.some.injEq] at hhead
      have hevent := congrArg Sent.event hhead
      rw [ServerEvent.matchProposal.injEq] at hevent
      rw [hp, hp', hevent.2]

theorem decidesAlike_of_partnerFor (hq : query.filters.WellFormed)
    (h : partnerFor user query st = partnerFor user query st.withoutMalformed) :
    DecidesAlike net (handleConnect net hex ws user query st)
      (handleConnect net hex ws user query st.withoutMalformed) := by
  obtain ⟨m, hm, hgood⟩ : ∃ m, partnerFor user query st.withoutMalformed = .ok m ∧ _ :=
    connect_withoutMalformed hq
  cases handleConnect_cases net hex ws user query st with
  | raises e hp _ =>
    rw [← h, hp] at hm
    cases hm
  | registers hp ho =>
    cases handleConnect_cases net hex ws user query st.withoutMalformed with
    | raises e hp' _ =>
      rw [hm] at hp'
      cases hp'
    | registers hp' ho' =>
      rw [ho, ho']
      exact ⟨fun _ => rfl, rfl, rfl, rfl⟩
    | proposes partner' ws2' hp' _ _ _ =>
      rw [← h, hp] at hp'
      cases hp'
  | proposes partner ws2 hp _ hw ho =>
    cases handleConnect_cases net hex ws user query st.withoutMalformed with
    | raises e hp' _ =>
      rw [hm] at hp'
      cases hp'
    | registers hp' ho' =>
      rw [← h, hp] at hp'
      cases hp'
    | proposes partner' ws2' hp' _ hw' ho' =>
      rw [← h, hp, Except.ok.injEq, Option.some.injEq] at hp'
      subst hp'
      rw [← h, hp, Except.ok.injEq] at hm
      have hkeep : (st.waitingUsers.restrict fun id => ¬ Malformed st id).get? partner =
          st.waitingUsers.get? partner := OrderedDict.get?_restrict _ (hgood partner hm.symm)
      have hsock : ws2' = ws2 := by
        rw [State.withoutMalformed, hkeep, hw, Option.some.injEq] at hw'
        exact hw'.symm
      subst hsock
      rw [ho, ho']
      obtain ⟨hsent, hraised⟩ := propose_congr net
        (claim (st.setRecord user.id (recordOf user query)) user.id ws partner ws2'
          (roomName user.id partner hex))
        (claim (st.withoutMalformed.setRecord user.id (recordOf user query)) user.id ws partner ws2'
          (roomName user.id partner hex)) user.id ws partner ws2' (roomName user.id partner hex)
      refine ⟨propose_raised _ _ _ _ _ _, hraised, hsent, ?_⟩
      rw [(propose_tables _ _ _ _ _ _ _).2.1, (propose_tables _ _ _ _ _ _ _).2.1]
      rfl

end Connect

/-- A connect with well-formed filters does not notice the malformed entries of the queue exactly
when it turns down all of them that come before its first well-formed match. -/
theorem malformed_unnoticed_iff (net : Net) (hex : String) (ws : Socket) (user : User)
    {query : QueryParams} (hq : query.filters.WellFormed) (st : State) :
    DecidesAlike net (handleConnect net hex ws user query st)
        (handleConnect net hex ws user query st.withoutMalformed) ↔
      MalformedTurnedDown user query st st.waitingUsers.entries := by
  have hloop : partnerFor user query st = partnerFor user query st.withoutMalformed ↔
      MalformedTurnedDown user query st st.waitingUsers.entries := by
    rw [partnerFor_eq, partnerFor_withoutMalformed]
    exact findPartner_filter_iff hq st.waitingUsers.entries
  exact ⟨fun h => hloop.mp (partnerFor_eq_of_decidesAlike hq h),
    fun h => decidesAlike_of_partnerFor hq (hloop.mpr h)⟩

def QueryParams.gender (text : String) : QueryParams := ⟨[("filter_gender_id", text)]⟩

def malformedCalls : List Call := [.connect .up "a" ⟨1⟩ (.plain (.of 1)) (.gender "abc")]

def malformedQueue : State :=
  (handleConnect .up "a" ⟨1⟩ (.plain (.of 1)) (.gender "abc") (.initial .start)).state

theorem malformed_unnoticed_iff_applied :
    QueryParams.empty.filters.WellFormed ∧
      ¬ DecidesAlike .up (handleConnect .up "b" ⟨2⟩ (.plain (.of 2)) .empty malformedQueue)
        (handleConnect .up "b" ⟨2⟩ (.plain (.of 2)) .empty malformedQueue.withoutMalformed) := by
  refine ⟨by decide, fun h => ?_⟩
  have hturned := (malformed_unnoticed_iff _ _ _ _ (by decide) _).mp h [] (.of 1, ⟨1⟩) [] rfl
    (by decide +kernel) (by simp)
  rcases hturned with hself | hrefused
  · exact absurd hself (by decide)
  · rcases hrefused (recordOf (.plain (.of 1)) (.gender "abc")) (by decide +kernel) with h | h
    · exact absurd h (by decide)
    · exact absurd h (by decide +kernel)

theorem malformed_filter_raises :
    ¬ ∀ (clock : Clock) (cs : List Call) (st : State) (net : Net) (hex : String) (ws : Socket)
      (user : User) (query : QueryParams), calls.Run (State.initial clock) cs st →
        query.filters.WellFormed →
          DecidesAlike net (handleConnect net hex ws user query st)
            (handleConnect net hex ws user query st.withoutMalformed) := by
  intro h
  have halike := h Clock.start malformedCalls malformedQueue .up "b" ⟨2⟩ (.plain (.of 2)) .empty
    (Lts.run_of_exec (rfl : Lts.exec _ _ malformedCalls = some _)) (by decide)
  exact absurd (halike.1 fun _ _ => rfl) (by decide +kernel)

end Nalang.Matchmaking
