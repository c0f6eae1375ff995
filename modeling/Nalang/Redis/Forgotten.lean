import Nalang.Redis.Services

/-!
# A logout that takes a record away

`POST /auth/logout` deletes the key it is given, also when this is the record of a user who waits.
The user stays in the queue, and no connect finds him until he connects again.
-/

namespace Nalang.Redis
open Transition
open Matchmaking (UserId Socket CallRecord PyError Effect)

theorem handle_absent {env : Accounts.Env} (h : TokensApart env.jose) {st st' : Accounts.State}
    {req : Accounts.Request} {answer : Accounts.Answer}
    (hst : Accounts.handle env st req = (answer, st')) {key : String} (hkey : ¬ IsTokenKey key)
    (hnone : st.redis.slot key = none) : st'.redis.slot key = none := by
  have heffect := Accounts.effect_of_handle env st req
  rw [hst] at heffect
  cases heffect with
  | refused _ _ => exact hnone
  | tokenless _ _ _ => exact hnone
  | registers _ _ _ _ => exact hnone
  | signsIn _ _ _ htokens =>
    have htoken := Accounts.createTokens_apart h htokens
    exact (ExpiringStore.agreeOff_set htoken key hkey).trans hnone
  | refreshes _ => exact hnone
  | elapses => exact hnone
  | logsOut =>
    rw [Option.eq_none_iff_forall_ne_some] at hnone ⊢
    intro x hx
    exact hnone x (ExpiringStore.slot_of_delete hx)

/-- What is under way for a connection neither stores the record of the user nor has got it. -/
structure Unaware (n : UserId) (s : Matchmaking.Status) : Prop where
  stores : ∀ task record, s ≠ .waiting task (.redisSet n record)
  reads : ∀ rest request, s = .waiting (.connect (.reading n rest)) request →
    request = .redisGet n
  found : s.found ≠ some n

structure Forgotten (n : UserId) (b : Backend) : Prop where
  record : b.redis.slot (userKey n) = none
  unaware : ∀ ws conn, b.matchmaking.conns.get? ws = some conn → Unaware n conn.status

def Away (n : UserId) (b : Backend) : BackendEvent → Prop
  | .waiting (.connect _ user _) => user.id ≠ n
  | .waiting (.act ws _) => ∀ conn, b.matchmaking.conns.get? ws = some conn → conn.user.id ≠ n
  | _ => True

structure PassedOver (n : UserId) (b b' : Backend) : Prop where
  waits : n ∈ b.matchmaking.state.waitingUsers → n ∈ b'.matchmaking.state.waitingUsers
  log : ∃ notes, b'.matchmaking.log = b.matchmaking.log ++ notes ∧
    ∀ ws id ws2 room, .did ws (.claimed id n ws2 room) ∉ notes

section PassedOver
variable {n : UserId} {b b' b'' : Backend}

theorem passedOver_same (h : b'.matchmaking.state.waitingUsers = b.matchmaking.state.waitingUsers)
    (hlog : b'.matchmaking.log = b.matchmaking.log) : PassedOver n b b' where
  waits hn := h ▸ hn
  log := ⟨[], hlog.trans (List.append_nil _).symm, fun _ _ _ _ => List.not_mem_nil⟩

theorem PassedOver.trans (h : PassedOver n b b') (h' : PassedOver n b' b'') :
    PassedOver n b b'' where
  waits hn := h'.waits (h.waits hn)
  log := by
    obtain ⟨notes, hlog, hnot⟩ := h.log
    obtain ⟨notes', hlog', hnot'⟩ := h'.log
    refine ⟨notes ++ notes', by rw [hlog', hlog, List.append_assoc], fun ws id ws2 room hc => ?_⟩
    rcases List.mem_append.mp hc with hc | hc
    · exact hnot ws id ws2 room hc
    · exact hnot' ws id ws2 room hc

end PassedOver

section Steps
variable {env : Accounts.Env} {json : RecordText} {b b' : Backend} {e : BackendEvent} {n : UserId}

theorem perform_absent {redis : ExpiringStore String String} {now : ℕ} {failure : Option PyError}
    {request : Matchmaking.Request} (hnone : redis.slot (userKey n) = none)
    (hset : ∀ record, request ≠ .redisSet n record) :
    (perform json failure now redis request).1.slot (userKey n) = none := by
  cases request with
  | redisSet id record =>
    have hne : userKey n ≠ userKey id := fun he => hset record (by rw [userKey_inj he])
    rw [Option.eq_none_iff_forall_ne_some] at hnone ⊢
    intro x hx
    rcases ExpiringStore.slot_of_set hx with ⟨he, _⟩ | ⟨_, hx⟩
    · exact hne he
    · exact hnone x hx
  | redisDelete id =>
    rw [Option.eq_none_iff_forall_ne_some] at hnone ⊢
    intro x hx
    exact hnone x (ExpiringStore.slot_of_delete hx)
  | send socket event => cases failure <;> exact hnone
  | redisGet id =>
    unfold perform
    dsimp only
    split
    · exact hnone
    · split_ifs
      · exact hnone
      · split <;> exact hnone

theorem perform_get_absent {redis : ExpiringStore String String} {now : ℕ}
    {failure : Option PyError} (hnone : redis.slot (userKey n) = none) :
    (perform json failure now redis (.redisGet n)).2 = .ok none := by
  have hget : redis.get now (userKey n) = none := by
    unfold ExpiringStore.get
    rw [hnone]
  unfold perform
  dsimp only
  rw [hget]

theorem unaware_served {s : Matchmaking.Status} {task : Matchmaking.Task}
    {request : Matchmaking.Request} {redis : ExpiringStore String String} {now : ℕ}
    {failure : Option PyError} (h : Unaware n s) (hs : s = .waiting task request)
    (hnone : redis.slot (userKey n) = none) :
    Unaware n (.ready task (perform json failure now redis request).2) where
  stores _ _ he := by cases he
  reads _ _ he := by cases he
  found he := by
    cases task with
    | connect p =>
      obtain ⟨rest, record, rfl, hreply⟩ := Matchmaking.ConnectPoint.found_eq_some he
      rw [h.reads rest request hs, perform_get_absent hnone] at hreply
      cases hreply
    | event p => cases he
    | onExcept p => cases he
    | onFinally failed p => cases he

theorem unaware_tame {userId : UserId} {found : Option UserId} {st : Matchmaking.State}
    {r : Matchmaking.Reaction} (h : r.Tame userId found st) : Unaware n r.status where
  stores task record := h.request task n record
  reads rest request := h.reads n rest request
  found := by
    cases hs : r.status with
    | ready task reply => exact absurd hs (h.unserved task reply)
    | idle => exact fun he => by cases he
    | waiting task request => exact fun he => by cases he
    | finished failed => exact fun he => by cases he

theorem forgotten_step (h : TokensApart env.jose) (hf : Forgotten n b) (haway : Away n b e)
    (ht : Touches env json b e b') : Forgotten n b' ∧ PassedOver n b b' := by
  cases ht with
  | auth hreq hst =>
    exact ⟨⟨handle_absent h hst (not_isTokenKey_userKey n) hf.record, hf.unaware⟩,
      passedOver_same rfl rfl⟩
  | call hown hs =>
    have hagree := (CallRoutes.CallServer.step_frame (not_users_of_own hown) hs).1
    exact ⟨⟨(hagree _ (not_isWaitingKey_userKey n)).trans hf.record, hf.unaware⟩,
      passedOver_same rfl rfl⟩
  | @serves ws failure conn task request hc hs =>
    have hconn := hf.unaware ws conn hc
    refine ⟨⟨perform_absent hf.record fun record he => hconn.stores task record (he ▸ hs),
      fun ws' conn' hc' => ?_⟩, ⟨id, request.notes ws failure, rfl, fun ws' id ws2 room hn => ?_⟩⟩
    · obtain ⟨_, rfl⟩ | ⟨_, hold⟩ := Matchmaking.get?_reacted.mp hc'
      · exact unaware_served hconn hs hf.record
      · exact hf.unaware ws' conn' hold
    · cases request with
      | send socket event =>
        cases failure with
        | none => exact absurd (List.mem_singleton.mp hn) (fun he => by cases he)
        | some e => exact absurd hn List.not_mem_nil
      | redisSet id record => exact absurd hn List.not_mem_nil
      | redisGet id => exact absurd hn List.not_mem_nil
      | redisDelete id => exact absurd hn List.not_mem_nil
  | @waiting l sys hl hs =>
    cases Matchmaking.steps_of_step hs with
    | @connects ws user query hnew =>
      refine ⟨⟨hf.record, fun ws' conn' hc' => ?_⟩, passedOver_same rfl rfl⟩
      obtain ⟨_, rfl⟩ | ⟨_, hold⟩ := OrderedDict.get?_set_eq_some.mp hc'
      · refine ⟨fun task record he => ?_, (fun _ _ he => by cases he), fun he => by cases he⟩
        cases he
        exact haway rfl
      · exact hf.unaware ws' conn' hold
    | elapses => exact ⟨⟨hf.record, hf.unaware⟩, passedOver_same rfl rfl⟩
    | @acts ws action conn r hc hr =>
      have htame := Matchmaking.tame_of_reacts (Matchmaking.reacts_of_react hr)
        fun failure ha => hl ws failure (ha ▸ rfl)
      have hfound := (hf.unaware ws conn hc).found
      refine ⟨⟨hf.record, fun ws' conn' hc' => ?_⟩, ⟨fun hn => ?_, r.notes, rfl,
        fun ws' id ws2 room hn => hfound (htame.claims ws' id n ws2 room hn)⟩⟩
      · obtain ⟨_, rfl⟩ | ⟨_, hold⟩ := Matchmaking.get?_reacted.mp hc'
        · exact unaware_tame htame
        · exact hf.unaware ws' conn' hold
      · rcases htame.waiting n hn with hn | hn | hn
        · exact hn
        · exact absurd hn.symm (haway conn hc)
        · exact absurd hn hfound

theorem forgotten_run (h : TokensApart env.jose) {b₀ : Backend} {es : List BackendEvent}
    (hf : Forgotten n b₀) (hr : ((backend env json).guard (Away n)).Run b₀ es b) :
    Forgotten n b ∧ PassedOver n b₀ b := by
  refine hr.invariant (fun b => Forgotten n b ∧ PassedOver n b₀ b)
    ⟨hf, passedOver_same rfl rfl⟩ ?_
  intro b e b' hb hstep
  obtain ⟨hnext, hpassed⟩ := forgotten_step h hb.1 hstep.1 (touches_of_step hstep.2)
  exact ⟨hnext, hb.2.trans hpassed⟩

/-- After a logout with the key of his record, a user who waits stays in the queue and is claimed by
nobody, whatever the others do, as long as he only waits. -/
theorem logout_hides_user (h : TokensApart env.jose) {b₀ : Backend} {es : List BackendEvent}
    (hwaits : n ∈ b₀.matchmaking.state.waitingUsers)
    (hunaware : ∀ ws conn, b₀.matchmaking.conns.get? ws = some conn → Unaware n conn.status)
    (hr : ((backend env json).guard (Away n)).Run b₀ (.auth (.logout (userKey n)) :: es) b) :
    n ∈ b.matchmaking.state.waitingUsers ∧ b.redis.get b.now (userKey n) = none ∧
      ∃ notes, b.matchmaking.log = b₀.matchmaking.log ++ notes ∧
        ∀ ws id ws2 room, .did ws (.claimed id n ws2 room) ∉ notes := by
  obtain ⟨b₁, ⟨-, hlogout⟩, hrest⟩ := hr.uncons
  have hstep : some { b₀ with redis := b₀.redis.delete (userKey n) } = some b₁ := hlogout
  cases hstep
  have hforgotten : Forgotten n { b₀ with redis := b₀.redis.delete (userKey n) } :=
    ⟨Function.update_self .., hunaware⟩
  obtain ⟨hf, hpassed⟩ := forgotten_run h hforgotten hrest
  refine ⟨hpassed.waits hwaits, ?_, hpassed.log⟩
  unfold ExpiringStore.get
  rw [hf.record]

end Steps

/-! ### A partner who comes too late -/

def oneWaits (json : RecordText) : Backend where
  users := Accounts.oneUser
  histories := []
  nextId := 1
  sockets := .empty
  matchmaking := ⟨{ Matchmaking.State.initial .start with
      waitingUsers := OrderedDict.empty.set (.of 0) ⟨1⟩ },
    OrderedDict.empty.set ⟨1⟩ ⟨.plain (.of 0), .empty, .idle⟩, []⟩
  redis := ExpiringStore.empty.set 0 (userKey (.of 0)) (json.dumps (plainRecord (.of 0))) 600

def secondConnects : List BackendEvent :=
  .auth (.logout (userKey (.of 0))) ::
    .waiting (.connect ⟨2⟩ (.plain (.of 1)) .empty) ::
    ([.serve none, .goesOn, .serve none, .goesOn].map fun a => .waiting (.act ⟨2⟩ a))

def Backend.away (n : UserId) (b : Backend) : BackendEvent → Bool
  | .waiting (.connect _ user _) => user.id ≠ n
  | .waiting (.act ws _) => (b.matchmaking.conns.get? ws).all fun conn => conn.user.id ≠ n
  | _ => true

theorem away_of_check {n : UserId} (b : Backend) (e : BackendEvent) (h : b.away n e = true) :
    Away n b e := by
  cases e with
  | auth req => trivial
  | call e => trivial
  | waiting l =>
    cases l with
    | connect ws user query => exact (of_decide_eq_true h : user.id ≠ n)
    | elapse seconds today => trivial
    | act ws action =>
      intro conn hc
      simpa [Backend.away, hc] using h

theorem logout_hides_user_applied : ∃ json b,
    json.dumps (plainRecord (.of 0)) = plainText "1" ∧
    json.dumps (plainRecord (.of 1)) = plainText "2" ∧
    ((backend strictEnv json).guard (Away (.of 0))).Run (oneWaits json) secondConnects b ∧
    b.matchmaking.state.waitingUsers.get? (.of 1) = some ⟨2⟩ ∧
    .of 0 ∈ b.matchmaking.state.waitingUsers ∧ b.redis.get b.now (userKey (.of 0)) = none := by
  obtain ⟨json, hfirst, hsecond⟩ := exists_plainText
  obtain ⟨b, hexec, hqueued⟩ : ∃ b, Lts.exec (Lts.checked (Backend.step strictEnv json)
      (Backend.away (.of 0))) (oneWaits json) secondConnects = some b ∧
      b.matchmaking.state.waitingUsers.get? (.of 1) = some ⟨2⟩ := ⟨_, rfl, rfl⟩
  have hr : ((backend strictEnv json).guard (Away (.of 0))).Run (oneWaits json) secondConnects b :=
    Lts.guard_run_of_checked away_of_check hexec
  have hunaware : ∀ ws conn, (oneWaits json).matchmaking.conns.get? ws = some conn →
      Unaware (.of 0) conn.status := by
    intro ws conn hc
    cases List.mem_singleton.mp (OrderedDict.get?_eq_some.mp hc)
    exact ⟨(fun _ _ he => by cases he), (fun _ _ he => by cases he), fun he => by cases he⟩
  obtain ⟨hwaits, hget, -⟩ := logout_hides_user tokensApart_strictJose
    (OrderedDict.mem_of_get? rfl) hunaware hr
  exact ⟨json, b, hfirst, hsecond, hr, hqueued, hwaits, hget⟩

end Nalang.Redis
