import Mathlib.Data.Countable.Basic
import Mathlib.Logic.Equiv.List
import Nalang.Accounts.Sessions
import Nalang.Matchmaking.Calls
import Nalang.Matchmaking.Commands
import Nalang.Redis.Backend

/-!
# Three services over one Redis

What one of the services does over the one Redis is what it does over a Redis of its own, unless
somebody logs out with a string that is no token.
-/

namespace Nalang.Redis
open Transition
open Matchmaking (UserId Socket CallRecord PyError)

variable {env : Accounts.Env} {json : RecordText} {b b' : Backend} {e : BackendEvent}

/-! ### What a service sees -/

namespace Backend

def accounts (b : Backend) : Accounts.State := b.authState.apart

def calls (b : Backend) : CallRoutes.CallServer := b.callState.apart

end Backend

namespace BackendEvent

/-- Nobody logs out with a key that is not for tokens. -/
def Proper : BackendEvent → Prop
  | .auth (.logout token) => IsTokenKey token
  | _ => True

def authRequest : BackendEvent → Option Accounts.Request
  | .auth req => some req
  | .waiting (.elapse seconds _) => some (.elapse seconds)
  | _ => none

def callEvent : BackendEvent → Option CallRoutes.CallEvent
  | .call e => some e
  | _ => none

def waitingLabel : BackendEvent → Option Matchmaking.Label
  | .waiting l => some l
  | _ => none

end BackendEvent

def IsUserKey (key : String) : Prop := ∃ id, key = userKey id

def BackendEvent.Keys : BackendEvent → String → Prop
  | .auth _ => IsTokenKey
  | .call _ => IsWaitingKey
  | .waiting _ => IsUserKey

def Readable (json : RecordText) (redis : ExpiringStore String String) : Prop :=
  ∀ id text expiry, redis.slot (userKey id) = some (text, expiry) →
    ∃ record, json.loads text = some record

section Keys
variable {redis redis' : ExpiringStore String String}

theorem not_isTokenKey_userKey (id : UserId) : ¬ IsTokenKey (userKey id) :=
  not_not_intro (isCallKey_userKey id)

theorem not_isUserKey_of_token {key : String} (h : IsTokenKey key) : ¬ IsUserKey key := by
  rintro ⟨id, rfl⟩
  exact not_isTokenKey_userKey id h

theorem not_isUserKey_of_waiting {key : String} (h : IsWaitingKey key) : ¬ IsUserKey key := by
  rintro ⟨id, rfl⟩
  exact not_isWaitingKey_userKey id h

theorem not_isTokenKey_of_waiting {key : String} (h : IsWaitingKey key) : ¬ IsTokenKey key :=
  not_not_intro (isCallKey_of_waiting h)

theorem Readable.of_agreeOff {P : String → Prop} (h : Readable json redis)
    (hagree : redis.AgreeOff P redis') (hdisjoint : ∀ id, ¬ P (userKey id)) :
    Readable json redis' := by
  intro id text expiry hslot
  rw [hagree _ (hdisjoint id)] at hslot
  exact h id text expiry hslot

theorem perform_agreeOff (failure : Option PyError) (now : ℕ) (redis : ExpiringStore String String)
    (request : Matchmaking.Request) :
    redis.AgreeOff IsUserKey (perform json failure now redis request).1 := by
  cases request with
  | redisSet id record => exact ExpiringStore.agreeOff_set ⟨id, rfl⟩
  | redisDelete id => exact ExpiringStore.agreeOff_delete ⟨id, rfl⟩
  | send socket event => cases failure <;> exact .refl _
  | redisGet id =>
    unfold perform
    dsimp only
    split
    · exact .refl _
    · split_ifs
      · exact .refl _
      · split <;> exact .refl _

theorem Readable.perform (h : Readable json redis) (failure : Option PyError) (now : ℕ)
    (request : Matchmaking.Request) :
    Readable json (perform json failure now redis request).1 := by
  cases request with
  | redisSet id record =>
    intro id' text expiry hslot
    rcases ExpiringStore.slot_set.mp hslot with ⟨_, hslot⟩ | ⟨_, htext⟩
    · exact h id' text expiry hslot
    · cases htext
      exact ⟨record, json.loads_dumps record⟩
  | redisDelete id =>
    intro id' text expiry hslot
    exact h id' text expiry (ExpiringStore.slot_of_delete hslot)
  | send socket event => cases failure <;> exact h
  | redisGet id =>
    unfold Redis.perform
    dsimp only
    split
    · exact h
    · split_ifs
      · exact h
      · split <;> exact h

theorem perform_view (h : Readable json redis) (failure : Option PyError)
    (st : Matchmaking.State) (request : Matchmaking.Request) :
    request.perform failure { st with redis := json.codec.view redis } =
      ({ st with redis := json.codec.view (perform json failure st.clock.now redis request).1 },
        (perform json failure st.clock.now redis request).2) := by
  cases request with
  | redisSet id record =>
    have hset : json.codec.view (redis.set st.clock.now (userKey id) (json.dumps record) 600) =
        (json.codec.view redis).set st.clock.now id record 600 := ExpiringStore.Codec.view_set
    unfold perform
    rw [hset]
    rfl
  | redisDelete id =>
    have hdelete : json.codec.view (redis.delete (userKey id)) =
        (json.codec.view redis).delete id := ExpiringStore.Codec.view_delete
    unfold perform
    rw [hdelete]
    rfl
  | send socket event => cases failure <;> rfl
  | redisGet id =>
    have hget : (json.codec.view redis).get st.clock.now id =
        (redis.get st.clock.now (userKey id)).bind json.loads := ExpiringStore.Codec.view_get
    have hleft : Matchmaking.Request.perform failure { st with redis := json.codec.view redis }
        (.redisGet id) = ({ st with redis := json.codec.view redis },
          .ok ((redis.get st.clock.now (userKey id)).bind json.loads)) := by
      rw [← hget]
      rfl
    rw [hleft]
    unfold perform
    dsimp only
    cases hvalue : redis.get st.clock.now (userKey id) with
    | none => rfl
    | some text =>
      obtain ⟨expiry, hslot⟩ := ExpiringStore.slot_of_get hvalue
      obtain ⟨record, hrecord⟩ := h id text expiry hslot
      have hne : text ≠ "" := by
        rintro rfl
        rw [json.loads_empty] at hrecord
        cases hrecord
      dsimp only [Option.bind_some]
      rw [if_neg hne, hrecord]

end Keys

theorem not_users_of_own {e : CallRoutes.CallEvent} (h : isOwn e = true) (t : Accounts.Users) :
    e ≠ .users t := by
  intro he
  subst he
  cases h

/-! ### One step, as a service sees it -/

section Steps
variable (h : TokensApart env.jose)
include h

theorem auth_frame {req : Accounts.Request} {answer : Accounts.Answer} {st : Accounts.State}
    (hproper : (BackendEvent.auth req).Proper) (hreq : ∀ seconds, req ≠ .elapse seconds)
    (hst : Accounts.handle env b.authState req = (answer, st)) :
    b.redis.AgreeOff IsTokenKey st.redis ∧ st.now = b.now := by
  refine Accounts.handle_frame h hreq ?_ hst
  intro token he
  subst he
  exact hproper

theorem redis_of_touches (hproper : e.Proper) (ht : Touches env json b e b') :
    b.redis.AgreeOff e.Keys b'.redis := by
  cases ht with
  | @auth req answer st hreq hst =>
    exact (auth_frame h hproper hreq hst).1
  | call hown hs =>
    exact (CallRoutes.CallServer.step_frame (not_users_of_own hown) hs).1
  | serves hc hs => exact perform_agreeOff _ _ _ _
  | waiting hl hs => exact .refl _

theorem accounts_step (hproper : e.Proper) (ht : Touches env json b e b') :
    ∃ entries, (Accounts.routes env).Run b.accounts entries b'.accounts ∧
      entries.filterMap (fun l => some l.1) = e.authRequest.toList := by
  have hredis := redis_of_touches h hproper ht
  cases ht with
  | @auth req answer st hreq hst =>
    have hnow : st.now = b.now := (auth_frame h hproper hreq hst).2
    have hhandle := Accounts.handle_apart h b.authState req
    rw [hst] at hhandle
    have hst' : st.apart = Backend.accounts { b with users := st.users, redis := st.redis } :=
      congrArg (fun now => Accounts.State.apart ⟨st.users, st.redis, now⟩) hnow
    exact ⟨[(req, answer)], .single (hhandle.trans (congrArg (Prod.mk answer) hst')), rfl⟩
  | @call e s hown hs =>
    have hsame : s.state.redis.restrict IsTokenKey = b.redis.restrict IsTokenKey :=
      hredis.restrict_eq fun key ht hw => not_isTokenKey_of_waiting hw ht
    have haccounts := congrArg (fun redis => Accounts.State.mk b.users redis b.now) hsame
    exact ⟨[], .of_eq haccounts, rfl⟩
  | @serves ws failure conn task request hc hs =>
    have hsame : (perform json failure b.now b.redis request).1.restrict IsTokenKey =
        b.redis.restrict IsTokenKey :=
      hredis.restrict_eq fun key ht hu => not_isUserKey_of_token ht hu
    have haccounts := congrArg (fun redis => Accounts.State.mk b.users redis b.now) hsame
    exact ⟨[], .of_eq haccounts, rfl⟩
  | @waiting l sys hl hs =>
    have hframe := Matchmaking.frame_of_step hs hl
    by_cases helapse : ∃ seconds today, l = .elapse seconds today
    · obtain ⟨seconds, today, rfl⟩ := helapse
      cases Matchmaking.steps_of_step hs
      exact ⟨[(.elapse seconds, .ok .done)], Lts.Run.single rfl, rfl⟩
    · have hclock := hframe.2 fun seconds today he => helapse ⟨seconds, today, he⟩
      have hnow : sys.state.clock.now = b.now := congrArg Matchmaking.Clock.now hclock
      have haccounts := congrArg (Accounts.State.mk b.users (b.redis.restrict IsTokenKey)) hnow
      refine ⟨[], .of_eq haccounts, ?_⟩
      cases l with
      | elapse seconds today => exact absurd ⟨_, _, rfl⟩ helapse
      | connect ws user query => rfl
      | act ws action => rfl

theorem calls_step (hproper : e.Proper) (ht : Touches env json b e b') :
    ∃ events, (CallRoutes.callServer env).Run b.calls events b'.calls ∧
      events.filterMap (Option.guard isOwn) = e.callEvent.toList := by
  have hredis := redis_of_touches h hproper ht
  cases ht with
  | @auth req answer st hreq hst =>
    have hsame : st.redis.restrict IsWaitingKey = b.redis.restrict IsWaitingKey :=
      hredis.restrict_eq fun key hw ht => not_isTokenKey_of_waiting hw ht
    have hcalls := congrArg (fun redis => CallRoutes.CallServer.mk
      ⟨st.users, b.histories, b.nextId, redis⟩ b.sockets) hsame
    exact ⟨[.users st.users], .single (congrArg some hcalls.symm), rfl⟩
  | @call e s hown hs =>
    have husers : s.state.users = b.users :=
      (CallRoutes.CallServer.step_frame (not_users_of_own hown) hs).2
    have hstep : b.calls.step env e = (b.callState.step env e).map CallRoutes.CallServer.apart :=
      CallRoutes.CallServer.step_apart b.callState e
    rw [hs] at hstep
    have hcalls := congrArg (fun users => CallRoutes.CallServer.mk ⟨users, s.state.histories,
      s.state.nextId, s.state.redis.restrict IsWaitingKey⟩ s.sockets) husers
    refine ⟨[e], .single (hstep.trans (congrArg some hcalls)), ?_⟩
    simp [Option.guard, hown, BackendEvent.callEvent]
  | @serves ws failure conn task request hc hs =>
    have hsame : (perform json failure b.now b.redis request).1.restrict IsWaitingKey =
        b.redis.restrict IsWaitingKey :=
      hredis.restrict_eq fun key hw hu => not_isUserKey_of_waiting hw hu
    have hcalls := congrArg (fun redis => CallRoutes.CallServer.mk
      ⟨b.users, b.histories, b.nextId, redis⟩ b.sockets) hsame
    exact ⟨[], .of_eq hcalls, rfl⟩
  | waiting hl hs => exact ⟨[], .nil, rfl⟩

theorem waiting_step (hreadable : Readable json b.redis) (hproper : e.Proper)
    (ht : Touches env json b e b') :
    ∃ ls, Matchmaking.interleaved.Run (b.waiting json) ls (b'.waiting json) ∧
      ls.filterMap some = e.waitingLabel.toList := by
  have hredis := redis_of_touches h hproper ht
  cases ht with
  | @auth req answer st hreq hst =>
    have hsame : json.codec.view st.redis = json.codec.view b.redis :=
      ExpiringStore.Codec.AgreeOff.view_eq hredis not_isTokenKey_userKey
    have hwaiting := congrArg (fun redis => { b.matchmaking with
      state := { b.matchmaking.state with redis := redis } }) hsame
    exact ⟨[], .of_eq hwaiting, rfl⟩
  | @call e s hown hs =>
    have hsame : json.codec.view s.state.redis = json.codec.view b.redis :=
      ExpiringStore.Codec.AgreeOff.view_eq hredis not_isWaitingKey_userKey
    have hwaiting := congrArg (fun redis => { b.matchmaking with
      state := { b.matchmaking.state with redis := redis } }) hsame
    exact ⟨[], .of_eq hwaiting, rfl⟩
  | @serves ws failure conn task request hc hs =>
    have hperform := perform_view hreadable failure b.matchmaking.state request
    have hstep : (b.waiting json).step (.act ws (.serve failure)) = some ((b.waiting json).reacted
        ws conn ⟨(request.perform failure (b.waiting json).state).1,
          .ready task (request.perform failure (b.waiting json).state).2,
          request.notes ws failure⟩) := by
      have hlook : (b.waiting json).conns.get? ws = some conn := hc
      simp only [Matchmaking.Sys.step, hlook, Matchmaking.react, hs]
    have hstate : (b.waiting json).state =
        { b.matchmaking.state with redis := json.codec.view b.redis } := rfl
    rw [hstate, hperform] at hstep
    exact ⟨[_], Lts.Run.single hstep, rfl⟩
  | @waiting l sys hl hs =>
    have hframe := (Matchmaking.frame_of_step hs hl).1
    have hsys : Backend.waiting { b with matchmaking := sys } json = sys := by
      unfold Backend.waiting
      dsimp only
      rw [show json.codec.view b.redis = sys.state.redis from hframe.symm]
    exact ⟨[l], .single (hs.trans (congrArg some hsys.symm)), rfl⟩

omit h in
theorem readable_step (h : TokensApart env.jose) (hreadable : Readable json b.redis)
    (hproper : e.Proper) (ht : Touches env json b e b') : Readable json b'.redis := by
  have hredis := redis_of_touches h hproper ht
  cases ht with
  | auth hreq hst => exact hreadable.of_agreeOff hredis not_isTokenKey_userKey
  | call hown hs => exact hreadable.of_agreeOff hredis not_isWaitingKey_userKey
  | serves hc hs => exact hreadable.perform _ _ _
  | waiting hl hs => exact hreadable

end Steps

/-! ### A run of the server -/

structure Split (env : Accounts.Env) (json : RecordText) (b₀ : Backend) (es : List BackendEvent)
    (b : Backend) : Prop where
  accounts : ∃ entries, (Accounts.routes env).Run b₀.accounts entries b.accounts ∧
    entries.map Prod.fst = es.filterMap BackendEvent.authRequest
  calls : ∃ events, (CallRoutes.callServer env).Run b₀.calls events b.calls ∧
    events.filter isOwn = es.filterMap BackendEvent.callEvent
  waiting : Matchmaking.interleaved.Run (b₀.waiting json) (es.filterMap BackendEvent.waitingLabel)
    (b.waiting json)

/-- Over one Redis the three services do what each does over a Redis of its own, and give the same
answers, as long as nobody logs out with a key of the others. -/
theorem services_apart {b₀ : Backend} {es : List BackendEvent} (h : TokensApart env.jose)
    (hreadable : Readable json b₀.redis) (hproper : ∀ e ∈ es, e.Proper)
    (hr : (backend env json).Run b₀ es b) :
    Split env json b₀ es b ∧
      (∀ req, (Accounts.handle env b.authState req).1 = (Accounts.handle env b.accounts req).1) ∧
      ∀ req, (CallRoutes.handle env b.callState.state req).1 =
        (CallRoutes.handle env b.calls.state req).1 := by
  let I : Backend → Prop := fun b => Readable json b.redis
  have hguarded := hr.guard_labels hproper
  have hkeep : ∀ b e b', Readable json b.redis →
      ((backend env json).guard fun _ e => e.Proper).step b e b' → Readable json b'.redis := by
    intro b e b' hb hstep
    exact readable_step h hb hstep.1 (touches_of_step hstep.2)
  have haccounts : ∀ b e b', Readable json b.redis →
      ((backend env json).guard fun _ e => e.Proper).step b e b' →
      ∃ entries, (Accounts.routes env).Run b.accounts entries b'.accounts ∧
        entries.filterMap (fun l => some l.1) = e.authRequest.toList := by
    intro b e b' _ hstep
    exact accounts_step h hstep.1 (touches_of_step hstep.2)
  have hcalls : ∀ b e b', Readable json b.redis →
      ((backend env json).guard fun _ e => e.Proper).step b e b' →
      ∃ events, (CallRoutes.callServer env).Run b.calls events b'.calls ∧
        events.filterMap (Option.guard isOwn) = e.callEvent.toList := by
    intro b e b' _ hstep
    exact calls_step h hstep.1 (touches_of_step hstep.2)
  have hwaiting : ∀ b e b', Readable json b.redis →
      ((backend env json).guard fun _ e => e.Proper).step b e b' →
      ∃ ls, Matchmaking.interleaved.Run (b.waiting json) ls (b'.waiting json) ∧
        ls.filterMap some = e.waitingLabel.toList := by
    intro b e b' hb hstep
    exact waiting_step h hb hstep.1 (touches_of_step hstep.2)
  refine ⟨⟨?_, ?_, ?_⟩, fun req => ?_, fun req => ?_⟩
  · obtain ⟨entries, hrun, hown⟩ := hguarded.projects I hreadable hkeep haccounts
    rw [List.filterMap_eq_map'] at hown
    exact ⟨entries, hrun, hown⟩
  · obtain ⟨events, hrun, hown⟩ := hguarded.projects I hreadable hkeep hcalls
    rw [List.filterMap_eq_filter] at hown
    exact ⟨events, hrun, hown⟩
  · obtain ⟨ls, hrun, hown⟩ := hguarded.projects I hreadable hkeep hwaiting
    rw [List.filterMap_some] at hown
    exact hown ▸ hrun
  · exact (congrArg Prod.fst (Accounts.handle_apart h b.authState req)).symm
  · exact (congrArg Prod.fst (CallRoutes.handle_apart b.callState.state req)).symm

/-! ### A server with one user -/

theorem countable_callRecord : Countable CallRecord := by
  have hchar : Countable Char :=
    Function.Injective.countable (f := Char.toNat) fun _ _ h => Char.toNat_inj.mp h
  have hstring : Countable String :=
    Function.Injective.countable (f := String.toList) fun _ _ h => String.toList_inj.mp h
  apply Function.Injective.countable (f := fun r : CallRecord =>
    ((r.user.id.val, r.user.genderId, r.user.languages, r.user.birthDate),
      (r.filters.genderId, r.filters.languageId, r.filters.minAge, r.filters.maxAge)))
  intro r s h
  obtain ⟨⟨⟨i, hi⟩, g, l, b⟩, f⟩ := r
  obtain ⟨⟨⟨i', hi'⟩, g', l', b'⟩, f'⟩ := s
  cases f
  cases f'
  simp at h
  simp [h]

theorem exists_recordText {r₁ r₂ : CallRecord} {t₁ t₂ : String} (hr : r₁ ≠ r₂) (ht : t₁ ≠ t₂)
    (h₁ : t₁.toList.head? = some '{') (h₂ : t₂.toList.head? = some '{') :
    ∃ json : RecordText, json.dumps r₁ = t₁ ∧ json.dumps r₂ = t₂ := by
  obtain ⟨f, hf⟩ := countable_callRecord.exists_injective_nat
  let other : CallRecord → String := fun r => userKey ⟨f r + 1, Nat.succ_pos _⟩
  let dumps : CallRecord → String := fun r => if r = r₁ then t₁ else if r = r₂ then t₂ else other r
  have hother : Function.Injective other := by
    intro r s h
    have hsucc := congrArg UserId.val (userKey_inj h)
    exact hf (Nat.succ.inj hsucc)
  have hhead : ∀ r, (other r).toList.head? = some 'c' := by
    intro r
    dsimp only [other, userKey]
    rw [String.toList_append]
    rfl
  have hne : ∀ r t, t.toList.head? = some '{' → other r ≠ t := by
    intro r t htext he
    rw [← he, hhead r] at htext
    exact absurd htext (by decide)
  have hdumps : Function.Injective dumps := by
    intro r s h
    dsimp only [dumps] at h
    split_ifs at h with hr₁ hs₁ hs₂ hr₂ hs₁ hs₂ hs₁ hs₂
    · rw [hr₁, hs₁]
    · exact absurd h ht
    · exact absurd h.symm (hne s t₁ h₁)
    · exact absurd h.symm ht
    · rw [hr₂, hs₂]
    · exact absurd h.symm (hne s t₂ h₂)
    · exact absurd h (hne r t₁ h₁)
    · exact absurd h (hne r t₂ h₂)
    · exact hother h
  have hempty : ∀ r, dumps r ≠ "" := by
    intro r he
    have hnone := congrArg (fun t => t.toList.head?) he
    dsimp only [dumps] at hnone
    split_ifs at hnone
    · exact absurd (h₁.symm.trans hnone) (by decide)
    · exact absurd (h₂.symm.trans hnone) (by decide)
    · exact absurd ((hhead r).symm.trans hnone) (by decide)
  let loads : String → Option CallRecord := fun t =>
    if t = "" then none else Function.partialInv dumps t
  have hloads : ∀ r, loads (dumps r) = some r := fun r =>
    (if_neg (hempty r)).trans (Function.partialInv_left hdumps r)
  exact ⟨⟨dumps, loads, hloads, if_pos rfl⟩, if_pos rfl, (if_neg hr.symm).trans (if_pos rfl)⟩

def strictJose : Accounts.Jose where
  encode := Accounts.plainJose.encode
  decode key now token :=
    if IsTokenKey token then Accounts.plainJose.decode key now token else .error .jwtError

theorem tokensApart_strictJose : TokensApart strictJose where
  encodes algorithm key claims token h := by
    change (if algorithm = "HS256" then _ else none) = _ at h
    split_ifs at h
    cases h
    have htext : (String.ofList (Accounts.plainText key claims)).toList =
        Accounts.plainText key claims := String.toList_ofList
    intro hcall
    unfold IsCallKey at hcall
    rw [htext] at hcall
    obtain ⟨rest, hrest⟩ := hcall
    have hsign := (List.cons.inj hrest).1
    split_ifs at hsign with hneg
    · exact absurd hsign (by decide)
    · exact absurd hsign (by decide)
  decodes key now token claims h := by
    change (if IsTokenKey token then _ else Except.error _) = _ at h
    split_ifs at h with htoken
    exact htoken

def strictEnv : Accounts.Env := { Accounts.plainEnv with jose := strictJose }

def kimsServer : Backend := ⟨Accounts.oneUser, [], 1, .empty, .initial .start, .empty⟩

def kimsToken : String :=
  (Accounts.createRefreshToken Accounts.plainEnv 0 (some (toString Accounts.kim.id))).getD ""

def plainRecord (id : UserId) : CallRecord := Matchmaking.recordOf (.plain id) .empty

def plainText (id : String) : String :=
  "\x7b\"user\": \x7b\"id\": " ++ id ++ ", \"gender_id\": null, \"languages\": [], " ++
  "\"birth_date\": null\x7d, \"filters\": \x7b\"gender_id\": null, \"language_id\": null, " ++
  "\"min_age\": null, \"max_age\": null\x7d\x7d"

theorem exists_plainText : ∃ json : RecordText, json.dumps (plainRecord (.of 0)) = plainText "1" ∧
    json.dumps (plainRecord (.of 1)) = plainText "2" := by
  have hhead : ∀ id, (plainText id).toList.head? = some '\x7b' := by
    intro id
    unfold plainText
    simp only [String.toList_append, List.append_assoc]
    rfl
  have hne : plainText "1" ≠ plainText "2" := by
    unfold plainText
    simp only [ne_eq, String.append_left_inj, String.append_right_inj]
    decide
  exact exists_recordText (by decide) hne (hhead _) (hhead _)

def kimsEvents : List BackendEvent :=
  [.auth Accounts.kimLogsIn, .call (.connect ⟨1⟩ 1 0),
    .waiting (.connect ⟨1⟩ (.plain (.of 0)) .empty), .waiting (.act ⟨1⟩ (.serve none)),
    .waiting (.act ⟨1⟩ .goesOn), .waiting (.elapse 5 Matchmaking.Clock.start.today),
    .auth (.logout kimsToken)]

theorem kimsEvents_proper : ∀ e ∈ kimsEvents, e.Proper := by
  intro e he
  simp only [kimsEvents, List.mem_cons, List.not_mem_nil, or_false] at he
  rcases he with rfl | rfl | rfl | rfl | rfl | rfl | rfl
  all_goals first | trivial | exact (by decide +kernel : IsTokenKey kimsToken)

theorem services_apart_applied : ∃ json b, (backend strictEnv json).Run kimsServer kimsEvents b ∧
    json.dumps (plainRecord (.of 0)) = plainText "1" ∧
    Split strictEnv json kimsServer kimsEvents b ∧ b.redis.get b.now kimsToken = none ∧
      b.matchmaking.state.waitingUsers.get? (.of 0) = some ⟨1⟩ := by
  obtain ⟨json, hdumps, -⟩ := exists_plainText
  have hreadable : Readable json kimsServer.redis := fun _ _ _ hslot => by cases hslot
  obtain ⟨b, hexec, hget, hwaits⟩ : ∃ b,
      Lts.exec (Backend.step strictEnv json) kimsServer kimsEvents = some b ∧
      b.redis.get b.now kimsToken = none ∧
      b.matchmaking.state.waitingUsers.get? (.of 0) = some ⟨1⟩ := ⟨_, rfl, rfl, rfl⟩
  have hr : (backend strictEnv json).Run kimsServer kimsEvents b := Lts.run_of_exec hexec
  exact ⟨json, b, hr, hdumps,
    (services_apart tokensApart_strictJose hreadable kimsEvents_proper hr).1, hget, hwaits⟩

end Nalang.Redis
