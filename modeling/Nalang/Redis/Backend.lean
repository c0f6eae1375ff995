import Nalang.Matchmaking.Interleaving
import Nalang.Redis.Parts

/-!
# The whole server

The routes of the authentication and of the calls, and the connections of both endpoints, run over
one Redis and one clock.
-/

namespace Nalang.Redis
open Transition
open Matchmaking (UserId Socket CallRecord PyError Reply)

structure Backend where
  users : Accounts.Users
  histories : List CallRoutes.CallHistory
  nextId : ℕ
  sockets : OrderedDict Socket ℕ
  /-- The tables and the connections of `/ws/waiting`. Nothing reads the `redis` of the tables. -/
  matchmaking : Matchmaking.Sys
  redis : ExpiringStore String String

inductive BackendEvent
  | auth (req : Accounts.Request)
  | call (e : CallRoutes.CallEvent)
  | waiting (l : Matchmaking.Label)

/-- A command of the matchmaking. An empty text counts as no value, another one that is no record
raises. -/
def perform (json : RecordText) (failure : Option PyError) (now : ℕ)
    (redis : ExpiringStore String String) :
    Matchmaking.Request → ExpiringStore String String × Reply
  | .redisSet id record => (redis.set now (userKey id) (json.dumps record) 600, .ok none)
  | .redisGet id =>
    match redis.get now (userKey id) with
    | none => (redis, .ok none)
    | some text =>
      if text = "" then (redis, .ok none)
      else
        match json.loads text with
        | none => (redis, .error .valueError)
        | some record => (redis, .ok (some record))
  | .redisDelete id => (redis.delete (userKey id), .ok none)
  | .send _ _ =>
    match failure with
    | none => (redis, .ok none)
    | some e => (redis, .error e)

def isTimed (now : ℕ) : CallRoutes.CallEvent → Bool
  | .request req => req.now = now
  | .connect _ _ t => t = now
  | _ => true

def isOwn : CallRoutes.CallEvent → Bool
  | .users _ => false
  | _ => true

namespace Backend

def now (b : Backend) : ℕ := b.matchmaking.state.clock.now

def authState (b : Backend) : Accounts.State := ⟨b.users, b.redis, b.now⟩

def callState (b : Backend) : CallRoutes.CallServer :=
  ⟨⟨b.users, b.histories, b.nextId, b.redis⟩, b.sockets⟩

def waiting (b : Backend) (json : RecordText) : Matchmaking.Sys :=
  { b.matchmaking with
    state := { b.matchmaking.state with redis := json.codec.view b.redis } }

def serve (json : RecordText) (b : Backend) (ws : Socket) (failure : Option PyError) :
    Option Backend :=
  match b.matchmaking.conns.get? ws with
  | none => none
  | some conn =>
    match conn.status with
    | .waiting task request =>
      let r := perform json failure b.now b.redis request
      some { b with
        redis := r.1
        matchmaking := b.matchmaking.reacted ws conn
          ⟨b.matchmaking.state, .ready task r.2, request.notes ws failure⟩ }
    | _ => none

/-- Between two commands the matchmaking has nothing to do with Redis. -/
def step (env : Accounts.Env) (json : RecordText) (b : Backend) : BackendEvent → Option Backend
  | .auth (.elapse _) => none
  | .auth req =>
    let st := (Accounts.handle env b.authState req).2
    some { b with users := st.users, redis := st.redis }
  | .call e =>
    if isTimed b.now e ∧ isOwn e then
      (b.callState.step env e).map fun s => { b with
        histories := s.state.histories
        nextId := s.state.nextId
        redis := s.state.redis
        sockets := s.sockets }
    else none
  | .waiting (.act ws (.serve failure)) => b.serve json ws failure
  | .waiting l => ((b.waiting json).step l).map fun sys => { b with matchmaking := sys }

end Backend

def backend (env : Accounts.Env) (json : RecordText) : Lts Backend BackendEvent :=
  .ofStep (Backend.step env json)

/-! ### What an event does -/

inductive Touches (env : Accounts.Env) (json : RecordText) (b : Backend) :
    BackendEvent → Backend → Prop
  | auth {req : Accounts.Request} {answer : Accounts.Answer} {st : Accounts.State}
      (hreq : ∀ seconds, req ≠ .elapse seconds)
      (hst : Accounts.handle env b.authState req = (answer, st)) :
      Touches env json b (.auth req) { b with users := st.users, redis := st.redis }
  | call {e : CallRoutes.CallEvent} {s : CallRoutes.CallServer} (hown : isOwn e = true)
      (hs : b.callState.step env e = some s) :
      Touches env json b (.call e) { b with
        histories := s.state.histories
        nextId := s.state.nextId
        redis := s.state.redis
        sockets := s.sockets }
  | serves {ws : Socket} {failure : Option PyError} {conn : Matchmaking.Conn}
      {task : Matchmaking.Task} {request : Matchmaking.Request}
      (hc : b.matchmaking.conns.get? ws = some conn) (hs : conn.status = .waiting task request) :
      Touches env json b (.waiting (.act ws (.serve failure))) { b with
        redis := (perform json failure b.now b.redis request).1
        matchmaking := b.matchmaking.reacted ws conn ⟨b.matchmaking.state,
          .ready task (perform json failure b.now b.redis request).2, request.notes ws failure⟩ }
  | waiting {l : Matchmaking.Label} {sys : Matchmaking.Sys}
      (hl : ∀ ws failure, l ≠ .act ws (.serve failure))
      (hs : Matchmaking.interleaved.step (b.waiting json) l sys) :
      Touches env json b (.waiting l) { b with matchmaking := sys }

variable {env : Accounts.Env} {json : RecordText} {b b' : Backend} {e : BackendEvent}

theorem touches_auth {req : Accounts.Request}
    (h : b.step env json (.auth req) = some b') : Touches env json b (.auth req) b' := by
  by_cases hreq : ∃ seconds, req = .elapse seconds
  · obtain ⟨seconds, rfl⟩ := hreq
    cases h
  · have hstep : b.step env json (.auth req) = some { b with
        users := (Accounts.handle env b.authState req).2.users
        redis := (Accounts.handle env b.authState req).2.redis } := by
      cases req <;> first | rfl | exact absurd ⟨_, rfl⟩ hreq
    rw [hstep] at h
    cases h
    exact .auth (fun seconds he => hreq ⟨seconds, he⟩) rfl

theorem touches_serve {ws : Socket} {failure : Option PyError}
    (h : b.serve json ws failure = some b') :
    Touches env json b (.waiting (.act ws (.serve failure))) b' := by
  unfold Backend.serve at h
  cases hc : b.matchmaking.conns.get? ws with
  | none =>
    rw [hc] at h
    cases h
  | some conn =>
    rw [hc] at h
    dsimp only at h
    cases hs : conn.status with
    | waiting task request =>
      rw [hs] at h
      cases h
      exact .serves hc hs
    | idle =>
      rw [hs] at h
      cases h
    | ready task reply =>
      rw [hs] at h
      cases h
    | finished failed =>
      rw [hs] at h
      cases h

theorem touches_of_step (h : (backend env json).step b e b') : Touches env json b e b' := by
  have hstep : b.step env json e = some b' := h
  cases e with
  | auth req => exact touches_auth hstep
  | call e =>
    unfold Backend.step at hstep
    dsimp only at hstep
    split_ifs at hstep with hok
    cases hs : b.callState.step env e with
    | none =>
      rw [hs] at hstep
      cases hstep
    | some s =>
      rw [hs] at hstep
      cases hstep
      exact .call hok.2 hs
  | waiting l =>
    by_cases hserve : ∃ ws failure, l = .act ws (.serve failure)
    · obtain ⟨ws, failure, rfl⟩ := hserve
      exact touches_serve hstep
    · have hplain : b.step env json (.waiting l) =
          ((b.waiting json).step l).map fun sys => { b with matchmaking := sys } := by
        cases l with
        | connect ws user query => rfl
        | elapse seconds today => rfl
        | act ws action => cases action <;> first | rfl | exact absurd ⟨_, _, rfl⟩ hserve
      rw [hplain] at hstep
      cases hs : (b.waiting json).step l with
      | none =>
        rw [hs] at hstep
        cases hstep
      | some sys =>
        rw [hs] at hstep
        cases hstep
        exact .waiting (fun ws failure he => hserve ⟨ws, failure, he⟩) hs

end Nalang.Redis
