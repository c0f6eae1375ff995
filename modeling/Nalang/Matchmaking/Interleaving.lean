import Nalang.Library.Transition
import Nalang.Matchmaking.Coroutines

/-!
# Interleaved connections

The connections share the tables. Between two `await`s the code of one of them
runs alone; a request is served, and the coroutine that waits for it resumed, at
any later time. The log notes what the handlers did.
-/

namespace Nalang.Matchmaking
open Python Transition

/-- Where `websocket_waiting` is suspended. A failure of `handle_disconnect` in the `except` block
goes through the `finally` block. -/
inductive Task
  | connect (point : ConnectPoint)
  | event (point : EventPoint)
  | onExcept (point : DisconnectPoint)
  | onFinally (failed : Option PyError) (point : DisconnectPoint)

/-- `idle` is the wait for the next message, `finished` tells how `handle_disconnect` ended. -/
inductive Status
  | idle
  | waiting (task : Task) (request : Request)
  | ready (task : Task) (reply : Reply)
  | finished (failed : Option PyError)

structure Conn where
  user : User
  query : QueryParams
  status : Status

inductive Note
  | did (ws : Socket) (effect : Effect)
  | sent (ws : Socket) (socket : Socket) (event : ServerEvent)
  | raised (ws : Socket) (e : PyError)
  deriving DecidableEq

structure Sys where
  state : State
  conns : OrderedDict Socket Conn
  log : List Note

inductive Action
  | message (msg : Json)
  | hangup
  | serve (failure : Option PyError)
  | resume (hex : String) (drift : OrderedDict.Drift String)

inductive Label
  | connect (ws : Socket) (user : User) (query : QueryParams)
  | act (ws : Socket) (action : Action)
  | elapse (seconds : ℕ) (today : Date)

structure Reaction where
  state : State
  status : Status
  notes : List Note

/-! ### `websocket_waiting` -/

section Endpoint
variable (userId : UserId)

def afterFinally (failed : Option PyError) (t : Turn DisconnectPoint) : Reaction :=
  match t.next with
  | .awaits request p => ⟨t.state, .waiting (.onFinally failed p) request, []⟩
  | .returns => ⟨t.state, .finished failed, []⟩
  | .raises e => ⟨t.state, .finished (some e), []⟩

def afterExcept (t : Turn DisconnectPoint) : Reaction :=
  match t.next with
  | .awaits request p => ⟨t.state, .waiting (.onExcept p) request, []⟩
  | .returns => afterFinally none (disconnectStart userId t.state)
  | .raises e => afterFinally (some e) (disconnectStart userId t.state)

/-- The `try` block is left, by an exception or because the client has closed. -/
def leave (raised : Option PyError) (st : State) : Reaction :=
  if raised = some .webSocketDisconnect then afterExcept userId (disconnectStart userId st)
  else afterFinally none (disconnectStart userId st)

def Turn.notes {π : Type} (ws : Socket) (t : Turn π) : List Note :=
  t.effects.map (.did ws) ++
    match t.next with
    | .raises e => [.raised ws e]
    | _ => []

def settle {π : Type} (ws : Socket) (task : π → Task) (t : Turn π) : Reaction :=
  match t.next with
  | .awaits request p => ⟨t.state, .waiting (task p) request, t.notes ws⟩
  | .returns => ⟨t.state, .idle, t.notes ws⟩
  | .raises e => { leave userId (some e) t.state with notes := t.notes ws }

end Endpoint

def Request.notes (ws : Socket) (failure : Option PyError) : Request → List Note
  | .send socket event => if failure.isNone then [.sent ws socket event] else []
  | _ => []

def resumeTask (hex : String) (drift : OrderedDict.Drift String) (ws : Socket) (conn : Conn)
    (reply : Reply) (st : State) : Task → Reaction
  | .connect p =>
    settle conn.user.id ws .connect (connectResume hex ws conn.user conn.query p reply st)
  | .event p => settle conn.user.id ws .event (eventResume conn.user.id p reply st)
  | .onExcept p => afterExcept conn.user.id (disconnectResume conn.user.id drift p reply st)
  | .onFinally failed p => afterFinally failed (disconnectResume conn.user.id drift p reply st)

def react (ws : Socket) (conn : Conn) (st : State) : Action → Option Reaction
  | .message msg =>
    match conn.status with
    | .idle => some (settle conn.user.id ws .event (eventStart conn.user.id msg st))
    | _ => none
  | .hangup =>
    match conn.status with
    | .idle => some (leave conn.user.id none st)
    | _ => none
  | .serve failure =>
    match conn.status with
    | .waiting task request =>
      let r := request.perform failure st
      some ⟨r.1, .ready task r.2, request.notes ws failure⟩
    | _ => none
  | .resume hex drift =>
    match conn.status with
    | .ready task reply => some (resumeTask hex drift ws conn reply st task)
    | _ => none

namespace Sys

def initial (clock : Clock) : Sys := ⟨State.initial clock, .empty, []⟩

def reacted (sys : Sys) (ws : Socket) (conn : Conn) (r : Reaction) : Sys :=
  ⟨r.state, sys.conns.set ws { conn with status := r.status }, sys.log ++ r.notes⟩

def step (sys : Sys) : Label → Option Sys
  | .connect ws user query =>
    if ws ∈ sys.conns then none
    else
      let r := settle user.id ws .connect (connectStart user query sys.state)
      some ⟨r.state, sys.conns.set ws ⟨user, query, r.status⟩, sys.log ++ r.notes⟩
  | .act ws action =>
    match sys.conns.get? ws with
    | none => none
    | some conn =>
      match react ws conn sys.state action with
      | none => none
      | some r => some (sys.reacted ws conn r)
  | .elapse seconds today =>
    some { sys with state := { sys.state with clock := ⟨sys.state.clock.now + seconds, today⟩ } }

end Sys

def interleaved : Lts Sys Label := Lts.ofStep Sys.step

/-! ### What a step does -/

inductive Steps (sys : Sys) : Label → Sys → Prop
  | connects {ws : Socket} {user : User} {query : QueryParams} (hnew : ¬ ws ∈ sys.conns) :
      Steps sys (.connect ws user query)
        { sys with
          conns := sys.conns.set ws ⟨user, query,
            .waiting (.connect .storing) (.redisSet user.id (recordOf user query))⟩ }
  | acts {ws : Socket} {action : Action} {conn : Conn} {r : Reaction}
      (hc : sys.conns.get? ws = some conn) (hr : react ws conn sys.state action = some r) :
      Steps sys (.act ws action) (sys.reacted ws conn r)
  | elapses {seconds : ℕ} {today : Date} :
      Steps sys (.elapse seconds today)
        { sys with state := { sys.state with clock := ⟨sys.state.clock.now + seconds, today⟩ } }

theorem get?_reacted {sys : Sys} {ws ws' : Socket} {conn conn' : Conn} {r : Reaction} :
    (sys.reacted ws conn r).conns.get? ws' = some conn' ↔
      (ws' = ws ∧ conn' = { conn with status := r.status }) ∨
        (ws' ≠ ws ∧ sys.conns.get? ws' = some conn') :=
  OrderedDict.get?_set_eq_some

theorem steps_of_step {sys sys' : Sys} {l : Label} (h : interleaved.step sys l sys') :
    Steps sys l sys' := by
  have hstep : sys.step l = some sys' := h
  cases l with
  | connect ws user query =>
    by_cases hnew : ws ∈ sys.conns
    · simp [Sys.step, hnew] at hstep
    · simp only [Sys.step, hnew, if_false, settle, connectStart, Turn.notes, List.map_nil,
        List.append_nil, Option.some.injEq] at hstep
      subst hstep
      exact .connects hnew
  | act ws action =>
    cases hc : sys.conns.get? ws with
    | none => simp [Sys.step, hc] at hstep
    | some conn =>
      cases hr : react ws conn sys.state action with
      | none => simp [Sys.step, hc, hr] at hstep
      | some r =>
        simp only [Sys.step, hc, hr, Option.some.injEq] at hstep
        subst hstep
        exact .acts hc hr
  | elapse seconds today =>
    rw [Sys.step, Option.some.injEq] at hstep
    subst hstep
    exact .elapses

theorem log_of_step {sys sys' : Sys} {l : Label} (hstep : interleaved.step sys l sys') :
    ∃ notes, sys'.log = sys.log ++ notes := by
  cases steps_of_step hstep with
  | connects => exact ⟨[], (List.append_nil _).symm⟩
  | elapses => exact ⟨[], (List.append_nil _).symm⟩
  | acts => exact ⟨_, rfl⟩

inductive Reacts (ws : Socket) (conn : Conn) (st : State) : Action → Reaction → Prop
  | message {msg : Json} (hs : conn.status = .idle) :
      Reacts ws conn st (.message msg)
        (settle conn.user.id ws .event (eventStart conn.user.id msg st))
  | hangup (hs : conn.status = .idle) : Reacts ws conn st .hangup (leave conn.user.id none st)
  | serve {failure : Option PyError} {task : Task} {request : Request}
      (hs : conn.status = .waiting task request) :
      Reacts ws conn st (.serve failure)
        ⟨(request.perform failure st).1, .ready task (request.perform failure st).2,
          request.notes ws failure⟩
  | resume {hex : String} {drift : OrderedDict.Drift String} {task : Task} {reply : Reply}
      (hs : conn.status = .ready task reply) :
      Reacts ws conn st (.resume hex drift) (resumeTask hex drift ws conn reply st task)

theorem reacts_of_react {ws : Socket} {conn : Conn} {st : State} {action : Action} {r : Reaction}
    (h : react ws conn st action = some r) : Reacts ws conn st action r := by
  cases hs : conn.status with
  | idle =>
    cases action with
    | message msg =>
      simp only [react, hs, Option.some.injEq] at h
      exact h ▸ .message hs
    | hangup =>
      simp only [react, hs, Option.some.injEq] at h
      exact h ▸ .hangup hs
    | serve failure => simp [react, hs] at h
    | resume hex drift => simp [react, hs] at h
  | waiting task request =>
    cases action with
    | message msg => simp [react, hs] at h
    | hangup => simp [react, hs] at h
    | serve failure =>
      simp only [react, hs, Option.some.injEq] at h
      exact h ▸ .serve hs
    | resume hex drift => simp [react, hs] at h
  | ready task reply =>
    cases action with
    | message msg => simp [react, hs] at h
    | hangup => simp [react, hs] at h
    | serve failure => simp [react, hs] at h
    | resume hex drift =>
      simp only [react, hs, Option.some.injEq] at h
      exact h ▸ .resume hs
  | finished failed =>
    cases action with
    | message msg => simp [react, hs] at h
    | hangup => simp [react, hs] at h
    | serve failure => simp [react, hs] at h
    | resume hex drift => simp [react, hs] at h

/-! ### Leaving the `try` block -/

def Status.Leaving : Status → Prop
  | .waiting (.onExcept _) _ => True
  | .waiting (.onFinally _ _) _ => True
  | .ready (.onExcept _) _ => True
  | .ready (.onFinally _ _) _ => True
  | .finished _ => True
  | _ => False

structure Reaction.Leaves (r : Reaction) : Prop where
  status : r.status.Leaving
  notes : r.notes = []

theorem afterFinally_leaves (failed : Option PyError) (t : Turn DisconnectPoint) :
    (afterFinally failed t).Leaves := by
  obtain ⟨st, effects, next⟩ := t
  cases next with
  | awaits request p => exact ⟨trivial, rfl⟩
  | returns => exact ⟨trivial, rfl⟩
  | raises e => exact ⟨trivial, rfl⟩

theorem afterExcept_leaves (userId : UserId) (t : Turn DisconnectPoint) :
    (afterExcept userId t).Leaves := by
  obtain ⟨st, effects, next⟩ := t
  cases next with
  | awaits request p => exact ⟨trivial, rfl⟩
  | returns => exact afterFinally_leaves _ _
  | raises e => exact afterFinally_leaves _ _

theorem leave_leaves (userId : UserId) (raised : Option PyError) (st : State) :
    (leave userId raised st).Leaves := by
  unfold leave
  split_ifs
  · exact afterExcept_leaves _ _
  · exact afterFinally_leaves _ _

theorem unraised_of_settle {π : Type} {userId : UserId} {ws : Socket} {task : π → Task} {t : Turn π}
    (h : ¬ (settle userId ws task t).status.Leaving) (ws' : Socket) (e : PyError) :
    .raised ws' e ∉ (settle userId ws task t).notes := by
  obtain ⟨st, effects, next⟩ := t
  cases next with
  | awaits request p => simp [settle, Turn.notes]
  | returns => simp [settle, Turn.notes]
  | raises e => exact absurd (leave_leaves _ _ _).status h

theorem unraised_of_reacts {ws : Socket} {conn : Conn} {st : State} {action : Action} {r : Reaction}
    (h : Reacts ws conn st action r) (hs : ¬ r.status.Leaving) (ws' : Socket) (e : PyError) :
    .raised ws' e ∉ r.notes := by
  cases h with
  | message _ => exact unraised_of_settle hs ws' e
  | hangup _ => exact absurd (leave_leaves _ _ _).status hs
  | @serve failure task request _ =>
    cases request with
    | send socket event => cases failure <;> simp [Request.notes]
    | redisSet id record => simp [Request.notes]
    | redisGet id => simp [Request.notes]
    | redisDelete id => simp [Request.notes]
  | @resume hex drift task reply _ =>
    cases task with
    | connect p => exact unraised_of_settle hs ws' e
    | event p => exact unraised_of_settle hs ws' e
    | onExcept p => exact absurd (afterExcept_leaves _ _).status hs
    | onFinally failed p => exact absurd (afterFinally_leaves _ _).status hs

def Action.goesOn : Action := .resume "b" ⟨[], false⟩

end Nalang.Matchmaking
