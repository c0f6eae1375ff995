import Nalang.Matchmaking.Calls

/-!
# The endpoint `websocket_waiting`

A connection is served by `handle_connect`, then by one `handle_receive_event`
for each message, and at its end by `handle_disconnect`, which runs a second
time when the handler was left by `WebSocketDisconnect`. A user may have several
connections.
-/

namespace Nalang.Matchmaking
open Python Transition

/-- After an exception only calls of `handle_disconnect` are left. -/
inductive Phase
  | live
  | ending (again : Bool)
  deriving DecidableEq

structure Connection where
  user : User
  phase : Phase

structure Server where
  state : State
  connections : OrderedDict Socket Connection

inductive Input
  | connect (net : Net) (hex : String) (ws : Socket) (user : User) (query : QueryParams)
  | message (net : Net) (ws : Socket) (msg : Json)
  | close (net : Net) (ws : Socket)
  | elapse (seconds : ℕ) (today : Date)

def afterHandler (raised : Option PyError) : Phase :=
  match raised with
  | none => .live
  | some e => .ending (e = .webSocketDisconnect)

namespace Server

def initial (clock : Clock) : Server := ⟨State.initial clock, .empty⟩

def step (sv : Server) : Input → Option Server
  | .connect net hex ws user query =>
    if ws ∈ sv.connections then none
    else
      let o := handleConnect net hex ws user query sv.state
      some ⟨o.state, sv.connections.set ws ⟨user, afterHandler o.raised⟩⟩
  | .message net ws msg =>
    match sv.connections.get? ws with
    | some ⟨user, .live⟩ =>
      let o := handleReceiveEvent net user.id msg sv.state
      some ⟨o.state, sv.connections.set ws ⟨user, afterHandler o.raised⟩⟩
    | _ => none
  | .close net ws =>
    match sv.connections.get? ws with
    | none => none
    | some ⟨user, phase⟩ =>
      let o := handleDisconnect net user.id sv.state
      match phase with
      | .ending true => some ⟨o.state, sv.connections.set ws ⟨user, .ending false⟩⟩
      | _ => some ⟨o.state, sv.connections.erase ws⟩
  | .elapse seconds today =>
    some { sv with state := { sv.state with clock := ⟨sv.state.clock.now + seconds, today⟩ } }

def Open (sv : Server) (ws : Socket) (id : UserId) : Prop :=
  ∃ conn, sv.connections.get? ws = some conn ∧ conn.user.id = id

end Server

def server : Lts Server Input := Lts.ofStep Server.step

inductive Serves (sv : Server) : Input → Call → Server → Prop
  | connects {net : Net} {hex : String} {ws : Socket} {user : User} {query : QueryParams}
      {sv' : Server} {phase : Phase} (hnew : ¬ ws ∈ sv.connections)
      (hs : sv'.state = (handleConnect net hex ws user query sv.state).state)
      (hc : sv'.connections = sv.connections.set ws ⟨user, phase⟩) :
      Serves sv (.connect net hex ws user query) (.connect net hex ws user query) sv'
  | receives {net : Net} {ws : Socket} {msg : Json} {user : User} {sv' : Server} {phase : Phase}
      (hopen : sv.Open ws user.id)
      (hs : sv'.state = (handleReceiveEvent net user.id msg sv.state).state)
      (hc : sv'.connections = sv.connections.set ws ⟨user, phase⟩) :
      Serves sv (.message net ws msg) (.receive net user.id msg) sv'
  | ends {net : Net} {ws : Socket} {user : User} {sv' : Server} (hopen : sv.Open ws user.id)
      (hs : sv'.state = (handleDisconnect net user.id sv.state).state)
      (hc : sv'.connections = sv.connections.set ws ⟨user, .ending false⟩ ∨
        sv'.connections = sv.connections.erase ws) :
      Serves sv (.close net ws) (.disconnect net user.id) sv'
  | elapses {seconds : ℕ} {today : Date} {sv' : Server}
      (hs : sv'.state = { sv.state with clock := ⟨sv.state.clock.now + seconds, today⟩ })
      (hc : sv'.connections = sv.connections) :
      Serves sv (.elapse seconds today) (.elapse seconds today) sv'

theorem serves_of_step {sv sv' : Server} {i : Input} (h : server.step sv i sv') :
    ∃ c, Serves sv i c sv' := by
  have hstep : sv.step i = some sv' := h
  cases i with
  | connect net hex ws user query =>
    by_cases hnew : ws ∈ sv.connections
    · simp [Server.step, hnew] at hstep
    · simp only [Server.step, hnew, if_false, Option.some.injEq] at hstep
      subst hstep
      exact ⟨_, .connects hnew rfl rfl⟩
  | message net ws msg =>
    rcases hg : sv.connections.get? ws with _ | ⟨user, phase⟩
    · simp [Server.step, hg] at hstep
    · cases phase with
      | ending again => simp [Server.step, hg] at hstep
      | live =>
        simp only [Server.step, hg, Option.some.injEq] at hstep
        subst hstep
        exact ⟨_, .receives ⟨_, hg, rfl⟩ rfl rfl⟩
  | close net ws =>
    rcases hg : sv.connections.get? ws with _ | ⟨user, phase⟩
    · simp [Server.step, hg] at hstep
    · have hopen : sv.Open ws user.id := ⟨_, hg, rfl⟩
      simp only [Server.step, hg] at hstep
      split at hstep
      · rw [Option.some.injEq] at hstep
        subst hstep
        exact ⟨_, .ends hopen rfl (.inl rfl)⟩
      · rw [Option.some.injEq] at hstep
        subst hstep
        exact ⟨_, .ends hopen rfl (.inr rfl)⟩
  | elapse seconds today =>
    rw [Server.step, Option.some.injEq] at hstep
    subst hstep
    exact ⟨_, .elapses rfl rfl⟩

theorem Serves.call_step {sv sv' : Server} {i : Input} {c : Call} (h : Serves sv i c sv') :
    calls.step sv.state c sv'.state := by
  rw [calls_step]
  cases h with
  | connects _ hs _ => exact hs
  | receives _ hs _ => exact hs
  | ends _ hs _ => exact hs
  | elapses hs _ => exact hs

theorem calls_run_of_server {sv₀ sv : Server} {is : List Input} (hr : server.Run sv₀ is sv) :
    ∃ cs, calls.Run sv₀.state cs sv.state := by
  induction hr with
  | nil => exact ⟨[], .nil⟩
  | snoc _ hs ih =>
    obtain ⟨cs, hcs⟩ := ih
    obtain ⟨c, hc⟩ := serves_of_step hs
    exact ⟨cs ++ [c], hcs.snoc hc.call_step⟩

theorem roomsShaped_of_server {clock : Clock} {sv : Server} {is : List Input}
    (hr : server.Run (.initial clock) is sv) : RoomsShaped sv.state := by
  obtain ⟨cs, hcs⟩ := calls_run_of_server hr
  exact roomsShaped_of_run hcs

end Nalang.Matchmaking
