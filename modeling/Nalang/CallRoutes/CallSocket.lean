import Nalang.CallRoutes.Routes
import Nalang.Matchmaking.Server

/-!
# The endpoint `call_websocket`

An open connection marks its user as waiting for a call. The message `cancel` and the end of the
connection take the mark away, whoever has set it.
-/

namespace Nalang.CallRoutes
open Accounts Transition
open Matchmaking (Socket PyError)

structure CallServer where
  state : State
  sockets : OrderedDict Socket ℕ

/-- `failure` is what the answer to a message raises, `users` a change of the table by other
routes. -/
inductive CallEvent
  | request (req : Request)
  | connect (ws : Socket) (userId now : ℕ)
  | text (ws : Socket) (data : String) (failure : Option PyError)
  | close (ws : Socket)
  | users (t : Users)

def setMark (now userId : ℕ) (st : State) : State :=
  { st with redis := st.redis.set now ("call:waiting:" ++ toString userId) "waiting" 600 }

def deleteMark (userId : ℕ) (st : State) : State :=
  { st with redis := st.redis.delete ("call:waiting:" ++ toString userId) }

namespace CallServer

/-- Only `WebSocketDisconnect` is caught. -/
def step (env : Env) (s : CallServer) : CallEvent → Option CallServer
  | .request req => some { s with state := (handle env s.state req).2 }
  | .connect ws userId now =>
    if ws ∈ s.sockets then none
    else some ⟨setMark now userId s.state, s.sockets.set ws userId⟩
  | .text ws data failure =>
    match s.sockets.get? ws with
    | none => none
    | some userId =>
      let st := if data = "cancel" then deleteMark userId s.state else s.state
      match failure with
      | none => some { s with state := st }
      | some .webSocketDisconnect => some ⟨deleteMark userId st, s.sockets.erase ws⟩
      | some _ => some ⟨st, s.sockets.erase ws⟩
  | .close ws =>
    match s.sockets.get? ws with
    | none => none
    | some userId => some ⟨deleteMark userId s.state, s.sockets.erase ws⟩
  | .users t => some { s with state := { s.state with users := t } }

end CallServer

def callServer (env : Env) : Lts CallServer CallEvent := .ofStep (CallServer.step env)

end Nalang.CallRoutes
