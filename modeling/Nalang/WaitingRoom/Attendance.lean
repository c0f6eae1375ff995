import Nalang.WaitingRoom.Reactions
import Nalang.WaitingRoom.World

/-!
# Who shows the search and who is searched for

A waiting room that shows the search has its user in the queue, or an update to
render, or a socket with something under way: a frame, a connect that has not
decided, or a proposal that is about to be sent. `Careful` says of a step that
takes one of these away that another one is left.
-/

namespace Nalang.WaitingRoom
open Matchmaking Transition

namespace Component

/-- An update will be rendered with a message from the server. -/
def Updates (c : Component) : Prop := c.stale ∧ c.message ≠ none

def Drops (c : Component) (s : Socket) : Prop := c.cleanup ≠ none ∧ c.socketRef = some s

end Component

def Label.reacts : Label → Option (Socket × Action)
  | .serve s failure => some (s, .serve failure)
  | .resume s hex drift => some (s, .resume hex drift)
  | .hangup s => some (s, .hangup)
  | _ => none

abbrev everySocket (_ : Socket) : Prop := True

namespace World
variable (w : World)

def Owns (id : ℕ) (s : Socket) : Prop := ∃ l, w.links s = some l ∧ l.owner = id ∧ l.Live

/-- The view is the search, and there is a socket that is not closed. -/
structure Searches (id : ℕ) (c : Component) : Prop where
  mounted : c.mounted
  matchInfo : c.matchInfo = none
  linked : ∃ s, w.Owns id s

def Registered (c : Component) : Prop := c.user ∈ w.sys.state.waitingUsers

inductive Pending (s : Socket) (l : Link) (announcers : Socket → Prop) : Prop
  | frame (h : l.toClient ≠ [])
  | unanswered (h : ¬ s ∈ w.sys.conns)
  | unsettled {conn : Conn} (hc : w.sys.conns.get? s = some conn) (h : conn.status.Unsettled)
  | announced {ws : Socket} {conn : Conn} (hc : w.sys.conns.get? ws = some conn)
      (h : conn.status.Announces s) (hws : announcers ws)

/-- A socket of the page in `own` has something under way, where the proposals of the connections
in `announcers` count. -/
def UnderWay (id : ℕ) (own announcers : Socket → Prop) : Prop :=
  ∃ s l, w.links s = some l ∧ l.owner = id ∧ l.Live ∧ own s ∧ w.Pending s l announcers

def Attended (id : ℕ) (c : Component) : Prop :=
  w.Registered c ∨ c.Updates ∨ w.UnderWay id everySocket everySocket

/-- No step takes from a waiting room the last thing by which its search is known to the server. -/
structure Careful (l : Label) : Prop where
  /-- `handle_disconnect` begins for a socket of the page that shows the search. -/
  departure : ∀ ws action conn, l.reacts = some (ws, action) → w.sys.conns.get? ws = some conn →
    conn.Departs w.sys.state action → ∀ id c, w.components id = some c → w.Searches id c →
      c.user = conn.user.id → w.Owns id ws ∨ c.Updates ∨ w.UnderWay id everySocket everySocket
  /-- A user is claimed on a socket of the page that shows the search. -/
  claim : ∀ ws action conn otherId ws2, l.reacts = some (ws, action) →
    w.sys.conns.get? ws = some conn → conn.Claims w.sys.state otherId action →
    w.sys.state.waitingUsers.get? otherId = some ws2 → ∀ id c, w.components id = some c →
      w.Searches id c → c.user = otherId →
        w.Owns id ws2 ∨ c.Updates ∨ w.UnderWay id everySocket everySocket
  /-- The send of a proposal succeeds. -/
  failure : ∀ ws e conn s, l = .serve ws (some e) → w.sys.conns.get? ws = some conn →
    conn.status.Announces s → ∀ id c, w.components id = some c → w.Searches id c →
      w.Owns id s → w.Owns id ws ∨ w.Registered c ∨ c.Updates ∨
        w.UnderWay id everySocket fun ws' => ws' ≠ ws
  /-- The client that loses a socket connects again. -/
  closing : ∀ s, l = .closes s → ∀ id c, w.components id = some c → w.Searches id c →
    w.Owns id s → (∃ s', s' ≠ s ∧ w.Owns id s') → w.Registered c ∨
      ((c.stale ∨ c.connected) ∧ c.message ≠ none) ∨ w.UnderWay id (fun s' => s' ≠ s) everySocket
  /-- The client that has to connect again has an access token. -/
  token : ∀ id c, l = .render id none ∨ l = .reject id none → w.components id = some c →
    (∃ s, w.Owns id s) → c.message = some .rejected ∨ c.message = some .disconnected →
      w.Registered c ∨ w.UnderWay id everySocket everySocket
  /-- So has the client that closes its socket for another location. -/
  relocation : ∀ id c, l = .locate id none → w.components id = some c → w.Searches id c →
    (∃ s, ¬ c.Drops s ∧ w.Owns id s) →
      w.Registered c ∨ c.message ≠ none ∨ w.UnderWay id (fun s => ¬ c.Drops s) everySocket

/-- No frame is in flight, no handler runs, and every page shows the state that it is in. -/
structure Quiet : Prop where
  handlers : ∀ s conn, w.sys.conns.get? s = some conn →
    conn.status = .idle ∨ ∃ failed, conn.status = .finished failed
  frames : ∀ s l, w.links s = some l → l.requested = false ∧ l.toClient = [] ∧ l.toServer = []
  sockets : ∀ s l, w.links s = some l →
    (l.ready = .open ∧ ∃ conn, w.sys.conns.get? s = some conn ∧ conn.status = .idle) ∨
      l.ready = .closed ∧ ∀ conn, w.sys.conns.get? s = some conn →
        ∃ failed, conn.status = .finished failed
  rendered : ∀ id c, w.components id = some c → c.mounted → c.stale = false

end World
end Nalang.WaitingRoom
