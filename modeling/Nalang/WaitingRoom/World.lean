import Nalang.Matchmaking.Interleaving

/-!
# The waiting rooms and the matchmaking server

`WaitingRoom.tsx` with its hook `useCallWebSocket`, the sockets between the pages
and the server, and the interleaved handlers of the server. A state update of React
is rendered some time later, and the render runs the effects. `connect` is a new
function in every render, so the effect on `message` runs in every render.
-/

namespace Nalang.WaitingRoom
open Matchmaking Transition

structure Proposal where
  room : String
  partnerId : UserId
  deriving DecidableEq

structure Component where
  user : UserId
  mounted : Bool
  /-- An update waits to be rendered. -/
  stale : Bool
  socketRef : Option Socket
  connected : Bool
  message : Option ServerEvent
  matchInfo : Option Proposal
  countdown : ℤ
  hasEnteredRoom : Bool
  /-- The cleanup of the effect on `location`, with the `matchInfo` it has captured. -/
  cleanup : Option (Option Proposal)
  /-- What the effect on `countdown` has last seen. -/
  counted : Option (ℤ × Option Proposal)
  timer : Bool
  /-- The rooms for which `enterVoiceRoom` waits for a call token. -/
  entering : List String

def Component.mount (user : UserId) : Component :=
  ⟨user, true, false, none, false, none, none, 10, false, none, some (10, none), false, []⟩

def Component.view (c : Component) : Option Proposal := c.counted.bind Prod.snd

inductive Ready
  | connecting
  | open
  | closing
  | closed
  deriving DecidableEq

structure Link where
  owner : ℕ
  ready : Ready
  /-- The request for the connection has not been answered. -/
  requested : Bool
  toClient : List ServerEvent
  toServer : List Json

def Link.Live (l : Link) : Prop := l.ready = .connecting ∨ l.ready = .open

instance (l : Link) : Decidable l.Live := inferInstanceAs (Decidable (_ ∨ _))

structure World where
  sys : Sys
  components : ℕ → Option Component
  links : Socket → Option Link

namespace World

def initial (clock : Clock) : World := ⟨.initial clock, fun _ => none, fun _ => none⟩

def setComponent (w : World) (id : ℕ) (c : Component) : World :=
  { w with components := Function.update w.components id (some c) }

def setLink (w : World) (s : Socket) (l : Link) : World :=
  { w with links := Function.update w.links s (some l) }

def modify (w : World) (id : ℕ) (f : Component → Component) : World :=
  match w.components id with
  | none => w
  | some c => w.setComponent id (f c)

/-! ### `useCallWebSocket` -/

def connect (w : World) (id : ℕ) (s : Socket) : World :=
  (w.setLink s ⟨id, .connecting, true, [], []⟩).modify id fun c =>
    { c with socketRef := some s, connected := true, stale := c.stale || !c.connected }

def current (w : World) (id : ℕ) : Option (Socket × Link) :=
  match w.components id with
  | none => none
  | some c =>
    match c.socketRef with
    | none => none
    | some s => (w.links s).map fun l => (s, l)

def send (w : World) (id : ℕ) (msg : Json) : World :=
  match w.current id with
  | none => w
  | some (s, l) =>
    if l.ready = .open then w.setLink s { l with toServer := l.toServer ++ [msg] } else w

def disconnect (w : World) (id : ℕ) : World :=
  match w.current id with
  | none => w
  | some (s, l) => if l.Live then w.setLink s { l with ready := .closing, toClient := [] } else w

/-! ### `WaitingRoom` -/

def eventOf (event room : String) : Json := .object [("event", .str event), ("room", .str room)]

/-- The effect on `location`. There is a socket to connect with if there is an access token. -/
def locationEffect (w : World) (id : ℕ) (c : Component) (ws : Option Socket) : World :=
  match ws with
  | none => w.modify id fun c => { c with cleanup := none }
  | some s => (w.connect id s).modify id fun c' => { c' with cleanup := some c.matchInfo }

def runCleanup (w : World) (id : ℕ) (c : Component) : World :=
  match c.cleanup with
  | none => w
  | some captured =>
    match captured with
    | none => w.disconnect id
    | some p =>
      if c.hasEnteredRoom then w.disconnect id
      else (w.send id (eventOf "rejected" p.room)).disconnect id

/-- The search starts again, after 'disconnected' and after 'rejected' in the same way. -/
def reconnect (w : World) (id : ℕ) (ws : Option Socket) : World :=
  let w := w.modify id fun c =>
    { c with
      matchInfo := none
      countdown := 0
      stale := c.stale || c.matchInfo.isSome || c.countdown ≠ 0 }
  match ws with
  | none => w
  | some s => w.connect id s

def messageEffect (w : World) (id : ℕ) (c : Component) (ws : Option Socket) : World :=
  match c.message with
  | none => w
  | some (.matchProposal room partnerId) =>
    if c.matchInfo.map Proposal.room = some room then w
    else w.modify id fun c' =>
      { c' with matchInfo := some ⟨room, partnerId⟩, countdown := 5, stale := true }
  | some .disconnected => w.reconnect id ws
  | some .rejected => w.reconnect id ws
  | some (.matched _) => w

def enterVoiceRoom (w : World) (id : ℕ) (p : Proposal) (accessToken : Bool) : World :=
  if accessToken then
    (w.send id (eventOf "entered" p.room)).modify id fun c =>
      { c with entering := c.entering ++ [p.room] }
  else w

def countdownEffect (w : World) (id : ℕ) (c : Component) (accessToken : Bool) : World :=
  if c.counted = some (c.countdown, c.matchInfo) then w
  else
    let w := w.modify id fun c' =>
      { c' with counted := some (c.countdown, c.matchInfo), timer := false }
    match c.matchInfo with
    | none => w
    | some p =>
      if c.countdown ≤ 0 then
        (w.modify id fun c' => { c' with hasEnteredRoom := true }).enterVoiceRoom id p accessToken
      else w.modify id fun c' => { c' with timer := true }

/-- The component is at another location. The other effects run with the next render. -/
def located (w : World) (id : ℕ) (c : Component) (ws : Option Socket) : World :=
  ((w.runCleanup id c).locationEffect id c ws).modify id fun c' => { c' with stale := true }

def rendered (w : World) (id : ℕ) (c : Component) (ws : Option Socket) : World :=
  let w := (w.setComponent id { c with stale := false }).messageEffect id c ws
  w.countdownEffect id c ws.isSome

def unmounted (w : World) (id : ℕ) (c : Component) : World :=
  (w.runCleanup id c).modify id fun c' => { c' with mounted := false, timer := false }

/-- `handleReject`. The click is rendered at once. -/
def handleReject (w : World) (id : ℕ) (c : Component) (p : Proposal) (ws : Option Socket) : World :=
  let w := w.send id (eventOf "rejected" p.room)
  w.rendered id { c with matchInfo := none, countdown := 0 } ws

def entered (w : World) (id : ℕ) (c : Component) : World :=
  let w := (w.disconnect id).modify id fun c' => { c' with hasEnteredRoom := true }
  if c.mounted then w.unmounted id { c with hasEnteredRoom := true } else w

/-! ### The sockets -/

/-- A frame for a page that has closed its socket is lost. -/
def push (w : World) (s : Socket) (event : ServerEvent) : World :=
  match w.links s with
  | none => w
  | some l => if l.Live then w.setLink s { l with toClient := l.toClient ++ [event] } else w

def onmessage (w : World) (id : ℕ) (event : ServerEvent) : World :=
  w.modify id fun c => if c.mounted then { c with message := some event, stale := true } else c

def onclose (w : World) (id : ℕ) : World :=
  w.modify id fun c =>
    if c.mounted then
      { c with socketRef := none, connected := false, stale := c.stale || c.connected }
    else { c with socketRef := none }

def Fresh (w : World) : Option Socket → Prop
  | none => True
  | some s => (w.links s).isNone ∧ ¬ s ∈ w.sys.conns

instance (w : World) (ws : Option Socket) : Decidable (w.Fresh ws) :=
  match ws with
  | none => inferInstanceAs (Decidable True)
  | some _ => inferInstanceAs (Decidable (_ ∧ _))

def acts (w : World) (s : Socket) (action : Action) : Option World :=
  match w.sys.step (.act s action) with
  | none => none
  | some sys => some { w with sys := sys }

end World

/-- Where a page connects, `none` stands for the lack of an access token. A render may have other
causes than the state of the page, such as the data of the partner. -/
inductive Label
  | mount (id : ℕ) (user : UserId) (ws : Option Socket)
  | locate (id : ℕ) (ws : Option Socket)
  | unmount (id : ℕ)
  | render (id : ℕ) (ws : Option Socket)
  | tick (id : ℕ)
  | reject (id : ℕ) (ws : Option Socket)
  | callToken (id index : ℕ) (granted : Bool)
  | opens (s : Socket)
  | message (s : Socket)
  | closes (s : Socket)
  | accept (s : Socket) (user : User) (query : QueryParams)
  | refuse (s : Socket)
  | receive (s : Socket)
  | serve (s : Socket) (failure : Option PyError)
  | resume (s : Socket) (hex : String) (drift : OrderedDict.Drift String)
  | hangup (s : Socket)
  | elapse (seconds : ℕ) (today : Python.Date)

namespace World

def inComponent (w : World) (id : ℕ) (f : Component → Option World) : Option World :=
  match w.components id with
  | none => none
  | some c => if c.mounted then f c else none

def step (w : World) : Label → Option World
  | .mount id user ws =>
    if (w.components id).isNone ∧ w.Fresh ws then
      let c := Component.mount user
      some ((w.setComponent id c).locationEffect id c ws)
    else none
  | .locate id ws => w.inComponent id fun c =>
    if w.Fresh ws then some (w.located id c ws) else none
  | .unmount id => w.inComponent id fun c => some (w.unmounted id c)
  | .render id ws => w.inComponent id fun c =>
    if w.Fresh ws then some (w.rendered id c ws) else none
  | .tick id => w.inComponent id fun c =>
    if c.timer then
      some (w.setComponent id
        { c with timer := false, countdown := c.countdown - 1, stale := true })
    else none
  | .reject id ws => w.inComponent id fun c =>
    match c.view with
    | none => none
    | some p => if w.Fresh ws then some (w.handleReject id c p ws) else none
  | .callToken id index granted =>
    match w.components id with
    | none => none
    | some c =>
      if index < c.entering.length then
        let c := { c with entering := c.entering.eraseIdx index }
        let w := w.setComponent id c
        some (if granted then w.entered id c else w)
      else none
  | .opens s =>
    match w.links s with
    | none => none
    | some l =>
      if l.ready = .connecting ∧ s ∈ w.sys.conns then some (w.setLink s { l with ready := .open })
      else none
  | .message s =>
    match w.links s with
    | none => none
    | some l =>
      match l.ready, l.toClient with
      | .open, event :: rest =>
        some ((w.setLink s { l with toClient := rest }).onmessage l.owner event)
      | _, _ => none
  | .closes s =>
    match w.links s with
    | none => none
    | some l =>
      if l.ready = .closed then none
      else some ((w.setLink s { l with ready := .closed, toClient := [] }).onclose l.owner)
  | .accept s user query =>
    match w.links s with
    | none => none
    | some l =>
      match w.components l.owner with
      | none => none
      | some c =>
        if l.requested ∧ user.id = c.user then
          match w.sys.step (.connect s user query) with
          | none => none
          | some sys => some ({ w with sys := sys }.setLink s { l with requested := false })
        else none
  | .refuse s =>
    match w.links s with
    | none => none
    | some l => if l.requested then some (w.setLink s { l with requested := false }) else none
  | .receive s =>
    match w.links s with
    | none => none
    | some l =>
      match l.toServer with
      | [] => none
      | msg :: rest => (w.setLink s { l with toServer := rest }).acts s (.message msg)
  | .serve s failure =>
    match w.sys.conns.get? s with
    | none => none
    | some conn =>
      match conn.status, failure with
      | .waiting _ (.send target event), none => (w.push target event).acts s (.serve none)
      | _, _ => w.acts s (.serve failure)
  | .resume s hex drift => w.acts s (.resume hex drift)
  | .hangup s =>
    match w.links s with
    | none => none
    | some l => (w.setLink s { l with toServer := [] }).acts s .hangup
  | .elapse seconds today =>
    match w.sys.step (.elapse seconds today) with
    | none => none
    | some sys => some { w with sys := sys }

end World

def world : Lts World Label := Lts.ofStep World.step

end Nalang.WaitingRoom
