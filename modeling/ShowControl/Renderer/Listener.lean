import ShowControl.Renderer.Service

/-!
# A renderer that controllers connect to

Controllers are served one at a time in the order in which they connect. What the others send waits
until their turn comes, and the state goes from one to the next. The turn of a controller ends when
it hangs up or its service does.
-/

namespace ShowControl

/-- A controller that has connected. -/
structure Caller where
  peer : String
  /-- What it has sent and has not been answered. -/
  inbox : Inbox := {}

/-- What a listener does that its callers can see. -/
inductive ListenerOutput where
  /-- It writes a line to a caller. -/
  | line (peer text : String)
  /-- It closes the connection with a caller. -/
  | closed (peer : String)
  deriving DecidableEq, Repr

/-- The lines that are written to a caller, in order. -/
def ListenerOutput.linesTo (peer : String) (outputs : List ListenerOutput) : List String :=
  outputs.filterMap fun
    | .line recipient text => if recipient = peer then some text else none
    | .closed _ => none

/-- A state and the callers in the order in which they have connected; the first is served. -/
structure Listener (σ : Type) where
  state : σ
  callers : List Caller := []
  isOpen : Bool := true

namespace Listener

variable {σ : Type} (h : Handler σ)

/-- A caller whose turn it is has sent these bytes: the state after them, the caller if its turn
goes on, and the outputs. -/
def serve (state : σ) (c : Caller) (bytes : ByteArray) :
    σ × Option Caller × List ListenerOutput :=
  let (service, replies) := { state, inbox := c.inbox : Service σ }.receive h bytes
  let lines := replies.map (.line c.peer)
  if service.isOpen then (service.state, some { c with inbox := service.inbox }, lines)
  else (service.state, none, lines ++ [.closed c.peer])

/-- Lets callers have their turns until the turn of one goes on: the state, the callers that are
left, and the outputs. -/
def advance (state : σ) : List Caller → σ × List Caller × List ListenerOutput
  | [] => (state, [], [])
  | c :: rest =>
    match serve h state c .empty with
    | (state, some c, outputs) => (state, c :: rest, outputs)
    | (state, none, outputs) =>
      let (state, callers, more) := advance state rest
      (state, callers, outputs ++ more)

/-- It is the turn of this peer. -/
def serves (l : Listener σ) (peer : String) : Bool := l.callers.head?.any fun c ↦ c.peer = peer

/-- A controller connects; tells whether it could. -/
def accept (l : Listener σ) (peer : String) : Listener σ × Bool :=
  if l.isOpen && l.callers.all fun c ↦ c.peer ≠ peer then
    ({ l with callers := l.callers ++ [{ peer }] }, true)
  else (l, false)

/-- Bytes arrive from a controller. -/
def receive (l : Listener σ) (peer : String) (bytes : ByteArray) :
    Listener σ × List ListenerOutput :=
  match l.callers with
  | [] => (l, [])
  | c :: rest =>
    if c.peer = peer then
      match serve h l.state c bytes with
      | (state, some c, outputs) => ({ l with state, callers := c :: rest }, outputs)
      | (state, none, outputs) =>
        let (state, callers, more) := advance h state rest
        ({ l with state, callers }, outputs ++ more)
    else
      let rest := rest.map fun c ↦
        if c.peer = peer then { c with inbox := c.inbox.append bytes } else c
      ({ l with callers := c :: rest }, [])

/-- A controller hangs up. What it has sent and has not been answered is lost. So this stands only
for controllers that wait until they have been served: what another has written before it hung up
would still be read when its turn comes. -/
def hangUp (l : Listener σ) (peer : String) : Listener σ × List ListenerOutput :=
  match l.callers with
  | [] => (l, [])
  | c :: rest =>
    if c.peer = peer then
      let (state, callers, outputs) := advance h l.state rest
      ({ l with state, callers }, outputs)
    else ({ l with callers := c :: rest.filter fun c ↦ c.peer ≠ peer }, [])

/-- Stops to listen and closes all connections. -/
def stop (l : Listener σ) : Listener σ × List ListenerOutput :=
  ({ l with callers := [], isOpen := false }, l.callers.map fun c ↦ .closed c.peer)

end Listener

end ShowControl
