import ShowControl.Registry.Event
import ShowControl.Registry.SessionTable
import ShowControl.Transducer
import ShowControl.Transport

/-!
# The registry of renderers

Renderers connect to the registry, introduce themselves and are kept by their names; messages then
go to all of them or to one. A connection is known by the address of its peer. The first line on
it decides: a hello with a name that is free is acknowledged, and everything else is answered by
an error and ends the connection. The lines that follow report the outcome of commands.

Each operation gives the registry that follows and its outputs in order. Whether lines can be
written to a peer is an argument, in that `block` may come before any other operation. A line that
cannot be written, or is too large for a frame, ends the connection it was meant for.

The end of a session may be noticed in several places: where a line cannot be written, where the
registry stops, and always where the reading of its connection ends. It is reported by the one that
finds it in the table.
-/

namespace ShowControl

/-- How far a connection has come. -/
inductive Standing where
  /-- The first line has not come yet. -/
  | greeting
  | registered (name : String)
  deriving DecidableEq, Repr

/-- An open connection of the registry. -/
structure RegistryConnection where
  standing : Standing := .greeting
  inbox : Inbox := {}
  /-- Why no line can be written to the peer, if none can. -/
  fault : Option WriteError := none

/-- The registry: where it listens, if it does, its open connections by peer, and the sessions of
the renderers that are registered, whose ids are their peers. -/
structure Registry where
  port : Option Nat := none
  connections : Catalog RegistryConnection := ∅
  table : SessionTable String := {}

/-- Why a message cannot be sent to a renderer. -/
inductive RegistryError where
  | unknownRenderer (name : String)
  | transport (reason : TransportError)
  deriving DecidableEq, Repr

/-- The wording that is shown to operators. -/
def RegistryError.message : RegistryError → String
  | .unknownRenderer name => "no renderer named '" ++ name ++ "' is registered"
  | .transport reason => reason.message

namespace Registry

variable (r : Registry)

/-- The registry accepts connections. -/
def isRunning : Bool := r.port.isSome

/-- The names of the registered renderers, in order. -/
def names : List String := r.table.names

/-- How many renderers are registered. -/
def size : Nat := r.table.size

/-! ### Connections -/

/-- A peer connects; tells whether it could. -/
def accept (peer : String) : Registry × Bool :=
  if r.isRunning && !r.connections.contains peer then
    ({ r with connections := r.connections.insert peer {} }, true)
  else (r, false)

/-- From now on no line can be written to a peer. -/
def block (peer : String) (fault : WriteError) : Registry :=
  match r.connections.find? peer with
  | none => r
  | some c => { r with connections := r.connections.insert peer { c with fault := some fault } }

/-- Why no line can be written to a peer, if none can. -/
def fault? (peer : String) : Option WriteError :=
  (r.connections.find? peer).bind RegistryConnection.fault

/-- The line of a message, if it can be written to a peer. -/
def line? (peer : String) (m : Message) : Except TransportError String :=
  match m.line?, r.fault? peer with
  | .error reason, _ => .error (.sendFailed (.tooLarge reason))
  | .ok _, some fault => .error fault.toTransport
  | .ok line, none => .ok line

/-- Takes a session off the table. Its end is reported if it was there. -/
def release (s : Session String) : Registry × List RegistryOutput :=
  let (table, wasThere) := r.table.remove s
  ({ r with table }, if wasThere then [.event (.disconnected s.name)] else [])

/-- The reading of a connection ends: it is forgotten, and the session that it has is released. -/
def forget (peer : String) : Registry × List RegistryOutput :=
  match r.connections.find? peer with
  | none => (r, [])
  | some c =>
    let r := { r with connections := r.connections.erase peer }
    match c.standing with
    | .greeting => (r, [])
    | .registered name => r.release ⟨peer, name⟩

/-- Ends a connection, if it is open. -/
def drop (peer : String) : Registry × List RegistryOutput :=
  if r.connections.contains peer then
    let (r, outputs) := r.forget peer
    (r, .closed peer :: outputs)
  else (r, [])

/-- Ends a session to which a line could not be written. It is released, and released again when the
reading of its connection ends. -/
def dismiss (s : Session String) : Registry × List RegistryOutput :=
  let (r, reported) := r.release s
  let (r, last) := r.forget s.id
  (r, .closed s.id :: reported ++ last)

/-- Refuses a connection that has not been registered. The refusal is sent if it can be written. -/
def reject (peer : String) (rejection : Rejection) : Registry × List RegistryOutput :=
  let line := match r.line? peer rejection.reply with
    | .ok line => [.line peer line]
    | .error _ => []
  ({ r with connections := r.connections.erase peer },
    line ++ [.closed peer, .event (.rejected rejection.reason.message)])

/-- Registers a connection, unless the name is taken or the acknowledgment cannot be written. -/
def register (peer : String) (c : RegistryConnection) (wish : Introduction) :
    Registry × List RegistryOutput :=
  match r.table.insert ⟨peer, wish.name⟩ with
  | .error reason => r.reject peer ⟨wish.commandId, reason⟩
  | .ok table =>
    match r.line? peer (.ack wish.commandId) with
    | .error _ =>
      let (table, _) := table.remove ⟨peer, wish.name⟩
      ({ r with connections := r.connections.erase peer, table }, [.closed peer])
    | .ok line =>
      let c := { c with standing := .registered wish.name }
      ({ r with connections := r.connections.insert peer c, table },
        [.line peer line, .event (.registered wish.name)])

/-- Takes the next line of a peer. A line that follows the end of its connection is ignored. -/
def takeLine (peer : String) (r : Registry) (line : ByteArray) : Registry × List RegistryOutput :=
  match r.connections.find? peer with
  | none => (r, [])
  | some c =>
    match c.standing with
    | .registered name => (r, ((RegistryEvent.ofLine? name line).map .event).toList)
    | .greeting =>
      match Introduction.ofLine line with
      | .ok wish => r.register peer c wish
      | .error rejection => r.reject peer rejection

/-- Bytes arrive from a peer. A line over the limit ends the connection. -/
def receive (peer : String) (bytes : ByteArray) : Registry × List RegistryOutput :=
  match r.connections.find? peer with
  | none => (r, [])
  | some c =>
    let (inbox, lines, oversized) := (c.inbox.append bytes).drain
    let r := { r with connections := r.connections.insert peer { c with inbox } }
    let (r, outputs) := Transducer.run (takeLine peer) r lines
    match oversized with
    | none => (r, outputs)
    | some _ =>
      let (r, last) := r.drop peer
      (r, outputs ++ last)

/-- A peer hangs up. An unfinished line is lost. -/
def hangUp (peer : String) : Registry × List RegistryOutput := r.forget peer

/-- The time for the first line of a peer is over. -/
def timeOut (peer : String) : Registry × List RegistryOutput :=
  match (r.connections.find? peer).map RegistryConnection.standing with
  | some .greeting => r.reject peer ⟨handshakeId, .timedOut⟩
  | _ => (r, [])

/-! ### Starting and stopping -/

/-- Starts to listen, unless it does already; `bound` is the port that the system gives, if it gives
one. The answer is the port where the registry listens. -/
def start (bound : Option Nat) : Registry × Option Nat :=
  match r.port, bound with
  | some port, _ => (r, some port)
  | none, some port => ({ r with port := some port, table := r.table.reopen }, some port)
  | none, none => (r, none)

/-- Stops to listen and closes all connections. The sessions are off the table before the reading
of their connections ends, so it is here that their ends are reported. -/
def stop : Registry × List RegistryOutput :=
  if r.isRunning then
    let (table, sessions) := r.table.closeAndDrain
    let (r, outputs) := Transducer.run drop { r with port := none, table } r.connections.keys
    (r, outputs ++ sessions.map fun s ↦ .event (.disconnected s.name))
  else (r, [])

/-! ### Sending -/

/-- Sends a message to the renderer with a name. -/
def send (name : String) (m : Message) :
    Registry × List RegistryOutput × Except RegistryError Unit :=
  match r.table.find? name with
  | none => (r, [], .error (.unknownRenderer name))
  | some peer =>
    match r.line? peer m with
    | .ok line => (r, [.line peer line], .ok ())
    | .error reason =>
      let (r, outputs) := r.dismiss ⟨peer, name⟩
      (r, outputs, .error (.transport reason))

/-- Sends a message to all renderers; tells to how many it could. The sessions that it does not
reach are dismissed when it has been written to the others. -/
def broadcast (m : Message) : Registry × List RegistryOutput × Nat :=
  let lines := r.table.sessions.filterMap fun s ↦ (r.line? s.id m).toOption.map (.line s.id)
  let unreached := r.table.sessions.filter fun s ↦ (r.line? s.id m).toOption.isNone
  let (r, outputs) := Transducer.run dismiss r unreached
  (r, lines ++ outputs, lines.length)

end Registry

end ShowControl
