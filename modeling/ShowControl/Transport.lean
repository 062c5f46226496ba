import ShowControl.Frame.Inbox

/-!
# Connections and their failures

Two programs talk over a connection: each writes frames and takes in what the other has written.
Here a connection is what one of them knows of it. Nothing of the network itself is modelled:
whether a connection could be made, what arrived over it and whether a line could be written are
arguments of the operations that need to know.
-/

namespace ShowControl

/-! ### Failures -/

/-- Why a frame could not be written or read. -/
inductive StreamError where
  | tooLarge (reason : FrameTooLarge)
  /-- The system reported this. -/
  | system (reason : String)
  deriving DecidableEq, Repr

/-- The wording that is shown to operators. -/
def StreamError.message : StreamError → String
  | .tooLarge reason => reason.message
  | .system reason => reason

/-- Why a program cannot talk to its peer. -/
inductive TransportError where
  /-- There is no connection to be had with this address. -/
  | connectFailed (address reason : String)
  | sendFailed (reason : StreamError)
  | receiveFailed (reason : StreamError)
  | notConnected
  /-- The peer has hung up. -/
  | closed
  | timedOut
  deriving DecidableEq, Repr

/-- The wording that is shown to operators. -/
def TransportError.message : TransportError → String
  | .connectFailed address reason => "failed to connect to " ++ address ++ ": " ++ reason
  | .sendFailed reason => "send failed: " ++ reason.message
  | .receiveFailed reason => "receive failed: " ++ reason.message
  | .notConnected => "not connected"
  | .closed => "connection closed"
  | .timedOut => "timed out"

/-- What an attempt to connect comes to if there is no connection. -/
inductive DialError where
  /-- The system reported this. -/
  | refused (reason : String)
  | timedOut
  deriving DecidableEq, Repr

/-- The failure to connect to an address. -/
def DialError.at (address : String) : DialError → TransportError
  | .refused reason => .connectFailed address reason
  | .timedOut => .timedOut

/-- What the writing of a line comes to if it fails. -/
inductive WriteError where
  /-- The system reported this. -/
  | refused (reason : String)
  /-- The peer does not take the line in time. -/
  | timedOut
  deriving DecidableEq, Repr

/-- The failure to send. -/
def WriteError.toTransport : WriteError → TransportError
  | .refused reason => .sendFailed (.system reason)
  | .timedOut => .timedOut

/-! ### What arrives -/

/-- What arrives over a connection: some bytes, and perhaps the end of the stream. -/
structure Arrival where
  bytes : ByteArray := .empty
  /-- The stream ends after the bytes. -/
  ends : Bool := false
  /-- What the system reports if the stream ends because the connection breaks; the peer hangs up
  otherwise. -/
  fault : Option String := none

/-- What the writing of a line comes to: the report of the system if it cannot be written, else what
arrives from the peer that has it. -/
abbrev Reaction := String → Except String Arrival

/-- A peer that remembers: its reaction to the last of these lines. -/
abbrev Peer := List String → Except String Arrival

/-- The incoming half of a connection. -/
structure Incoming where
  inbox : Inbox := {}
  /-- The stream has ended. -/
  ended : Bool := false
  /-- What the system has reported if the connection has broken. -/
  fault : Option String := none

/-- What there is to be read. -/
inductive Received where
  /-- Nothing yet. -/
  | waiting
  /-- The next line with content. -/
  | line (text : ByteArray)
  /-- A line over the limit. -/
  | tooLarge (reason : FrameTooLarge)
  /-- The end of the stream. -/
  | ended
  /-- The connection has broken; the system reported this. -/
  | broken (reason : String)

namespace Incoming

/-- Takes in what arrives. Nothing arrives after the end. -/
def arrive (s : Incoming) (a : Arrival) : Incoming :=
  if s.ended then s
  else { inbox := s.inbox.append a.bytes, ended := a.ends, fault := a.fault }

/-- What there is to be read at the end of the stream. -/
def atEnd (s : Incoming) : Received :=
  match s.fault with
  | none => .ended
  | some reason => .broken reason

/-- Takes the next line with content. -/
def next (s : Incoming) : Incoming × Received :=
  if s.ended then
    match s.inbox.nextAtEnd with
    | (inbox, .nothing) => ({ s with inbox }, s.atEnd)
    | (inbox, .line text) => ({ s with inbox }, .line text)
    | (inbox, .tooLarge size) => ({ s with inbox }, .tooLarge ⟨size⟩)
  else
    match s.inbox.next with
    | (inbox, .nothing) => ({ s with inbox }, .waiting)
    | (inbox, .line text) => ({ s with inbox }, .line text)
    | (inbox, .tooLarge size) => ({ s with inbox }, .tooLarge ⟨size⟩)

end Incoming

end ShowControl
