import ShowControl.Message.Wire
import ShowControl.Transport

/-!
# The controller's end of a connection

A controller writes a command and reads the next line that comes back. It answers for the order of
things: the lines of the peer are taken one after the other, each once, whether or not they are what
the controller waits for. A failure to write or read ends the connection; a line that is no message,
a refusal and a reply to something else do not.
-/

namespace ShowControl

/-- Why an exchange with a renderer fails. -/
inductive ClientError where
  | transport (reason : TransportError)
  /-- The reply is no message. -/
  | decode (reason : DecodeError)
  /-- The renderer refuses the command. -/
  | rejected (commandId message : String)
  /-- The reply is of this type, or answers another command. -/
  | unexpectedReply (commandId : String) (type : MessageType)
  deriving DecidableEq, Repr

/-- The wording that is shown to operators. -/
def ClientError.message : ClientError → String
  | .transport reason => reason.message
  | .decode reason => "undecodable reply: " ++ reason.message
  | .rejected commandId message => "renderer rejected command " ++ commandId ++ ": " ++ message
  | .unexpectedReply commandId type =>
    "unexpected " ++ type.text ++ " reply to command " ++ commandId

/-- A controller's knowledge of its connection to the renderer at an address, if there is one. -/
structure Client where
  address : String
  connection : Option Incoming := none

namespace Client

variable (c : Client)

/-- There is a connection. -/
def isConnected : Bool := c.connection.isSome

/-- The client without a connection. -/
def disconnect : Client := { c with connection := none }

/-- Connects, unless there is a connection. What an attempt comes to is an argument. -/
def connect (dialed : Except DialError Unit) : Client × Except ClientError Unit :=
  match c.connection, dialed with
  | some _, _ => (c, .ok ())
  | none, .ok () => ({ c with connection := some {} }, .ok ())
  | none, .error reason => (c, .error (.transport (reason.at c.address)))

/-- Takes in what arrives. -/
def arrive (a : Arrival) : Client :=
  { c with connection := c.connection.map fun s ↦ s.arrive a }

/-- Writes the line of a message. The lines that have been written are given with the result. -/
def send (m : Message) (reaction : Reaction) : Client × List String × Except ClientError Unit :=
  match c.connection with
  | none => (c, [], .error (.transport .notConnected))
  | some s =>
    match m.line? with
    | .error reason => (c.disconnect, [], .error (.transport (.sendFailed (.tooLarge reason))))
    | .ok line =>
      match reaction line with
      | .error reason => (c.disconnect, [], .error (.transport (.sendFailed (.system reason))))
      | .ok a => ({ c with connection := some (s.arrive a) }, [line], .ok ())

/-- Reads the next message; nothing while no line has come. -/
def receive : Client × Option (Except ClientError Message) :=
  match c.connection with
  | none => (c, some (.error (.transport .notConnected)))
  | some s =>
    match s.next with
    | (s, .waiting) => ({ c with connection := some s }, none)
    | (s, .line text) =>
      ({ c with connection := some s }, some ((Message.decodeBytes text).mapError .decode))
    | (_, .tooLarge reason) =>
      (c.disconnect, some (.error (.transport (.receiveFailed (.tooLarge reason)))))
    | (_, .ended) => (c.disconnect, some (.error (.transport .closed)))
    | (_, .broken reason) =>
      (c.disconnect, some (.error (.transport (.receiveFailed (.system reason)))))

/-- What a reply says about the command with an id. -/
def checkReply (commandId : String) (reply : Message) : Except ClientError Unit :=
  match reply.payload with
  | .ack id => if id = commandId then .ok () else .error (.unexpectedReply commandId .ack)
  | .error id message =>
    if id = commandId then .error (.rejected id message)
    else .error (.unexpectedReply commandId .error)
  | other => .error (.unexpectedReply commandId other.type)

/-- Writes a command and reads its reply. No line in time is a failure that keeps the connection. -/
def request (m : Message) (reaction : Reaction) :
    Client × List String × Except ClientError Unit :=
  match c.send m reaction with
  | (c, written, .error reason) => (c, written, .error reason)
  | (c, written, .ok ()) =>
    match c.receive with
    | (c, none) => (c, written, .error (.transport .timedOut))
    | (c, some (.error reason)) => (c, written, .error reason)
    | (c, some (.ok reply)) => (c, written, checkReply m.commandId reply)

/-- The message that introduces a controller. -/
def introduction (commandId name : String) : Message := .hello commandId Role.controller.text name

/-- Connects if need be and introduces the controller by a name. -/
def handshake (dialed : Except DialError Unit) (commandId name : String) (reaction : Reaction) :
    Client × List String × Except ClientError Unit :=
  match c.connect dialed with
  | (c, .error reason) => (c, [], .error reason)
  | (c, .ok ()) => c.request (introduction commandId name) reaction

end Client

end ShowControl
