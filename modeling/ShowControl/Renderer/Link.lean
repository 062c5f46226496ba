import ShowControl.Renderer.Service
import ShowControl.Transport

/-!
# The renderer's end of a connection with a registry

A renderer that has connected to a registry introduces itself and waits for the first line. If that
acknowledges its hello the renderer is registered, and every later line is served; otherwise the
connection is given up and no line is served. Lines that arrive together with the first one are not
lost.
-/

namespace ShowControl

/-- Why a renderer does not get registered. -/
inductive LinkError where
  | transport (reason : TransportError)
  /-- The system reported this. -/
  | system (reason : String)
  /-- The first line is no message. -/
  | decode (reason : DecodeError)
  /-- The registry refuses the renderer. -/
  | rejected (message : String)
  /-- The first line is of this type, or answers another command. -/
  | unexpectedReply (type : MessageType)
  deriving DecidableEq, Repr

namespace LinkError

/-- The wording that is shown to operators. -/
def message : LinkError → String
  | .transport reason => reason.message
  | .system reason => "IO error: " ++ reason
  | .decode reason => "invalid reply: " ++ reason.message
  | .rejected message => "registry rejected renderer: " ++ message
  | .unexpectedReply type => "unexpected " ++ type.text ++ " reply to hello"

/-- The wording of what lies behind the failure, if anything does. -/
def cause? : LinkError → Option String
  | .transport (.connectFailed _ reason) => some reason
  | .transport (.sendFailed reason) => some reason.message
  | .transport (.receiveFailed reason) => some reason.message
  | .transport _ => none
  | .system reason => some reason
  | .decode reason => some reason.message
  | .rejected _ => none
  | .unexpectedReply _ => none

end LinkError

/-- How far a link has come. -/
inductive LinkStatus where
  /-- The hello has been sent, and nothing has come back. -/
  | waiting
  | registered
  | failed (reason : LinkError)
  deriving DecidableEq, Repr

/-- The link of a renderer to a registry. -/
structure Link (σ : Type) where
  name : String
  /-- The command id of its hello. -/
  helloId : String
  status : LinkStatus := .waiting
  service : Service σ

namespace Link

variable {σ : Type} (h : Handler σ)

/-- The message that introduces a renderer. -/
def introduction (commandId name : String) : Message := .hello commandId Role.renderer.text name

/-- A new link and the line of its hello, if that fits a frame. -/
def start (name helloId : String) (state : σ) : Except LinkError (Link σ × String) :=
  match (introduction helloId name).line? with
  | .ok line => .ok ({ name, helloId, service := { state } }, line)
  | .error reason => .error (.transport (.sendFailed (.tooLarge reason)))

/-- The renderer is registered and its connection is open. -/
def isRunning (l : Link σ) : Bool := l.status = .registered && l.service.isOpen

/-- Gives a link up. -/
def fail (l : Link σ) (reason : LinkError) : Link σ :=
  { l with status := .failed reason, service := l.service.close }

/-- What the first message says about the hello with an id. -/
def checkReply (helloId : String) (reply : Message) : Except LinkError Unit :=
  match reply.payload with
  | .ack id => if id = helloId then .ok () else .error (.unexpectedReply .ack)
  | .error _ message => .error (.rejected message)
  | other => .error (.unexpectedReply other.type)

/-- What the first line says about the hello with an id. -/
def checkLine (helloId : String) (line : ByteArray) : Except LinkError Unit :=
  match Message.decodeBytes line with
  | .error reason => .error (.decode reason)
  | .ok reply => checkReply helloId reply

/-- Bytes arrive from the registry: the link after them, and the replies. -/
def receive (l : Link σ) (bytes : ByteArray) : Link σ × List String :=
  match l.status with
  | .failed _ => (l, [])
  | .registered =>
    let (service, replies) := l.service.receive h bytes
    ({ l with service }, replies)
  | .waiting =>
    match (l.service.inbox.append bytes).next with
    | (inbox, .nothing) => ({ l with service := { l.service with inbox } }, [])
    | (_, .tooLarge size) => (l.fail (.transport (.receiveFailed (.tooLarge ⟨size⟩))), [])
    | (inbox, .line line) =>
      match checkLine l.helloId line with
      | .error reason => (l.fail reason, [])
      | .ok () =>
        let (service, replies) := { l.service with inbox }.receive h .empty
        ({ l with status := .registered, service }, replies)

/-- The registry hangs up. -/
def hangUp (l : Link σ) : Link σ :=
  match l.status with
  | .waiting => l.fail (.transport .closed)
  | _ => { l with service := l.service.close }

/-- The time for the first line is over. -/
def timeOut (l : Link σ) : Link σ :=
  match l.status with
  | .waiting => l.fail (.transport .timedOut)
  | _ => l

/-- The renderer closes the connection. -/
def stop (l : Link σ) : Link σ := { l with service := l.service.close }

end Link

end ShowControl
