import ShowControl.Scene.Basic

/-!
# Messages

A message is a command id with one payload. Renderers and controllers introduce themselves with a
hello; commands change what a renderer shows; an acknowledgment or an error answers one message and
repeats its command id.
-/

namespace ShowControl

/-- The version of the protocol that is announced. -/
def protocolVersion : String := "0.1"

/-- The kinds of message. -/
inductive MessageType where
  | hello
  | ack
  | error
  | loadScene
  | loadSceneDefinition
  | setFeedForSurface
  | playCue
  deriving DecidableEq, Repr

namespace MessageType

/-- The name on the wire. -/
def text : MessageType → String
  | .hello => "hello"
  | .ack => "ack"
  | .error => "error"
  | .loadScene => "loadScene"
  | .loadSceneDefinition => "loadSceneDefinition"
  | .setFeedForSurface => "setFeedForSurface"
  | .playCue => "playCue"

/-- The type with this name. -/
def ofText? : String → Option MessageType
  | "hello" => some .hello
  | "ack" => some .ack
  | "error" => some .error
  | "loadScene" => some .loadScene
  | "loadSceneDefinition" => some .loadSceneDefinition
  | "setFeedForSurface" => some .setFeedForSurface
  | "playCue" => some .playCue
  | _ => none

end MessageType

/-- The part that the sender of a hello plays. -/
inductive Role where
  | renderer
  | controller
  deriving DecidableEq, Repr

/-- The name on the wire. -/
def Role.text : Role → String
  | .renderer => "renderer"
  | .controller => "controller"

/-- How a peer introduces itself. -/
structure Hello where
  version : String
  role : String
  /-- The name it wants to be known by; empty where the peer gave none. -/
  name : String
  deriving DecidableEq

/-- What a message says. -/
inductive Payload where
  | hello (hello : Hello)
  /-- The command with this id was carried out. -/
  | ack (commandId : String)
  /-- The command with this id was refused. -/
  | error (commandId message : String)
  | loadScene (scene : SceneId)
  | loadSceneDefinition (definition : Definition)
  | setFeedForSurface (surface : SurfaceId) (feed : FeedId)
  | playCue (cue : CueId)
  deriving DecidableEq

/-- The type of a payload. -/
def Payload.type : Payload → MessageType
  | .hello _ => .hello
  | .ack _ => .ack
  | .error _ _ => .error
  | .loadScene _ => .loadScene
  | .loadSceneDefinition _ => .loadSceneDefinition
  | .setFeedForSurface _ _ => .setFeedForSurface
  | .playCue _ => .playCue

/-- A command id with a payload. -/
structure Message where
  commandId : String
  payload : Payload
  deriving DecidableEq

namespace Message

/-- The type of a message. -/
def type (m : Message) : MessageType := m.payload.type

/-- A hello. -/
def hello (commandId : String) (role name : String) : Message :=
  ⟨commandId, .hello { version := protocolVersion, role, name }⟩

/-- The acknowledgment of a command. -/
def ack (commandId : String) : Message := ⟨commandId, .ack commandId⟩

/-- The refusal of a command. -/
def error (commandId text : String) : Message := ⟨commandId, .error commandId text⟩

/-- The acknowledgment of this message. -/
def ackFor (m : Message) : Message := ack m.commandId

/-- The refusal of this message. -/
def errorFor (m : Message) (text : String) : Message := error m.commandId text

/-- The id of the command that an acknowledgment or an error answers. -/
def replied? (m : Message) : Option String :=
  match m.payload with
  | .ack commandId => some commandId
  | .error commandId _ => some commandId
  | _ => none

end Message

end ShowControl
