import ShowControl.Message.Basic
import ShowControl.Scene.Wire

/-!
# Messages on the wire

A message is an object with the three members `commandId`, `payload` and `type`; its text is one
line. Reading goes from the outside in: the type, the command id, that the payload is an object, and
then the fields of the payload.
-/

namespace ShowControl

/-- Reads the name of a message type. -/
def MessageType.decode (text : String) : Except DecodeError MessageType :=
  match MessageType.ofText? text with
  | some type => .ok type
  | none => .error (.invalidMessageType text)

/-- A hello as a value. -/
def Hello.toJson (h : Hello) : Json :=
  .object [("name", .string h.name), ("role", .string h.role), ("version", .string h.version)]

namespace Payload

/-- A payload as a value. -/
def toJson : Payload → Json
  | .hello h => h.toJson
  | .ack commandId => .object [("commandId", .string commandId)]
  | .error commandId message =>
    .object [("commandId", .string commandId), ("message", .string message)]
  | .loadScene scene => .object [("sceneId", .string scene.text)]
  | .loadSceneDefinition definition => definition.toJson
  | .setFeedForSurface surface feed =>
    .object [("feedId", .string feed.text), ("surfaceId", .string surface.text)]
  | .playCue cue => .object [("cueId", .string cue.text)]

/-- The payload of this type that a value stands for. -/
def ofJson (type : MessageType) (value : Json) : Except DecodeError Payload := do
  match type with
  | .loadSceneDefinition => return .loadSceneDefinition (← Definition.ofJson value)
  | .hello =>
    let f ← Fields.of "payload" value
    let version ← f.string "version"
    let role ← f.string "role"
    let name ← f.stringOrEmpty "name"
    return .hello { version, role, name }
  | .ack =>
    let f ← Fields.of "payload" value
    return .ack (← f.string "commandId")
  | .error =>
    let f ← Fields.of "payload" value
    let commandId ← f.string "commandId"
    let message ← f.string "message"
    return .error commandId message
  | .loadScene =>
    let f ← Fields.of "payload" value
    return .loadScene ⟨← f.string "sceneId"⟩
  | .setFeedForSurface =>
    let f ← Fields.of "payload" value
    let surface ← f.string "surfaceId"
    let feed ← f.string "feedId"
    return .setFeedForSurface ⟨surface⟩ ⟨feed⟩
  | .playCue =>
    let f ← Fields.of "payload" value
    return .playCue ⟨← f.string "cueId"⟩

end Payload

namespace Message

/-- A message as a value. -/
def toJson (m : Message) : Json :=
  .object
    [("commandId", .string m.commandId),
      ("payload", m.payload.toJson),
      ("type", .string m.type.text)]

/-- The line of a message, without its end. -/
def encode (m : Message) : String := m.toJson.render

/-- The message that a value stands for. -/
def ofJson (value : Json) : Except DecodeError Message := do
  let f ← Fields.of "message" value
  let type ← MessageType.decode (← f.string "type")
  let commandId ← f.string "commandId"
  let payload ← Payload.ofJson type (← f.object "payload")
  return { commandId, payload }

/-- Reads a text. -/
def decode (text : String) : Except DecodeError Message := do
  ofJson (← Json.decode text)

/-- Reads bytes. -/
def decodeBytes (text : ByteArray) : Except DecodeError Message := do
  ofJson (← Json.decodeBytes text)

end Message

end ShowControl
