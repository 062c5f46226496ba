import ShowControl.Scene.Basic
import ShowControl.Wire.Fields

/-!
# Scenes on the wire

Each part of a definition is an object. Its fields are read in a fixed order, which decides what is
reported of two faults; levels are clamped while they are read. The configuration of a feed is a
text, but an object or an array may stand in its place and counts as its compact text.
-/

namespace ShowControl

/-- Reads one name of an enumeration. -/
def readChoice {α : Type} (enumeration : String) (ofText? : String → Option α) (text : String) :
    Except DecodeError α :=
  match ofText? text with
  | some choice => .ok choice
  | none => .error (.invalidChoice enumeration text)

/-- Reads the name of a kind of feed. -/
def FeedKind.decode (text : String) : Except DecodeError FeedKind :=
  readChoice "FeedType" FeedKind.ofText? text

/-- Reads the name of a blend mode. -/
def BlendMode.decode (text : String) : Except DecodeError BlendMode :=
  readChoice "BlendMode" BlendMode.ofText? text

namespace Vertex

/-- A vertex as a value. -/
def toJson (v : Vertex) : Json :=
  .object [("x", .ofSingle v.x), ("y", .ofSingle v.y)]

/-- The vertex that a value stands for. -/
def ofJson (value : Json) : Except DecodeError Vertex := do
  let f ← Fields.of "vertex" value
  let x ← f.single "x"
  let y ← f.single "y"
  return { x, y }

end Vertex

namespace Surface

/-- A surface as a value. -/
def toJson (s : Surface) : Json :=
  .object
    [("blendMode", .string s.blend.text),
      ("brightness", .ofSingle s.brightness.value),
      ("feedId", .string s.feed.text),
      ("id", .string s.id.text),
      ("name", .string s.name),
      ("opacity", .ofSingle s.opacity.value),
      ("vertices", .array (s.vertices.map Vertex.toJson)),
      ("zOrder", .integer s.zOrder.toInt)]

/-- The surface that a value stands for. -/
def ofJson (value : Json) : Except DecodeError Surface := do
  let f ← Fields.of "surface" value
  let id ← f.string "id"
  let name ← f.string "name"
  let vertices ← (← f.array "vertices").mapM Vertex.ofJson
  let feed ← f.string "feedId"
  let opacity ← f.single "opacity"
  let brightness ← f.single "brightness"
  let blend ← BlendMode.decode (← f.string "blendMode")
  let zOrder ← f.int32 "zOrder"
  return { id := ⟨id⟩, name, vertices, feed := ⟨feed⟩, opacity := .clamp opacity
           brightness := .clamp brightness, blend, zOrder }

end Surface

namespace Scene

/-- A scene as a value. -/
def toJson (s : Scene) : Json :=
  .object
    [("description", .string s.description),
      ("id", .string s.id.text),
      ("name", .string s.name),
      ("surfaces", .array (s.surfaces.map Surface.toJson))]

/-- The scene that a value stands for. -/
def ofJson (value : Json) : Except DecodeError Scene := do
  let f ← Fields.of "scene" value
  let id ← f.string "id"
  let name ← f.string "name"
  let description ← f.string "description"
  let surfaces ← (← f.array "surfaces").mapM Surface.ofJson
  return { id := ⟨id⟩, name, description, surfaces }

end Scene

namespace Feed

/-- A feed as a value. -/
def toJson (f : Feed) : Json :=
  .object
    [("configJson", .string f.config),
      ("id", .string f.id.text),
      ("name", .string f.name),
      ("type", .string f.kind.text)]

/-- The configuration text that a value stands for: a string itself, a container its compact
text. -/
def configOfJson : Json → Except DecodeError String
  | .string text => .ok text
  | .array items => .ok (Json.array items).render
  | .object members => .ok (Json.object members).render
  | _ => .error (.wrongFieldType "configJson")

/-- The feed that a value stands for. -/
def ofJson (value : Json) : Except DecodeError Feed := do
  let f ← Fields.of "feed" value
  let id ← f.string "id"
  let name ← f.string "name"
  let kind ← FeedKind.decode (← f.string "type")
  let config ← configOfJson (← f.value "configJson")
  return { id := ⟨id⟩, name, kind, config }

/-- The feed that plays a video file. -/
def videoFile (id : FeedId) (name path : String) : Feed :=
  { id, name, kind := .videoFile, config := (Json.object [("filePath", .string path)]).render }

/-- The file that a feed plays; nothing for feeds of other kinds. -/
def videoPath (f : Feed) : Except DecodeError (Option String) :=
  match f.kind with
  | .videoFile => do
    let fields ← Fields.of "configJson" (← Json.decode f.config)
    return some (← fields.string "filePath")
  | _ => .ok none

end Feed

namespace Definition

/-- A definition as a value. -/
def toJson (d : Definition) : Json :=
  .object [("feeds", .array (d.feeds.map Feed.toJson)), ("scene", d.scene.toJson)]

/-- The definition that a value stands for; it is also the payload of a message. -/
def ofJson (value : Json) : Except DecodeError Definition := do
  let f ← Fields.of "payload" value
  let scene ← Scene.ofJson (← f.object "scene")
  let feeds ← (← f.array "feeds").mapM Feed.ofJson
  return { scene, feeds }

/-- Reads the text of a definition. -/
def decode (text : String) : Except DecodeError Definition := do
  ofJson (← Json.decode text)

end Definition

end ShowControl
