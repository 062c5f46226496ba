import ShowControl.Scene.Identifier
import ShowControl.Scene.Level

/-!
# Scenes, surfaces and feeds

A scene is a list of surfaces, each a polygon of the output that shows one feed. A definition is a
scene together with feeds: all that a renderer needs to draw it.
-/

namespace ShowControl

open Numeric

/-- What kind of media a feed produces. -/
inductive FeedKind where
  | videoFile
  | camera
  | generated
  deriving DecidableEq, Repr

namespace FeedKind

/-- The name on the wire. -/
def text : FeedKind → String
  | .videoFile => "VideoFile"
  | .camera => "Camera"
  | .generated => "Generated"

/-- The kind with this name. -/
def ofText? : String → Option FeedKind
  | "VideoFile" => some .videoFile
  | "Camera" => some .camera
  | "Generated" => some .generated
  | _ => none

end FeedKind

/-- How a surface is composed with those beneath it. -/
inductive BlendMode where
  | normal
  | additive
  | multiply
  deriving DecidableEq, Repr

namespace BlendMode

instance : Inhabited BlendMode := ⟨.normal⟩

/-- The name on the wire. -/
def text : BlendMode → String
  | .normal => "Normal"
  | .additive => "Additive"
  | .multiply => "Multiply"

/-- The mode with this name. -/
def ofText? : String → Option BlendMode
  | "Normal" => some .normal
  | "Additive" => some .additive
  | "Multiply" => some .multiply
  | _ => none

end BlendMode

/-- A point of the output. -/
structure Vertex where
  x : Single
  y : Single
  deriving DecidableEq

/-- Both coordinates are finite. -/
def Vertex.isFinite (v : Vertex) : Bool := v.x.isFinite && v.y.isFinite

/-- A source of media. Its configuration is a text whose form depends on the kind. -/
structure Feed where
  id : FeedId
  name : String
  kind : FeedKind
  config : String
  deriving DecidableEq

/-- A polygon of the output that shows a feed. -/
structure Surface where
  id : SurfaceId
  name : String
  vertices : List Vertex
  feed : FeedId
  opacity : Level
  brightness : Level
  blend : BlendMode
  zOrder : Int32
  deriving DecidableEq

namespace Surface

/-- A surface without vertices, opaque and at full brightness. -/
def plain (id : SurfaceId) (name : String) (feed : FeedId) : Surface :=
  { id, name, vertices := [], feed, opacity := .full, brightness := .full
    blend := default, zOrder := 0 }

/-- The surface at the opacity next to a number. -/
def setOpacity (s : Surface) (x : Single) : Surface := { s with opacity := .clamp x }

/-- The surface at the brightness next to a number. -/
def setBrightness (s : Surface) (x : Single) : Surface := { s with brightness := .clamp x }

end Surface

/-- Surfaces that make up one look, from the lowest to the highest. -/
structure Scene where
  id : SceneId
  name : String
  description : String
  surfaces : List Surface
  deriving DecidableEq

namespace Scene

/-- The first surface with this name. -/
def find? (s : Scene) (id : SurfaceId) : Option Surface :=
  s.surfaces.find? fun surface ↦ surface.id = id

/-- Changes the first surface that a test holds of. -/
def modifyFirst (test : Surface → Bool) (change : Surface → Surface) :
    List Surface → List Surface
  | [] => []
  | surface :: rest =>
    if test surface then change surface :: rest else surface :: modifyFirst test change rest

/-- Changes the first surface with this name. -/
def modify (s : Scene) (id : SurfaceId) (change : Surface → Surface) : Scene :=
  { s with surfaces := modifyFirst (fun surface ↦ surface.id = id) change s.surfaces }

end Scene

/-- A scene together with feeds. -/
structure Definition where
  scene : Scene
  feeds : List Feed
  deriving DecidableEq

end ShowControl
