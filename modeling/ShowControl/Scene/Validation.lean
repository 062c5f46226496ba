import ShowControl.Scene.Basic

/-!
# What a renderer can draw

A definition is drawable when its surfaces have distinct, non-empty names and at least three finite
vertices each, and every surface shows a feed that is there. The checks run surface by surface, and
feeds are looked at only when all surfaces have passed.
-/

namespace ShowControl

/-- Why a definition cannot be drawn. -/
inductive ValidationError where
  | emptySurfaceId
  | tooFewVertices (surface : SurfaceId)
  | nonFiniteVertex (surface : SurfaceId)
  | duplicateSurface (surface : SurfaceId)
  | unknownFeed (surface : SurfaceId) (feed : FeedId)
  deriving DecidableEq, Repr

/-- The fewest vertices of a polygon. -/
def minVertices : Nat := 3

/-- The wording that is shown to operators and sent to peers. -/
def ValidationError.message : ValidationError → String
  | .emptySurfaceId => "Surface id must not be empty."
  | .tooFewVertices surface =>
    "Surface '" ++ surface.text ++ "' must have at least " ++ toString minVertices ++ " vertices."
  | .nonFiniteVertex surface => "Surface '" ++ surface.text ++ "' has a non-finite vertex."
  | .duplicateSurface surface =>
    "Scene contains duplicate surface id '" ++ surface.text ++ "'."
  | .unknownFeed surface feed =>
    "Surface '" ++ surface.text ++ "' references unknown feed '" ++ feed.text ++ "'."

/-- The surface by itself can be drawn. -/
def Surface.check (s : Surface) : Except ValidationError Unit :=
  if s.id.isEmpty then .error .emptySurfaceId
  else if s.vertices.length < minVertices then .error (.tooFewVertices s.id)
  else if s.vertices.any fun v ↦ !v.isFinite then .error (.nonFiniteVertex s.id)
  else .ok ()

namespace Scene

/-- Each surface can be drawn, and none has the name of one before it. -/
def checkSurfaces (before : List Surface) : List Surface → Except ValidationError Unit
  | [] => .ok ()
  | surface :: rest => do
    surface.check
    if before.any fun other ↦ other.id = surface.id then .error (.duplicateSurface surface.id)
    else checkSurfaces (surface :: before) rest

/-- Every surface shows one of these feeds. -/
def checkFeeds (s : Scene) (feeds : List Feed) : Except ValidationError Unit :=
  match s.surfaces.find? fun surface ↦ !feeds.any fun feed ↦ feed.id = surface.feed with
  | some surface => .error (.unknownFeed surface.id surface.feed)
  | none => .ok ()

/-- The scene can be drawn with these feeds. -/
def check (s : Scene) (feeds : List Feed) : Except ValidationError Unit := do
  checkSurfaces [] s.surfaces
  s.checkFeeds feeds

end Scene

/-- The definition can be drawn. -/
def Definition.check (d : Definition) : Except ValidationError Unit := d.scene.check d.feeds

end ShowControl
