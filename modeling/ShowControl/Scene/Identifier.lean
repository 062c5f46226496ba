/-!
# Identifiers

Scenes, surfaces, feeds and cues are named by strings that mean nothing but themselves. The kind is
part of the type, so that no cue is ever looked up among the feeds.
-/

namespace ShowControl

/-- What an identifier names. -/
inductive IdentifierKind where
  | scene
  | surface
  | feed
  | cue
  deriving DecidableEq, Repr

/-- The name of one thing of a kind. -/
structure Identifier (kind : IdentifierKind) where
  /-- The name as it is written. -/
  text : String
  deriving DecidableEq, Repr

/-- Names a scene. -/
abbrev SceneId := Identifier .scene

/-- Names a surface within a scene. -/
abbrev SurfaceId := Identifier .surface

/-- Names a media feed. -/
abbrev FeedId := Identifier .feed

/-- Names a cue. -/
abbrev CueId := Identifier .cue

namespace Identifier

variable {kind : IdentifierKind}

instance : Inhabited (Identifier kind) := ⟨⟨""⟩⟩

/-- The name has no characters. -/
def isEmpty (id : Identifier kind) : Bool := id.text.isEmpty

/-- The order of the code points of two names, which is that of their bytes. -/
def order (a b : Identifier kind) : Ordering :=
  if a.text < b.text then .lt else if a.text = b.text then .eq else .gt

end Identifier

end ShowControl
