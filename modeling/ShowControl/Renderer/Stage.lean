import ShowControl.Catalog
import ShowControl.Message.Basic
import ShowControl.Scene.Validation

/-!
# What a renderer keeps

A stage holds the scenes and feeds a renderer has been given, which of the scenes is shown, and the
cue that was played last. Nothing is drawn here. A command either gives the stage that follows or is
refused with a reason, and then there is no other stage to go on with.
-/

namespace ShowControl

/-- Why a renderer refuses a command. -/
inductive CommandError where
  | invalid (reason : ValidationError)
  | unknownScene (scene : SceneId)
  | unknownFeed (feed : FeedId)
  | noScene
  | unknownSurface (surface : SurfaceId)
  /-- The renderer has no answer to messages of this type. -/
  | unsupported (type : MessageType)
  deriving DecidableEq, Repr

/-- The wording that is sent to the peer. -/
def CommandError.message : CommandError → String
  | .invalid reason => reason.message
  | .unknownScene scene => "Unknown scene '" ++ scene.text ++ "'"
  | .unknownFeed feed => "Unknown feed '" ++ feed.text ++ "'"
  | .noScene => "No scene loaded"
  | .unknownSurface surface => "Unknown surface '" ++ surface.text ++ "'"
  | .unsupported type => type.text ++ " is not supported by this renderer"

/-- The scenes, the feeds, the scene that is shown and the last cue of a renderer. -/
structure Stage where
  scenes : Catalog Scene := ∅
  feeds : Catalog Feed := ∅
  active : Option SceneId := none
  lastCue : Option CueId := none
  deriving DecidableEq

namespace Stage

/-- The scene that is shown, with all its rebindings. -/
def activeScene (s : Stage) : Option Scene :=
  s.active.bind fun id ↦ s.scenes.find? id.text

/-- The feed with this name. -/
def feed? (s : Stage) (id : FeedId) : Option Feed := s.feeds.find? id.text

/-- Takes in a definition and shows its scene. Of two feeds with one name the later counts. -/
def load (s : Stage) (d : Definition) : Except CommandError Stage :=
  match d.check with
  | .error reason => .error (.invalid reason)
  | .ok () =>
    .ok { s with
      feeds := d.feeds.foldl (fun feeds feed ↦ feeds.insert feed.id.text feed) s.feeds
      scenes := s.scenes.insert d.scene.id.text d.scene
      active := some d.scene.id }

/-- Shows a scene it has been given before. -/
def activate (s : Stage) (scene : SceneId) : Except CommandError Stage :=
  if s.scenes.contains scene.text then .ok { s with active := some scene }
  else .error (.unknownScene scene)

/-- Lets a surface of the scene that is shown show another feed. -/
def setFeed (s : Stage) (surface : SurfaceId) (feed : FeedId) : Except CommandError Stage :=
  if (s.feed? feed).isNone then .error (.unknownFeed feed)
  else
    match s.active, s.activeScene with
    | some id, some scene =>
      if (scene.find? surface).isNone then .error (.unknownSurface surface)
      else
        let rebound := scene.modify surface fun shown ↦ { shown with feed }
        .ok { s with scenes := s.scenes.insert id.text rebound }
    | _, _ => .error .noScene

/-- Plays a cue. -/
def play (s : Stage) (cue : CueId) : Stage := { s with lastCue := some cue }

/-- One surface of an account: its name, the name of its feed and what that feed is called. -/
def surfaceText (s : Stage) (surface : Surface) : String :=
  match s.feed? surface.feed with
  | some feed => surface.id.text ++ "=" ++ feed.id.text ++ " (" ++ feed.name ++ ")"
  | none => surface.id.text ++ "=" ++ surface.feed.text

/-- One line about all of it. -/
def describe (s : Stage) : String :=
  let loaded := toString s.scenes.size
  let cue := match s.lastCue with
    | some cue => cue.text
    | none => "none"
  match s.activeScene with
  | none => "no active scene, " ++ loaded ++ " loaded, last cue " ++ cue
  | some scene =>
    "scene " ++ scene.id.text ++ " of " ++ loaded ++ " loaded, last cue " ++ cue ++ ", surfaces ["
      ++ ", ".intercalate (scene.surfaces.map s.surfaceText) ++ "]"

/-- The last line of the log of a renderer. -/
def farewell (s : Stage) : String := "final state: " ++ s.describe

end Stage

end ShowControl
