import ShowControl.Message.Defaults
import ShowControl.Message.Wire
import ShowControl.Renderer.Stage

/-!
# Answering messages

A handler says what the four commands do to a state. `dispatch` turns one message into the state
that follows and the reply: an acknowledgment or an error with the command id of the message, and no
reply to a reply. A line that is no message is answered by an error that carries no id of its own.
-/

namespace ShowControl

/-- How the commands change a state. -/
structure Handler (σ : Type) where
  loadScene : σ → SceneId → Except CommandError σ
  loadSceneDefinition : σ → Definition → Except CommandError σ
  setFeedForSurface : σ → SurfaceId → FeedId → Except CommandError σ
  playCue : σ → CueId → Except CommandError σ

namespace Handler

/-- The handler that supports no command. -/
def unsupported : Handler Unit where
  loadScene _ _ := .error (.unsupported .loadScene)
  loadSceneDefinition _ _ := .error (.unsupported .loadSceneDefinition)
  setFeedForSurface _ _ _ := .error (.unsupported .setFeedForSurface)
  playCue _ _ := .error (.unsupported .playCue)

/-- The handler of a renderer. -/
def stage : Handler Stage where
  loadScene s scene := s.activate scene
  loadSceneDefinition s definition := s.load definition
  setFeedForSurface s surface feed := s.setFeed surface feed
  playCue s cue := .ok (s.play cue)

variable {σ : Type} (h : Handler σ)

/-- What a payload does to a state; nothing for a reply. A hello changes nothing. -/
def apply (s : σ) : Payload → Option (Except CommandError σ)
  | .hello _ => some (.ok s)
  | .ack _ => none
  | .error _ _ => none
  | .loadScene scene => some (h.loadScene s scene)
  | .loadSceneDefinition definition => some (h.loadSceneDefinition s definition)
  | .setFeedForSurface surface feed => some (h.setFeedForSurface s surface feed)
  | .playCue cue => some (h.playCue s cue)

/-- The state after a message, and the reply to it. -/
def dispatch (s : σ) (m : Message) : σ × Option Message :=
  match h.apply s m.payload with
  | none => (s, none)
  | some (.ok s) => (s, some m.ackFor)
  | some (.error reason) => (s, some (m.errorFor reason.message))

/-- The state after a line, and the reply to it. -/
def answer (s : σ) (line : ByteArray) : σ × Option Message :=
  match Message.decodeBytes line with
  | .ok m => h.dispatch s m
  | .error reason => (s, some (.error unknownId reason.message))

end Handler

end ShowControl
