import ShowControl.Renderer.Handler
import ShowControl.Transducer
import ShowControl.Transport

/-!
# Serving a stream

A renderer reads lines from a stream, answers each in turn and goes on until the stream ends, a line
is over the limit, or a reply cannot be sent because its own line would be. What the command of such
a reply did to the state stays done.
-/

namespace ShowControl

/-- A state that is being served to one peer. -/
structure Service (σ : Type) where
  state : σ
  /-- What the peer has sent and has not been answered. -/
  inbox : Inbox := {}
  /-- The stream is being read. -/
  isOpen : Bool := true

namespace Service

variable {σ : Type} (h : Handler σ)

/-- The stream ends. An unfinished line is lost. -/
def close (s : Service σ) : Service σ := { state := s.state, isOpen := false }

/-- Answers a line, as long as the stream is being read. -/
def takeLine (s : Service σ) (line : ByteArray) : Service σ × List String :=
  if s.isOpen then
    match h.answer s.state line with
    | (state, none) => ({ s with state }, [])
    | (state, some reply) =>
      match reply.line? with
      | .ok text => ({ s with state }, [text])
      | .error _ => ({ state, isOpen := false }, [])
  else (s, [])

/-- The peer sends more bytes: the service after them, and the replies. -/
def receive (s : Service σ) (bytes : ByteArray) : Service σ × List String :=
  if s.isOpen then
    let (inbox, lines, oversized) := (s.inbox.append bytes).drain
    let (s, replies) := Transducer.run (takeLine h) { s with inbox } lines
    (if oversized.isSome then s.close else s, replies)
  else (s, [])

/-- The service after some lines. -/
def afterLines (s : Service σ) (lines : List String) : Service σ :=
  (Transducer.run (receive h) s (lines.map fun line ↦ frames [line])).1

/-- How a renderer that serves takes the lines of its peer. -/
def asPeer (s : Service σ) : Peer := fun lines ↦
  let (s, replies) := (s.afterLines h lines.dropLast).receive h (frames lines.getLast?.toList)
  .ok { bytes := frames replies, ends := !s.isOpen }

end Service

end ShowControl
