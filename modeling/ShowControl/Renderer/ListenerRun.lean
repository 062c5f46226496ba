import ShowControl.Renderer.Listener

/-!
# Runs of a listener

A run is a list of what the controllers of a renderer do, one after the other: they connect, they
send bytes, and they hang up.
-/

namespace ShowControl

/-- What a controller may do. -/
inductive CallerStep where
  | connect (peer : String)
  | send (peer : String) (bytes : ByteArray)
  | hangUp (peer : String)

namespace Listener

variable {σ : Type} (h : Handler σ)

/-- Takes one step. -/
def step (l : Listener σ) : CallerStep → Listener σ × List ListenerOutput
  | .connect peer => ((l.accept peer).1, [])
  | .send peer bytes => l.receive h peer bytes
  | .hangUp peer => l.hangUp h peer

/-- Takes steps in order. -/
def run (l : Listener σ) (steps : List CallerStep) : Listener σ × List ListenerOutput :=
  Transducer.run (step h) l steps

end Listener

end ShowControl
