import ShowControl.Registry.Basic

/-!
# Runs of a registry

A run is a list of things that happen to a registry, one after the other: what its owner asks of it
and what its peers do. Each is over, with everything it causes, before the next begins.
-/

namespace ShowControl

/-- What may happen to a registry. -/
inductive RegistryStep where
  /-- It is started, and the system gives this port, or none. -/
  | start (bound : Option Nat)
  | stop
  /-- A peer connects. -/
  | accept (peer : String)
  /-- Bytes arrive from a peer. -/
  | receive (peer : String) (bytes : ByteArray)
  /-- A peer hangs up. -/
  | hangUp (peer : String)
  /-- From now on no line can be written to a peer. -/
  | block (peer : String) (fault : WriteError)
  /-- The time for the first line of a peer is over. -/
  | timeOut (peer : String)
  /-- A message is sent to one renderer. -/
  | send (name : String) (message : Message)
  /-- A message is sent to all renderers. -/
  | broadcast (message : Message)

/-- What the one who takes a step is told. -/
inductive RegistryAnswer where
  | done
  /-- The registry listens at this port, or at none. -/
  | port (port : Option Nat)
  /-- The connection was made, or it was not. -/
  | accepted (accepted : Bool)
  | sent (result : Except RegistryError Unit)
  /-- The message was sent to so many renderers. -/
  | delivered (count : Nat)

/-- What a step comes to. -/
structure RegistryOutcome where
  answer : RegistryAnswer
  outputs : List RegistryOutput := []

namespace Registry

/-- Takes one step. -/
def step (r : Registry) : RegistryStep → Registry × RegistryOutcome
  | .start bound =>
    let (r, port) := r.start bound
    (r, { answer := .port port })
  | .stop =>
    let (r, outputs) := r.stop
    (r, { answer := .port r.port, outputs })
  | .accept peer =>
    let (r, accepted) := r.accept peer
    (r, { answer := .accepted accepted })
  | .receive peer bytes =>
    let (r, outputs) := r.receive peer bytes
    (r, { answer := .done, outputs })
  | .hangUp peer =>
    let (r, outputs) := r.hangUp peer
    (r, { answer := .done, outputs })
  | .block peer fault => (r.block peer fault, { answer := .done })
  | .timeOut peer =>
    let (r, outputs) := r.timeOut peer
    (r, { answer := .done, outputs })
  | .send name m =>
    let (r, outputs, result) := r.send name m
    (r, { answer := .sent result, outputs })
  | .broadcast m =>
    let (r, outputs, count) := r.broadcast m
    (r, { answer := .delivered count, outputs })

/-- Takes steps in order, and tells what each of them comes to. -/
def run (r : Registry) (steps : List RegistryStep) : Registry × List RegistryOutcome :=
  Transducer.run (fun r step ↦ let (r, outcome) := r.step step; (r, [outcome])) r steps

end Registry

end ShowControl
