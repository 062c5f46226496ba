import ShowControl.Renderer.Link
import ShowControl.Server.Operator

/-!
# A registry and its renderers

A rig is a registry together with renderers that are linked to it, each with a state of its own.
What the registry writes reaches the renderers, their replies reach the registry, and the events
tell what came of it. A registered renderer is never written to because of its replies, so one
exchange of lines settles an output.
-/

namespace ShowControl

/-- A registry and the links to it, by the addresses that the registry knows them by. -/
structure Rig (σ : Type) where
  registry : Registry := {}
  links : Catalog (Link σ) := ∅
  /-- So many links have been dialled. -/
  dialled : Nat := 0

namespace Rig

variable {σ : Type} (h : Handler σ)

/-- The names of the links, with their states, in the order in which they were dialled. -/
def states (rig : Rig σ) : List (String × σ) :=
  rig.links.values.map fun l ↦ (l.name, l.service.state)

/-- Something that the registry has put out takes effect: the rig after it, and the events. -/
def settle (rig : Rig σ) : RegistryOutput → Rig σ × List RegistryEvent
  | .event e => (rig, [e])
  | .closed peer =>
    match rig.links.find? peer with
    | none => (rig, [])
    | some l => ({ rig with links := rig.links.insert peer l.hangUp }, [])
  | .line peer text =>
    match rig.links.find? peer with
    | none => (rig, [])
    | some l =>
      let (l, replies) := l.receive h (frames [text])
      let (registry, outputs) := rig.registry.receive peer (frames replies)
      let (registry, last) := if l.service.isOpen then (registry, []) else registry.hangUp peer
      ({ rig with registry, links := rig.links.insert peer l },
        RegistryOutput.events (outputs ++ last))

/-- All that the registry has put out takes effect. -/
def settleAll (rig : Rig σ) (outputs : List RegistryOutput) : Rig σ × List RegistryEvent :=
  Transducer.run (settle h) rig outputs

/-- A renderer that has dialled the registry introduces itself. Only a link that gets registered
stays. -/
def join (rig : Rig σ) (name helloId : String) (state : σ) :
    Rig σ × List RegistryEvent × Except LinkError Unit :=
  let peer := toString rig.dialled
  let rig := { rig with dialled := rig.dialled + 1 }
  match Link.start name helloId state with
  | .error reason => (rig, [], .error reason)
  | .ok (l, hello) =>
    match rig.registry.accept peer with
    | (_, false) => (rig, [], .error (.transport .closed))
    | (registry, true) =>
      let (registry, outputs) := registry.receive peer (frames [hello])
      let rig := { rig with registry, links := rig.links.insert peer l }
      let (rig, events) := rig.settleAll h outputs
      match (rig.links.find? peer).map Link.status with
      | some (.failed reason) =>
        ({ rig with links := rig.links.erase peer }, events, .error reason)
      | _ => (rig, events, .ok ())

/-- The link of the renderer with a name, and its address. -/
def find? (rig : Rig σ) (name : String) : Option (String × Link σ) :=
  rig.links.entries.find? fun entry ↦ entry.2.name = name

/-- The renderer with a name closes its link; tells what becomes of it, if there is one. -/
def leave (rig : Rig σ) (name : String) : Rig σ × List RegistryEvent × Option (Link σ) :=
  match rig.find? name with
  | none => (rig, [], none)
  | some (peer, l) =>
    let (registry, outputs) := rig.registry.hangUp peer
    ({ rig with registry, links := rig.links.erase peer }, RegistryOutput.events outputs,
      some l.stop)

/-- Sends a message to all renderers; tells to how many it could. -/
def broadcast (rig : Rig σ) (m : Message) : Rig σ × List RegistryEvent × Nat :=
  let (registry, outputs, count) := rig.registry.broadcast m
  let (rig, events) := { rig with registry }.settleAll h outputs
  (rig, events, count)

/-- Sends a message to the renderer with a name. -/
def send (rig : Rig σ) (name : String) (m : Message) :
    Rig σ × List RegistryEvent × Except RegistryError Unit :=
  let (registry, outputs, result) := rig.registry.send name m
  let (rig, events) := { rig with registry }.settleAll h outputs
  (rig, events, result)

/-- The operator of the registry types a text. -/
def enter (rig : Rig σ) (files : String → Option ByteArray) (commandId text : String) :
    Rig σ × List RegistryEvent × Entry :=
  let (registry, outputs, entry) := rig.registry.enter files commandId text
  let (rig, events) := { rig with registry }.settleAll h outputs
  (rig, events, entry)

end Rig

end ShowControl
