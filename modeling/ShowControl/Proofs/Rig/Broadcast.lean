import ShowControl.Proofs.Renderer.Commands
import ShowControl.Proofs.Rig.Joining
import ShowControl.Proofs.Rig.Traffic

/-!
# From the operator to the renderers and back

A message that is sent to renderers is encoded, framed, read by each of them, dispatched and
answered; the answers are framed and read by the registry, and come out as events. In a linked rig
all this comes to a call of the handler on the state of each renderer, and to an event for each of
them that repeats the command id of the message (`Rig.Linked.end_to_end`).
-/

namespace ShowControl

namespace Rig

variable {σ : Type} {h : Handler σ} {m : Message} {rig : Rig σ}

/-- What sending a message from a rig comes to. -/
structure EndToEnd (h : Handler σ) (m : Message) (rig : Rig σ) : Prop where
  /-- There is a renderer for every name, -/
  everyone : rig.renderers.map Prod.fst = rig.registry.names
  /-- and a broadcast reaches them all. -/
  broadcast : (∀ renderer ∈ rig.renderers, Answerable h m renderer) →
    (rig.broadcast h m).2.2 = rig.renderers.length ∧
      Delivers h m rig.renderers rig (rig.broadcast h m).1 (rig.broadcast h m).2.1
  /-- So it does when the lines and replies of the renderers arrive in any other order. -/
  any_order : (∀ renderer ∈ rig.renderers, Answerable h m renderer) →
    ∀ t, Relation.ReflTransGen (Traffic.Arrives h) (rig.launch (rig.registry.broadcast m).2.1) t →
      (∃ t', t.Arrives h t') ∨ t.lines = [] ∧ t.replies = [] ∧
        ∃ order, order.Perm rig.renderers ∧ Delivers h m order rig t.rig t.events
  /-- A message to one renderer reaches that one. -/
  send : ∀ renderer ∈ rig.renderers, Answerable h m renderer →
    (rig.send h renderer.1 m).2.2 = .ok () ∧
      Delivers h m [renderer] rig (rig.send h renderer.1 m).1 (rig.send h renderer.1 m).2.1

/-- A broadcast is written to all renderers. -/
theorem Linked.broadcast_eq (linked : rig.Linked) (small : m.Fits) :
    rig.registry.broadcast m =
      (rig.registry, rig.registry.table.sessions.map fun s ↦ .line s.id m.encode,
        rig.registry.table.sessions.length) := by
  have reached :
      rig.registry.reached m rig.registry.table.sessions = rig.registry.table.sessions :=
    List.filter_eq_self.2 fun s listed ↦ decide_eq_true (linked.canWrite small listed)
  have unreached : rig.registry.unreached m rig.registry.table.sessions = [] :=
    List.filter_eq_nil_iff.2 fun s listed ↦ by simpa using linked.canWrite small listed
  rw [Registry.broadcast_eq_broadcastIn, Registry.broadcastIn_eq, reached, unreached, List.map_map,
    Transducer.run_nil, List.append_nil]
  rfl

/-- A broadcast that can be answered is delivered to all renderers. -/
theorem Sends.broadcast (sends : Sends h m rig rig.registry.table.sessions) :
    (rig.broadcast h m).2.2 = rig.renderers.length ∧
      Delivers h m rig.renderers rig (rig.broadcast h m).1 (rig.broadcast h m).2.1 := by
  obtain ⟨rig', settled, reached⟩ := sends.settleAll
  have count : rig.registry.table.sessions.length = rig.renderers.length := by
    rw [← List.length_map Session.name, rig.registry.map_name_sessions,
      ← sends.linked.map_fst_renderers, List.length_map]
  rw [Rig.broadcast, sends.linked.broadcast_eq sends.small]
  dsimp only
  rw [settled]
  exact ⟨count, reached.delivers sends.linked fun _ ↦ id⟩

/-- A message that one renderer can answer is delivered to it. -/
theorem Sends.send {s : Session String} (sends : Sends h m rig [s]) :
    (rig.send h s.name m).2.2 = .ok () ∧
      Delivers h m ([s].filterMap rig.renderer?) rig (rig.send h s.name m).1
        (rig.send h s.name m).2.1 := by
  obtain ⟨rig', settled, reached⟩ := sends.settleAll
  rw [List.map_singleton] at settled
  have listed := sends.listed s List.mem_cons_self
  have found : rig.registry.table.find? s.name = some s.id :=
    rig.registry.table.mem_sessions_iff.1 listed
  rw [Rig.send, Registry.send, found]
  dsimp only
  rw [Registry.line?_of_canWrite (sends.linked.canWrite sends.small listed)]
  dsimp only
  rw [settled]
  exact ⟨rfl, reached.delivers sends.linked sends.listed⟩

/-- A message that is sent to renderers comes to a call of their handlers, and to an event for each
of them. -/
theorem Linked.end_to_end (linked : rig.Linked)
    (finite : ∀ coordinate ∈ m.coordinates, coordinate.2.isFinite = true) (small : m.Fits) :
    EndToEnd h m rig := by
  have sends (answerable : ∀ renderer ∈ rig.renderers, Answerable h m renderer) :
      Sends h m rig rig.registry.table.sessions :=
    ⟨linked, finite, small, linked.coherent.nodup_peers, fun _ ↦ id, answerable⟩
  refine ⟨linked.map_fst_renderers, fun answerable ↦ (sends answerable).broadcast,
    fun answerable t arrives ↦ ?_, fun renderer known answerable ↦ ?_⟩
  · rw [linked.broadcast_eq small] at arrives
    exact (sends answerable).delivers_of_arrives arrives
  · obtain ⟨s, listed, here⟩ := List.mem_filterMap.1 known
    have alone : [s].filterMap rig.renderer? = [renderer] := by
      rw [List.filterMap_cons, here, List.filterMap_nil]
    have named : renderer.1 = s.name := by
      obtain ⟨state, -, rfl⟩ := Option.map_eq_some_iff.1 here
      rfl
    have sends : Sends h m rig [s] :=
      ⟨linked, finite, small, List.nodup_singleton _, List.forall_mem_singleton.2 listed,
        by rwa [alone, List.forall_mem_singleton]⟩
    rw [named, ← alone]
    exact sends.send

/-- Two renderers are told to load a scene that only one of them has. -/
theorem end_to_end_pair :
    let scene : Scene := { id := ⟨"s"⟩, name := "Scene", description := "", surfaces := [] }
    let shown : Stage := ({} : Stage).loaded { scene, feeds := [] }
    let renderers : List (String × Stage) := [("left", shown), ("right", {})]
    let rig := (started Stage 7000).joinAll Handler.stage "hello-1" renderers
    let m : Message := ⟨"cmd-1", .loadScene ⟨"s"⟩⟩
    rig.renderers = renderers ∧
      (rig.broadcast Handler.stage m).2 =
        ([.acknowledged "left" "cmd-1", .commandFailed "right" "cmd-1" "Unknown scene 's'"],
          2) := by
  intro scene shown renderers rig m
  have introductions : ∀ renderer ∈ renderers,
      renderer.1 ≠ "" ∧ (Link.introduction "hello-1" renderer.1).Fits := by
    simp only [Message.Fits, Link.introduction, Message.utf8ByteSize_encode]
    decide +kernel
  have answerable : (Message.ack "hello-1").Fits := by
    simp only [Message.Fits, Message.utf8ByteSize_encode]
    decide +kernel
  obtain ⟨linked, perm⟩ := (linked_started 7000).joinAll (h := Handler.stage)
    (ready_started 7000) (by decide) introductions answerable
  have same : rig.renderers = renderers := linked.renderers_eq perm (by decide)
  refine ⟨same, ?_⟩
  have accepted : (Handler.stage.dispatch shown m).2 = some (.ack "cmd-1") := rfl
  have refused : (Handler.stage.dispatch {} m).2 = some (.error "cmd-1" "Unknown scene 's'") := rfl
  have small : m.Fits ∧ (Message.ack "cmd-1").Fits ∧
      (Message.error "cmd-1" "Unknown scene 's'").Fits := by
    simp only [Message.Fits, Message.utf8ByteSize_encode]
    decide +kernel
  have answers : ∀ renderer ∈ rig.renderers, Answerable Handler.stage m renderer := by
    simp [same, renderers, Answerable, accepted, refused, small]
  obtain ⟨count, delivers⟩ :=
    (linked.end_to_end (h := Handler.stage) (m := m) (by decide) small.1).broadcast answers
  have reported := delivers.reported (by decide) (by decide)
  rw [same] at count reported
  have expected : List.Forall₂ (Hears Handler.stage m) renderers
      [.acknowledged "left" "cmd-1", .commandFailed "right" "cmd-1" "Unknown scene 's'"] :=
    .cons (.acknowledged accepted) (.cons (.commandFailed refused) .nil)
  exact Prod.ext (rightUnique_hears.forall₂ reported expected) count

end Rig

end ShowControl
