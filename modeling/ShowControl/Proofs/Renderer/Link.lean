import ShowControl.Proofs.Renderer.Exchange
import ShowControl.Renderer.Link

/-!
# One message to a registered renderer

Between two messages a registered renderer has taken all that it has been sent (`Link.Serves`). A
message that arrives then is dispatched at once and leaves it so (`Link.Serves.receive`), and the
acknowledgment of its hello is what makes a renderer that way (`Link.receive_ack`).
-/

namespace ShowControl

/-- A reply has no coordinates that could fail to be finite. -/
theorem Handler.coordinates_of_dispatch {σ : Type} {h : Handler σ} {s : σ} {m reply : Message}
    (answered : reply ∈ (h.dispatch s m).2) : reply.coordinates = [] := by
  rw [dispatch] at answered
  split at answered
  · cases answered
  · cases answered; rfl
  · cases answered; rfl

/-- A service that starts with bytes that hold no line only looks through them. -/
theorem Service.receive_empty {σ : Type} {h : Handler σ} {state : σ} {i i' : Inbox}
    (rest : i.drain = (i', [], none)) :
    receive h { state, inbox := i } .empty = ({ state, inbox := i' }, []) := by
  rw [receive, if_pos rfl]
  dsimp only
  rw [Inbox.append, ByteArray.append_empty, rest]
  rfl

namespace Link

variable {σ : Type} {h : Handler σ} {l : Link σ} {m : Message}

/-- The renderer is registered, and it has taken all that it has been sent. -/
structure Serves (l : Link σ) : Prop where
  registered : l.status = .registered
  isOpen : l.service.isOpen = true
  empty : l.service.inbox.Holds []

/-- A message is answered by what its dispatch gives. -/
theorem Serves.receive (serves : l.Serves)
    (finite : ∀ coordinate ∈ m.coordinates, coordinate.2.isFinite = true) (small : m.Fits)
    (answerable : ∀ reply ∈ (h.dispatch l.service.state m).2, reply.Fits) :
    ∃ i : Inbox, i.Holds [] ∧
      l.receive h (frames [m.encode]) =
        ({ l with service := { state := (h.dispatch l.service.state m).1, inbox := i } },
          (h.dispatch l.service.state m).2.toList.map Message.encode) := by
  obtain ⟨name, helloId, status, ⟨state, inbox, isOpen⟩⟩ := l
  obtain ⟨registered, reading, empty⟩ := serves
  cases registered
  cases reading
  obtain ⟨i, holds, drained⟩ :=
    Message.drain_frames (List.forall_mem_singleton.2 small : ∀ m' ∈ [m], m'.Fits) empty
  have answered : h.answer state m.encode.toUTF8 = h.dispatch state m :=
    h.answer_encode state finite
  have taken : Service.takeLine h { state, inbox := i } m.encode.toUTF8 =
      ({ state := (h.dispatch state m).1, inbox := i },
        (h.dispatch state m).2.toList.map Message.encode) := by
    rw [Service.takeLine_of_fits, answered]
    rw [answered]
    exact fun reply listed ↦ answerable reply (Option.mem_toList.1 listed)
  refine ⟨i, holds, ?_⟩
  rw [Link.receive]
  dsimp only
  rw [Service.receive, if_pos rfl]
  dsimp only
  rw [List.map_singleton] at drained
  rw [drained]
  dsimp only
  rw [List.map_singleton, Transducer.run_cons, taken]
  simp

/-- A renderer that has introduced itself is registered by the acknowledgment of its hello. -/
theorem receive_ack (h : Handler σ) (name : String) {helloId : String} (state : σ)
    (small : (Message.ack helloId).Fits) :
    ∃ l : Link σ, l.Serves ∧ l.name = name ∧ l.service.state = state ∧
      receive h { name, helloId, service := { state } } (frames [(Message.ack helloId).encode]) =
        (l, []) := by
  have accepted : checkLine helloId (Message.ack helloId).encode.toUTF8 = .ok () := by
    rw [checkLine, Message.decodeBytes_toUTF8 fun _ mem ↦ absurd mem List.not_mem_nil]
    exact if_pos rfl
  obtain ⟨i, holds, drained⟩ :=
    Message.drain_frames (List.forall_mem_singleton.2 small : ∀ m ∈ [Message.ack helloId], m.Fits)
      Inbox.holds_empty
  refine ⟨{ name, helloId, status := .registered, service := { state, inbox := i } },
    ⟨rfl, rfl, holds⟩, rfl, rfl, ?_⟩
  rw [Inbox.drain_eq_next, List.map_singleton, List.map_singleton] at drained
  rw [Link.receive]
  dsimp only
  rcases next : (({} : Inbox).append (frames [(Message.ack helloId).encode])).next with ⟨j, found⟩
  rw [next] at drained
  cases found with
  | nothing => cases drained
  | tooLarge size => cases drained
  | line text =>
    simp only [Prod.mk.injEq, List.cons.injEq] at drained
    obtain ⟨left, ⟨rfl, none_behind⟩, within⟩ := drained
    have rest : j.drain = (i, [], none) := by rw [← left, ← none_behind, ← within]
    dsimp only
    rw [accepted, Service.receive_empty rest]

end Link

end ShowControl
