import ShowControl.Proofs.Message.Size
import ShowControl.Proofs.Registry.Delivery
import ShowControl.Proofs.Registry.Lifecycle

/-!
# Messages that are too large

A message whose line is over the limit cannot be sent to anybody, and the owner is told so. Nothing
of it is written. But a registry does not ask why a message could not be sent: like after every
failure, the sessions that it was meant for are ended (`Drops`). One such message to all ends the
sessions of all renderers (`run_tooLarge`). Those that are still in the greeting are spared, and so
is everybody to whom the message was not sent.
-/

namespace ShowControl

open RegistryOutput
open Json (quotedSize)

namespace Registry

variable {r r' : Registry} {peer name : String} {m : Message}
variable {ended : List (Session String)}

/-- What happens ends these sessions, one after the other, and nothing else. -/
structure Drops (r : Registry) (ended : List (Session String)) (outputs : List RegistryOutput)
    (r' : Registry) : Prop where
  /-- Their connections are closed and reported, and no line is written. -/
  outputs : outputs = ended.flatMap fun s ↦ [.closed s.id, .event (.disconnected s.name)]
  names : r'.names = r.names.filter (· ∉ ended.map Session.name)
  /-- All other connections stay as they are. -/
  connections : ∀ peer, r'.connections.find? peer =
    if peer ∈ ended.map Session.id then none else r.connections.find? peer
  /-- The registry listens as before. -/
  door : r'.door = r.door

namespace Drops

variable {outputs : List RegistryOutput}

theorem silent (h : r.Drops ended outputs r') (peer : String) : linesTo peer outputs = [] := by
  rw [h.outputs, linesTo, List.filterMap_flatMap]
  exact List.flatMap_eq_nil_iff.2 fun _ _ ↦ rfl

theorem told (h : r.Drops ended outputs r') :
    events outputs = ended.map fun s ↦ .disconnected s.name := by
  rw [h.outputs, events, List.filterMap_flatMap]
  exact List.map_eq_flatMap.symm

/-- A session that is ended leaves no trace but the report. -/
theorem gone (h : r.Drops ended outputs r') {s : Session String} (listed : s ∈ ended) :
    s.name ∉ r'.names ∧ r'.connections.find? s.id = none ∧
      .disconnected s.name ∈ events outputs := by
  refine ⟨?_, ?_, ?_⟩
  · rw [h.names]
    intro mem
    have kept : s.name ∉ ended.map Session.name := by simpa using (List.mem_filter.1 mem).2
    exact kept (List.mem_map_of_mem listed)
  · rw [h.connections, if_pos (List.mem_map_of_mem listed)]
  · rw [h.told]
    exact List.mem_map_of_mem (f := fun s ↦ RegistryEvent.disconnected s.name) listed

end Drops

theorem names_remove (t : SessionTable String) {s : Session String}
    (here : t.find? s.name = some s.id) :
    (t.remove s).1.names = t.names.filter (· ≠ s.name) := by
  rw [SessionTable.remove, if_pos here]
  show (t.ids.entries.filter _).map Prod.fst = (t.ids.entries.map Prod.fst).filter _
  rw [List.filter_map]
  rfl

theorem nodup_map_name (order : ended.Perm r.table.sessions) : (ended.map Session.name).Nodup := by
  rw [(order.map Session.name).nodup_iff, map_name_sessions]
  exact r.nodup_names

theorem sessions_of_names_eq_nil (nobody : r.names = []) : r.table.sessions = [] := by
  rw [← map_name_sessions] at nobody
  exact List.map_eq_nil_iff.1 nobody

namespace Coherent

variable (h : r.Coherent)
include h

/-- Sessions that are ended are all that goes. -/
theorem drops (nodup : (ended.map Session.name).Nodup)
    (registered : ∀ s ∈ ended, r.IsRegistered s.id s.name) :
    r.Drops ended (Transducer.run Registry.dismiss r ended).2
      (Transducer.run Registry.dismiss r ended).1 where
  outputs := h.outputs_run_dismiss nodup registered
  connections := find?_run_dismiss r ended
  door := door_run_dismiss r ended
  names := by
    induction ended generalizing r with
    | nil => simp
    | cons s ended ih =>
      obtain ⟨here, others⟩ := List.forall_mem_cons.1 registered
      obtain ⟨fresh, nodup⟩ := List.nodup_cons.1 nodup
      have rest := ih (h.dismiss s) nodup (here.others_dismiss fresh others)
      have first : (r.dismiss s).1.names = r.names.filter (· ≠ s.name) := by
        rw [h.dismiss_registered here, h.drop_registered here]
        exact names_remove r.table ((h.owned s.name s.id).2 here)
      rw [List.map_cons, Transducer.run_cons]
      refine rest.trans ?_
      rw [first, List.filter_filter]
      simp [not_or, Bool.and_comm]

theorem registered_of_mem_sessions (order : ended.Perm r.table.sessions) :
    ∀ s ∈ ended, r.IsRegistered s.id s.name := fun s listed ↦
  (h.owned s.name s.id).1 (r.table.mem_sessions_iff.1 (order.mem_iff.1 listed))

/-- A message to all ends all sessions, in whatever order they are gone through. -/
theorem drops_broadcastIn (large : ¬m.Fits) (order : ended.Perm r.table.sessions) :
    (r.broadcastIn m ended).2.2 = 0 ∧
      r.Drops ended (r.broadcastIn m ended).2.1 (r.broadcastIn m ended).1 := by
  rw [broadcastIn_of_large large]
  exact ⟨rfl, h.drops (nodup_map_name order) (h.registered_of_mem_sessions order)⟩

/-- A message to one ends its session. -/
theorem drops_send (large : ¬m.Fits) (registered : r.IsRegistered peer name) :
    (r.send name m).2.2 =
        .error (.transport (.sendFailed (.tooLarge ⟨m.encode.utf8ByteSize⟩))) ∧
      r.Drops [⟨peer, name⟩] (r.send name m).2.1 (r.send name m).1 := by
  have one : Transducer.run Registry.dismiss r [⟨peer, name⟩] = r.dismiss ⟨peer, name⟩ := by
    rw [Transducer.run_cons, Transducer.run_nil, List.append_nil]
  have distinct : ([(⟨peer, name⟩ : Session String)].map Session.name).Nodup :=
    List.nodup_singleton _
  have drops := h.drops distinct (List.forall_mem_singleton.2 registered)
  rw [one] at drops
  rw [send, (h.owned name peer).2 registered]
  dsimp only
  rw [line?_of_large (Message.line?_of_large large)]
  exact ⟨rfl, drops⟩

end Coherent

/-- What becomes of a registry whose owner sends a message that is too large. -/
structure Withstands (r : Registry) (m : Message) : Prop where
  /-- A message to all is delivered to nobody, and the sessions of all renderers end. -/
  broadcast : (r.step (.broadcast m)).2.answer = .delivered 0 ∧
    r.Drops r.table.sessions (r.step (.broadcast m)).2.outputs (r.step (.broadcast m)).1
  /-- So it is in whatever order the table is gone through. -/
  order : ∀ ended, ended.Perm r.table.sessions →
    (r.broadcastIn m ended).2.2 = 0 ∧
      r.Drops ended (r.broadcastIn m ended).2.1 (r.broadcastIn m ended).1
  /-- A message to one fails, and the session that has the name ends. -/
  send : ∀ peer name, r.IsRegistered peer name →
    (r.step (.send name m)).2.answer =
        .sent (.error (.transport (.sendFailed (.tooLarge ⟨m.encode.utf8ByteSize⟩)))) ∧
      r.Drops [⟨peer, name⟩] (r.step (.send name m)).2.outputs (r.step (.send name m)).1
  /-- Nothing is written to anybody. -/
  silent : ∀ step, step.message? = some m → ∀ peer, linesTo peer (r.step step).2.outputs = []
  /-- Whose session ends is reported as disconnected, each once. -/
  told : events (r.step (.broadcast m)).2.outputs = r.names.map .disconnected ∧
    ∀ name ∈ r.names, events (r.step (.send name m)).2.outputs = [.disconnected name]
  /-- Where nobody is registered nothing happens at all. -/
  nobody : r.names = [] → r.step (.broadcast m) = (r, { answer := .delivered 0 })
  unknown : ∀ name ∉ r.names,
    r.step (.send name m) = (r, { answer := .sent (.error (.unknownRenderer name)) })

/-- A message that is too large is written to nobody, and ends the sessions that it was meant
for. -/
theorem run_tooLarge (steps : List RegistryStep) (large : ¬m.Fits) :
    (run {} steps).1.Withstands m := by
  have h := coherent_empty.run steps
  generalize (run {} steps).1 = r at h
  have broadcast := h.drops_broadcastIn large (.refl _)
  have send (peer name : String) (registered : r.IsRegistered peer name) :=
    h.drops_send large registered
  refine
    { broadcast := ⟨congrArg RegistryAnswer.delivered broadcast.1, broadcast.2⟩
      order := fun ended ↦ h.drops_broadcastIn large
      send := fun peer name registered ↦
        ⟨congrArg RegistryAnswer.sent (send peer name registered).1,
          (send peer name registered).2⟩
      silent := fun step sends peer ↦ ?_
      told := ⟨?_, fun name listed ↦ ?_⟩
      nobody := fun nobody ↦ ?_
      unknown := fun name unknown ↦ ?_ }
  · cases step with
    | broadcast m' =>
      obtain rfl : m' = m := Option.some_inj.1 sends
      exact broadcast.2.silent peer
    | send name m' =>
      obtain rfl : m' = m := Option.some_inj.1 sends
      by_cases listed : name ∈ r.names
      · obtain ⟨owner, registered⟩ := h.mem_names_iff.1 listed
        exact (send owner name registered).2.silent peer
      · exact congrArg (fun result ↦ linesTo peer result.2.1) (send_of_unknown listed m')
    | _ => cases sends
  · refine broadcast.2.told.trans ?_
    rw [← map_name_sessions, List.map_map]
    rfl
  · obtain ⟨owner, registered⟩ := h.mem_names_iff.1 listed
    exact (send owner name registered).2.told
  · show ((r.broadcast m).1, RegistryOutcome.mk (.delivered (r.broadcast m).2.2)
      (r.broadcast m).2.1) = _
    rw [broadcast_eq_broadcastIn, sessions_of_names_eq_nil nobody]
    rfl
  · show ((r.send name m).1, RegistryOutcome.mk (.sent (r.send name m).2.2) (r.send name m).2.1) = _
    rw [send_of_unknown unknown]

/-- A registry that a renderer has joined. -/
def joined : Registry :=
  (run {} [.start (some 4455), .accept "peer",
    .receive "peer" (frames [(Message.hello "cmd-1" "renderer" "left").encode])]).1

theorem isRegistered_joined : joined.IsRegistered "peer" "left" := by
  have started : (run {} [.start (some 4455)]).1.isRunning = true := by decide
  have greeted : (Message.hello "cmd-1" "renderer" "left").Fits := by
    rw [Message.Fits, Message.utf8ByteSize_encode]
    decide +kernel
  have answerable : (Message.ack "cmd-1").Fits := by
    rw [Message.Fits, Message.utf8ByteSize_encode]
    decide +kernel
  have named : "left" ≠ "" := by decide
  have fresh : (run {} [.start (some 4455)]).1.connections.find? "peer" = none := rfl
  have entered := run_hello started (Admits.empty.run _) fresh named List.not_mem_nil greeted
    answerable
  rw [joined, run_cons]
  exact entered.1

theorem not_fits_longCue : ¬(Message.longCue "cmd-2" 16777216).Fits := by
  have limit : maxFrameSize = 16777216 := by decide
  rw [Message.Fits, Message.utf8ByteSize_longCue, limit]
  omega

/-- A cue with too long a name, and a renderer that is gone when it has been sent. -/
theorem run_tooLarge_cue :
    let m := Message.longCue "cmd-2" 16777216
    ¬m.Fits ∧ joined.Withstands m ∧ "left" ∈ joined.names ∧
      (joined.step (.broadcast m)).1.names = [] := by
  intro m
  have withstands : joined.Withstands m := run_tooLarge _ not_fits_longCue
  have listed : "left" ∈ joined.names :=
    (coherent_empty.run _).mem_names_iff.2 ⟨"peer", isRegistered_joined⟩
  refine ⟨not_fits_longCue, withstands, listed, withstands.broadcast.2.names.trans ?_⟩
  rw [map_name_sessions]
  simp

/-- To whomever it is sent, it costs the renderer its session. -/
theorem tooLarge_disconnects :
    let m := Message.longCue "cmd-2" 16777216
    ¬m.Fits ∧ "left" ∈ joined.names ∧ joined.IsRegistered "peer" "left" ∧
      ∀ step ∈ [RegistryStep.broadcast m, .send "left" m],
        "left" ∉ (joined.step step).1.names ∧
        (joined.step step).1.connections.find? "peer" = none ∧
        .disconnected "left" ∈ events (joined.step step).2.outputs := by
  intro m
  have h : joined.Coherent := coherent_empty.run _
  have session : ⟨"peer", "left"⟩ ∈ joined.table.sessions :=
    joined.table.mem_sessions_iff.2 ((h.owned "left" "peer").2 isRegistered_joined)
  have listed : "left" ∈ joined.names := h.mem_names_iff.2 ⟨"peer", isRegistered_joined⟩
  refine ⟨not_fits_longCue, listed, isRegistered_joined, List.forall_mem_cons.2 ⟨?_, ?_⟩⟩
  · exact (h.drops_broadcastIn not_fits_longCue (.refl _)).2.gone session
  · exact List.forall_mem_singleton.2
      ((h.drops_send not_fits_longCue isRegistered_joined).2.gone List.mem_cons_self)

end Registry

end ShowControl
