import ShowControl.Proofs.Registry.Listing
import ShowControl.Proofs.Registry.Ownership

/-!
# What ends a registration

A registration ends when the registry stops, when its peer hangs up or sends a line over the limit,
and when a message cannot be written to the peer (`RegistryStep.Severs`). What is over the limit and
what can be written is settled by the conversation with the peer. These steps end a registration
(`Sound.severed`), and no others do (`Sound.unsevered`).

A step of the owner can end several registrations at once, those of the names that it severs
(`severed`). It reports their ends and nothing else (`Coherent.ends_step`).
-/

namespace ShowControl

open Splitter RegistryOutput RegistryEvent

/-- A message that is sent in a conversation can be written. -/
def Conversation.Carries (talk : Conversation) (m : Message) : Prop := m.Fits ∧ talk.fault = none

/-- The steps that end the registration of a peer under a name, by the conversation with it. -/
inductive RegistryStep.Severs (talk : Conversation) (peer name : String) : RegistryStep → Prop where
  | stop : Severs talk peer name .stop
  | hangUp : Severs talk peer name (.hangUp peer)
  /-- A line of the peer is over the limit. -/
  | oversized {bytes : ByteArray} (large : oversized (talk.received ++ bytes.data.toList) = true) :
      Severs talk peer name (.receive peer bytes)
  | send {m : Message} (unwritten : ¬talk.Carries m) : Severs talk peer name (.send name m)
  | broadcast {m : Message} (unwritten : ¬talk.Carries m) : Severs talk peer name (.broadcast m)

namespace RegistryStep

variable {talk : Conversation} {peer name other : String} {m : Message}

theorem severs_send_iff :
    (send other m).Severs talk peer name ↔ other = name ∧ ¬talk.Carries m := by
  constructor
  · intro severs
    cases severs with
    | send unwritten => exact ⟨rfl, unwritten⟩
  · rintro ⟨rfl, unwritten⟩
    exact .send unwritten

theorem severs_broadcast_iff : (broadcast m).Severs talk peer name ↔ ¬talk.Carries m := by
  constructor
  · intro severs
    cases severs with
    | broadcast unwritten => exact unwritten
  · exact .broadcast

end RegistryStep

namespace Registry

variable {r r' : Registry} {talks : String → Conversation} {peer name : String}

/-! ### Steps of the owner -/

/-- The names whose registrations a step of the owner ends. -/
def severed (r : Registry) : RegistryStep → List String
  | .stop => r.names
  | .send name m =>
    match r.table.find? name with
    | none => []
    | some peer => if r.CanWrite peer m then [] else [name]
  | .broadcast m => (r.unreached m r.table.sessions).map Session.name
  | _ => []

/-- What a step of the owner does: the registrations under some names end and are reported, and of
the other connections perhaps those that are in the greeting. -/
structure Ends (r : Registry) (ended : List String) (told : List RegistryEvent) (r' : Registry) :
    Prop where
  nodup : ended.Nodup
  told : told = ended.map .disconnected
  owned : ∀ name ∈ ended, ∃ peer, r.IsRegistered peer name
  registered : ∀ peer name, r.IsRegistered peer name →
    r'.standing? peer = if name ∈ ended then none else some (.registered name)
  greeting : ∀ peer, r.standing? peer = some .greeting →
    r'.standing? peer = some .greeting ∨ r'.standing? peer = none
  closed : ∀ peer, r.standing? peer = none → r'.standing? peer = none

/-- Nothing ends where all connections stay. -/
theorem Ends.of_connections_eq (same : r'.connections = r.connections) : Ends r [] [] r' := by
  have stands (peer : String) : r'.standing? peer = r.standing? peer :=
    standing?_congr (by rw [same])
  refine ⟨.nil, rfl, fun _ mem ↦ absurd mem List.not_mem_nil, ?_, ?_, ?_⟩
  · intro peer name registered
    rw [stands, if_neg List.not_mem_nil, standing?_eq_registered_iff.2 registered]
  · intro peer waiting
    rw [stands]
    exact .inl waiting
  · intro peer closed
    rw [stands, closed]

namespace Coherent

variable (h : r.Coherent)
include h

theorem ends_stop : Ends r r.names (events r.stop.2) r.stop.1 := by
  by_cases running : r.isRunning = true
  · have closed (peer : String) : r.stop.1.standing? peer = none := by
      rw [stop_of_running running]
      rfl
    refine ⟨r.nodup_names, events_stop running, ?_, ?_, fun peer _ ↦ .inr (closed peer),
      fun peer _ ↦ closed peer⟩
    · intro name listed
      exact h.mem_names_iff.1 listed
    · intro peer name registered
      rw [closed, if_pos (h.mem_names_iff.2 ⟨peer, registered⟩)]
  · -- nobody is registered where nobody can connect
    have port : r.port = none := by simpa [isRunning] using running
    have unlisted : r.names = [] := List.eq_nil_iff_forall_not_mem.2 fun name listed ↦ by
      obtain ⟨peer, c, found, -⟩ := h.mem_names_iff.1 listed
      cases (h.idle port peer).symm.trans found
    rw [stop_of_idle port, unlisted]
    exact .of_connections_eq rfl

/-- Registrations that are dismissed end, and no others. -/
theorem ends_run_dismiss {sessions : List (Session String)}
    (nodup : (sessions.map Session.name).Nodup)
    (registered : ∀ s ∈ sessions, r.IsRegistered s.id s.name) :
    Ends r (sessions.map Session.name) (events (Transducer.run Registry.dismiss r sessions).2)
      (Transducer.run Registry.dismiss r sessions).1 := by
  have left (peer : String) : (Transducer.run Registry.dismiss r sessions).1.standing? peer =
      if peer ∈ sessions.map Session.id then none else r.standing? peer := by
    rw [standing?, find?_run_dismiss]
    split <;> rfl
  refine ⟨nodup, ?_, ?_, ?_, ?_, ?_⟩
  · rw [h.events_run_dismiss nodup registered, List.map_map]
    rfl
  · intro name ended
    obtain ⟨s, listed, rfl⟩ := List.mem_map.1 ended
    exact ⟨s.id, registered s listed⟩
  · intro peer name here
    -- a connection ends with its name, as each has the other for itself
    have same : peer ∈ sessions.map Session.id ↔ name ∈ sessions.map Session.name := by
      simp only [List.mem_map]
      constructor
      · rintro ⟨s, listed, rfl⟩
        exact ⟨s, listed, (registered s listed).name_unique here⟩
      · rintro ⟨s, listed, rfl⟩
        exact ⟨s, listed, h.eq_of_isRegistered (registered s listed) here⟩
    rw [left, standing?_eq_registered_iff.2 here]
    simp only [same]
  · intro peer waiting
    rw [left]
    split
    · exact .inr rfl
    · exact .inl waiting
  · intro peer closed
    rw [left, closed, ite_self]

theorem ends_send (name : String) (m : Message) :
    Ends r (r.severed (.send name m)) (events (r.send name m).2.1) (r.send name m).1 := by
  rw [severed, send]
  cases session : r.table.find? name with
  | none => exact .of_connections_eq rfl
  | some peer =>
    dsimp only
    by_cases written : r.CanWrite peer m
    · rw [if_pos written, line?_of_canWrite written]
      exact .of_connections_eq rfl
    · obtain ⟨reason, failed⟩ := exists_line?_eq_error written
      have one : Transducer.run Registry.dismiss r [⟨peer, name⟩] = r.dismiss ⟨peer, name⟩ := by
        rw [Transducer.run_cons, Transducer.run_nil, List.append_nil]
      have here : ∀ s ∈ [(⟨peer, name⟩ : Session String)], r.IsRegistered s.id s.name := by
        simpa using (h.owned name peer).1 session
      have ends := h.ends_run_dismiss (by simp) here
      rw [one] at ends
      rw [if_neg written, failed]
      exact ends

theorem ends_broadcast (m : Message) :
    Ends r (r.severed (.broadcast m)) (events (r.broadcast m).2.1) (r.broadcast m).1 := by
  have some_of : List.Sublist (r.unreached m r.table.sessions) r.table.sessions :=
    List.filter_sublist
  rw [broadcast_eq_broadcastIn, broadcastIn_eq]
  dsimp only
  rw [events_append, events_map_line, List.nil_append]
  refine h.ends_run_dismiss ?_ fun s listed ↦ ?_
  · refine List.Nodup.sublist (some_of.map Session.name) ?_
    rw [map_name_sessions]
    exact r.nodup_names
  · exact (h.owned s.name s.id).1 (r.table.mem_sessions_iff.1 (some_of.subset listed))

/-- A step that is about no peer ends registrations, and nothing else is reported of it. -/
theorem ends_step {step : RegistryStep} (owner : step.peer? = none) :
    Ends r (r.severed step) (events (r.step step).2.outputs) (r.step step).1 := by
  cases RegistryStep.isOwners owner with
  | start bound => exact .of_connections_eq (connections_start r bound)
  | stop => exact h.ends_stop
  | send name m => exact h.ends_send name m
  | broadcast m => exact h.ends_broadcast m

end Coherent

/-- A message to a name severs it if it cannot be written. -/
theorem mem_severed_send_iff (session : r.table.find? name = some peer) {other : String}
    {m : Message} : name ∈ r.severed (.send other m) ↔ other = name ∧ ¬r.CanWrite peer m := by
  by_cases same : other = name
  · subst same
    rw [severed, session]
    dsimp only
    by_cases written : r.CanWrite peer m <;> simp [written]
  · refine iff_of_false (fun mem ↦ ?_) fun both ↦ same both.1
    rw [severed] at mem
    split at mem
    · cases mem
    · split at mem
      · cases mem
      · exact same (List.mem_singleton.1 mem).symm

/-- A message to all severs the names of those to whom it cannot be written. -/
theorem mem_severed_broadcast_iff (session : r.table.find? name = some peer) {m : Message} :
    name ∈ r.severed (.broadcast m) ↔ ¬r.CanWrite peer m := by
  simp only [severed, unreached, List.mem_map, List.mem_filter, decide_eq_true_eq]
  constructor
  · rintro ⟨s, ⟨there, unwritten⟩, rfl⟩
    have owner := r.table.mem_sessions_iff.1 there
    rw [session, Option.some_inj] at owner
    rwa [owner]
  · intro unwritten
    exact ⟨⟨peer, name⟩, ⟨r.table.mem_sessions_iff.2 session, unwritten⟩, rfl⟩

/-! ### By the conversation -/

namespace Sound

variable {step : RegistryStep} (h : r.Sound talks) (registered : r.IsRegistered peer name)
include h registered

/-- A message that reaches a renderer is one that its conversation carries. -/
theorem canWrite_iff (m : Message) : r.CanWrite peer m ↔ (talks peer).Carries m := by
  obtain ⟨c, found, -⟩ := registered
  rw [CanWrite, fault?_of_find? found, (h.reflects peer c found).fault, Conversation.Carries]

/-- The lines of a registered peer leave it registered, unless one is over the limit. -/
theorem standing?_receive (bytes : ByteArray) :
    (r.receive peer bytes).1.standing? peer =
      if oversized ((talks peer).received ++ bytes.data.toList) then none
      else some (.registered name) := by
  obtain ⟨c, found, standing⟩ := registered
  obtain ⟨i, drained, -⟩ := ((h.reflects peer c found).inbox.append bytes).drain
  let stored : Registry := { r with connections := r.connections.insert peer { c with inbox := i } }
  have taken := run_takeLine_registered (r := stored) (Catalog.find?_insert_self ..) standing
  have stands : stored.standing? peer = some c.standing :=
    standing?_of_find? (c := { c with inbox := i }) (Catalog.find?_insert_self ..)
  rw [Registry.receive, found]
  dsimp only
  rw [drained, oversized_append, Splitter.report]
  dsimp only
  rw [taken]
  cases oversized (pending (talks peer).received ++ bytes.data.toList) with
  | true => exact standing?_eq_none_iff.2 (drop_closes _ peer)
  | false => exact stands.trans (congrArg some standing)

/-- What the owner severs is what the conversation says. -/
theorem mem_severed_iff (owner : step.peer? = none) :
    name ∈ r.severed step ↔ step.Severs (talks peer) peer name := by
  have session : r.table.find? name = some peer := (h.coherent.owned name peer).2 registered
  cases RegistryStep.isOwners owner with
  | start bound => exact iff_of_false List.not_mem_nil nofun
  | stop => exact iff_of_true (h.coherent.mem_names_iff.2 ⟨peer, registered⟩) .stop
  | send other m =>
    rw [mem_severed_send_iff session, RegistryStep.severs_send_iff, h.canWrite_iff registered]
  | broadcast m =>
    rw [mem_severed_broadcast_iff session, RegistryStep.severs_broadcast_iff,
      h.canWrite_iff registered]

/-! ### All steps -/

/-- What severs a registration closes its connection. -/
theorem severed (severs : step.Severs (talks peer) peer name) :
    (r.step step).1.standing? peer = none := by
  have owners (owner : step.peer? = none) : (r.step step).1.standing? peer = none := by
    rw [(h.coherent.ends_step owner).registered peer name registered,
      if_pos ((h.mem_severed_iff registered owner).2 severs)]
  cases severs with
  | hangUp => exact standing?_eq_none_iff.2 (forget_closes r peer)
  | oversized large => exact (h.standing?_receive registered _).trans (if_pos large)
  | stop => exact owners rfl
  | send => exact owners rfl
  | broadcast => exact owners rfl

/-- What does not sever a registration leaves it. -/
theorem unsevered (goes_on : ¬step.Severs (talks peer) peer name) :
    (r.step step).1.standing? peer = some (.registered name) := by
  have stands := standing?_eq_registered_iff.2 registered
  cases about : step.peer? with
  | none =>
    rw [(h.coherent.ends_step about).registered peer name registered,
      if_neg fun severed ↦ goes_on ((h.mem_severed_iff registered about).1 severed)]
  | some other =>
    by_cases same : other = peer
    · subst same
      cases RegistryStep.isAbout about with
      | accept =>
        obtain ⟨c, found, -⟩ := id registered
        have refused : (r.accept other).1 = r := by
          rw [Registry.accept, Catalog.contains, found]
          simp
        exact (congrArg (·.standing? other) refused).trans stands
      | receive bytes =>
        have within : ¬oversized ((talks other).received ++ bytes.data.toList) = true :=
          fun large ↦ goes_on (.oversized large)
        exact (h.standing?_receive registered bytes).trans (if_neg within)
      | hangUp => exact absurd .hangUp goes_on
      | block fault => exact (standing?_block r other other fault).trans stands
      | timeOut =>
        have ignored : r.timeOut other = (r, []) := by
          rw [Registry.timeOut]
          split
          · next waiting => cases stands.symm.trans waiting
          · rfl
        exact (congrArg (·.1.standing? other) ignored).trans stands
    · rw [standing?_congr (find?_step_of_ne about same), stands]

end Sound

end Registry

end ShowControl
