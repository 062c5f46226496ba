import ShowControl.Proofs.Registry.Peers
import ShowControl.Registry.Run

/-!
# The moments of a run

A run is taken apart into its moments: each is a step with the registry that takes it. What holds of
all registries that a run comes to, holds before each moment.
-/

namespace ShowControl

open RegistryOutput

/-- The peer that a step is about, if it is not the owner of the registry who takes it. -/
def RegistryStep.peer? : RegistryStep → Option String
  | .start _ => none
  | .stop => none
  | .accept peer => some peer
  | .receive peer _ => some peer
  | .hangUp peer => some peer
  | .block peer _ => some peer
  | .timeOut peer => some peer
  | .send _ _ => none
  | .broadcast _ => none

namespace RegistryStep

/-- The steps about a peer. -/
inductive IsAbout (peer : String) : RegistryStep → Prop where
  | accept : IsAbout peer (.accept peer)
  | receive (bytes : ByteArray) : IsAbout peer (.receive peer bytes)
  | hangUp : IsAbout peer (.hangUp peer)
  | block (fault : WriteError) : IsAbout peer (.block peer fault)
  | timeOut : IsAbout peer (.timeOut peer)

/-- The steps of the owner. -/
inductive IsOwners : RegistryStep → Prop where
  | start (bound : Option Nat) : IsOwners (.start bound)
  | stop : IsOwners .stop
  | send (name : String) (message : Message) : IsOwners (.send name message)
  | broadcast (message : Message) : IsOwners (.broadcast message)

variable {step : RegistryStep} {peer : String}

theorem isAbout (about : step.peer? = some peer) : step.IsAbout peer := by
  cases step <;> cases about <;> constructor

theorem isOwners (owner : step.peer? = none) : step.IsOwners := by
  cases step <;> first | constructor | cases owner

end RegistryStep

/-- A step with the registry that takes it. -/
structure RegistryMoment where
  before : Registry
  step : RegistryStep

namespace RegistryMoment

variable (moment : RegistryMoment)

/-- The registry that the step leaves. -/
def after : Registry := (moment.before.step moment.step).1

/-- What the step comes to. -/
def outcome : RegistryOutcome := (moment.before.step moment.step).2

/-- The events that the step reports. -/
def told : List RegistryEvent := events moment.outcome.outputs

/-- The peer connects. -/
def Connects (peer : String) : Prop :=
  moment.step = .accept peer ∧ (moment.before.accept peer).2 = true

end RegistryMoment

namespace Registry

/-- The moments of a run. -/
def moments (r : Registry) : List RegistryStep → List RegistryMoment
  | [] => []
  | step :: steps => ⟨r, step⟩ :: moments (r.step step).1 steps

/-- The outputs of a run, in order. -/
def outputs (r : Registry) (steps : List RegistryStep) : List RegistryOutput :=
  (r.run steps).2.flatMap RegistryOutcome.outputs

/-- The events that a run reports, in order. -/
def told (r : Registry) (steps : List RegistryStep) : List RegistryEvent :=
  events (r.outputs steps)

variable {r : Registry} {peer : String}

theorem run_cons (r : Registry) (step : RegistryStep) (steps : List RegistryStep) :
    r.run (step :: steps) =
      (((r.step step).1.run steps).1, (r.step step).2 :: ((r.step step).1.run steps).2) :=
  Transducer.run_cons ..

theorem run_append (r : Registry) (before after : List RegistryStep) :
    r.run (before ++ after) =
      (((r.run before).1.run after).1, (r.run before).2 ++ ((r.run before).1.run after).2) :=
  Transducer.run_append ..

theorem length_run (r : Registry) (steps : List RegistryStep) :
    (r.run steps).2.length = steps.length := by
  induction steps generalizing r with
  | nil => rfl
  | cons step steps ih => rw [run_cons, List.length_cons, List.length_cons, ih]

theorem outputs_cons (r : Registry) (step : RegistryStep) (steps : List RegistryStep) :
    r.outputs (step :: steps) = (r.step step).2.outputs ++ (r.step step).1.outputs steps := by
  rw [outputs, run_cons, List.flatMap_cons, outputs]

theorem outputs_append (r : Registry) (before after : List RegistryStep) :
    r.outputs (before ++ after) = r.outputs before ++ (r.run before).1.outputs after := by
  rw [outputs, run_append, List.flatMap_append]
  rfl

theorem moments_append (r : Registry) (before after : List RegistryStep) :
    r.moments (before ++ after) = r.moments before ++ (r.run before).1.moments after := by
  induction before generalizing r with
  | nil => rfl
  | cons step before ih =>
    rw [List.cons_append, moments, ih, run_cons]
    rfl

theorem step_mem_of_mem_moments {steps : List RegistryStep} {moment : RegistryMoment}
    (h : moment ∈ r.moments steps) : moment.step ∈ steps := by
  induction steps generalizing r with
  | nil => cases h
  | cons step steps ih =>
    rcases List.mem_cons.1 h with rfl | later
    · exact List.mem_cons_self
    · exact List.mem_cons_of_mem _ (ih later)

/-- A moment comes after some of the steps. -/
theorem exists_before_of_mem_moments {steps : List RegistryStep} {moment : RegistryMoment}
    (h : moment ∈ r.moments steps) :
    ∃ before, before ++ [moment.step] <+: steps ∧ moment.before = (r.run before).1 := by
  induction steps generalizing r with
  | nil => cases h
  | cons step steps ih =>
    rcases List.mem_cons.1 h with rfl | later
    · exact ⟨[], List.prefix_append [step] steps, rfl⟩
    · obtain ⟨before, begun, state⟩ := ih later
      refine ⟨step :: before, List.cons_prefix_cons.2 ⟨rfl, begun⟩, ?_⟩
      rw [run_cons]
      exact state

theorem not_connects {steps : List RegistryStep} (h : .accept peer ∉ steps) :
    ∀ moment ∈ r.moments steps, ¬moment.Connects peer := by
  rintro moment mem ⟨connects, -⟩
  rw [← connects] at h
  exact h (step_mem_of_mem_moments mem)

/-! ### Steps about other peers -/

/-- A peer that cannot connect changes nothing. -/
theorem accept_of_refused (refused : (r.accept peer).2 ≠ true) : (r.accept peer).1 = r := by
  rw [accept] at refused ⊢
  split
  · next possible =>
    rw [if_pos possible] at refused
    exact absurd rfl refused
  · rfl

theorem block_of_closed (closed : r.connections.find? peer = none) (fault : WriteError) :
    r.block peer fault = r := by
  rw [block, closed]

/-- What comes from a peer that is not connected is ignored. -/
theorem step_of_closed (closed : r.connections.find? peer = none) {step : RegistryStep}
    (about : step.peer? = some peer) (once : ¬RegistryMoment.Connects ⟨r, step⟩ peer) :
    (r.step step).1 = r ∧ (r.step step).2.outputs = [] := by
  cases RegistryStep.isAbout about with
  | accept =>
    exact ⟨accept_of_refused fun accepted ↦ once ⟨rfl, accepted⟩, rfl⟩
  | receive bytes =>
    exact Prod.mk.inj (receive_of_closed closed bytes)
  | hangUp =>
    exact Prod.mk.inj (forget_closed closed)
  | block fault =>
    exact ⟨block_of_closed closed fault, rfl⟩
  | timeOut =>
    exact Prod.mk.inj (timeOut_of_closed closed)

section Others

variable {other : String} {step : RegistryStep}

/-- A step about one peer leaves the connections of all others. -/
theorem find?_step_of_ne (about : step.peer? = some peer) (ne : peer ≠ other) :
    (r.step step).1.connections.find? other = r.connections.find? other := by
  cases RegistryStep.isAbout about with
  | accept =>
    show (r.accept peer).1.connections.find? other = _
    rw [accept]
    split
    · exact Catalog.find?_insert_of_ne _ _ ne
    · rfl
  | receive bytes =>
    exact find?_receive_of_ne ne r bytes
  | hangUp =>
    exact (find?_forget r peer other).trans (if_neg ne)
  | block fault =>
    exact (find?_block r peer other fault).trans (if_neg ne)
  | timeOut =>
    show (r.timeOut peer).1.connections.find? other = _
    rw [timeOut]
    split
    · exact Catalog.find?_erase_of_ne _ ne
    · rfl

theorem linesTo_step_of_ne (about : step.peer? = some peer) (ne : peer ≠ other) :
    linesTo other (r.step step).2.outputs = [] := by
  cases RegistryStep.isAbout about with
  | accept => rfl
  | receive bytes =>
    exact linesTo_receive_of_ne ne r bytes
  | hangUp => exact linesTo_forget r _ other
  | block fault => rfl
  | timeOut =>
    exact linesTo_timeOut_of_ne ne r

end Others

/-! ### Steps of the owner -/

section Owner

variable (h : r.Coherent) {other : String}
include h

/-- Sending and broadcasting leave the connections of those that are not registered. -/
theorem Coherent.find?_send_of_unregistered (unregistered : ∀ name, ¬r.IsRegistered other name)
    (name : String) (m : Message) :
    (r.send name m).1.connections.find? other = r.connections.find? other := by
  rw [send]
  split
  · rfl
  · next peer session =>
    split
    · rfl
    · have ne : peer ≠ other := by
        rintro rfl
        exact unregistered name ((h.owned name peer).1 session)
      exact (find?_dismiss r ⟨peer, name⟩ other).trans (if_neg ne)

theorem Coherent.find?_broadcast_of_unregistered
    (unregistered : ∀ name, ¬r.IsRegistered other name) (m : Message) :
    (r.broadcast m).1.connections.find? other = r.connections.find? other := by
  rw [broadcast_eq_broadcastIn, broadcastIn_eq]
  refine (find?_run_dismiss r _ other).trans (if_neg fun dismissed ↦ ?_)
  have listed := (List.filter_sublist.map Session.id).subset dismissed
  exact not_exists.2 unregistered (h.mem_peers_iff.1 listed)

theorem Coherent.find?_step_of_unregistered (unregistered : ∀ name, ¬r.IsRegistered other name)
    {step : RegistryStep} (owner : step.peer? = none) (goes_on : step ≠ .stop) :
    (r.step step).1.connections.find? other = r.connections.find? other := by
  cases RegistryStep.isOwners owner with
  | start bound => exact congrArg (·.find? other) (connections_start r bound)
  | stop => exact absurd rfl goes_on
  | send name m => exact h.find?_send_of_unregistered unregistered name m
  | broadcast m => exact h.find?_broadcast_of_unregistered unregistered m

omit h in
/-- A message that is sent is written to the peer with the name, if it can be. -/
theorem linesTo_send (r : Registry) (name : String) (m : Message) (other : String) :
    linesTo other (r.send name m).2.1 =
      if r.table.find? name = some other ∧ r.CanWrite other m then [m.encode] else [] := by
  rw [send]
  split
  · next unknown =>
    rw [unknown, if_neg (by simp)]
    rfl
  · next peer session =>
    rw [session]
    by_cases written : r.CanWrite peer m
    · rw [line?_of_canWrite written]
      dsimp only
      rw [linesTo_line]
      by_cases same : peer = other
      · rw [if_pos same, if_pos ⟨congrArg some same, same ▸ written⟩]
        rfl
      · rw [if_neg same, if_neg fun both ↦ same (Option.some_inj.1 both.1)]
        rfl
    · obtain ⟨reason, failed⟩ := exists_line?_eq_error written
      rw [failed, if_neg]
      · exact linesTo_dismiss r _ other
      · rintro ⟨⟨⟩, written'⟩
        exact written written'

/-- A message that is broadcast is written to all peers that are registered, if it can be. -/
theorem Coherent.linesTo_broadcast (m : Message) (other : String) :
    linesTo other (r.broadcast m).2.1 =
      if other ∈ r.table.sessions.map Session.id ∧ r.CanWrite other m then [m.encode] else [] := by
  have last := linesTo_run (fun r s ↦ linesTo_dismiss r s other) r
    (r.unreached m r.table.sessions)
  rw [broadcast_eq_broadcastIn, broadcastIn_eq]
  dsimp only
  rw [linesTo_append, last, List.append_nil]
  split
  · next here => exact linesTo_map_line_of_mem (h.nodup_reached m) (mem_map_reached.2 here) _
  · next absent => exact linesTo_map_line (fun here ↦ absent (mem_map_reached.1 here)) _

/-- To those that are not registered the owner writes nothing. -/
theorem Coherent.linesTo_step_of_unregistered (unregistered : ∀ name, ¬r.IsRegistered other name)
    {step : RegistryStep} (owner : step.peer? = none) :
    linesTo other (r.step step).2.outputs = [] := by
  cases RegistryStep.isOwners owner with
  | start bound => rfl
  | stop => exact linesTo_stop r other
  | send name m =>
    refine (linesTo_send r name m other).trans (if_neg ?_)
    exact fun session ↦ unregistered name ((h.owned name other).1 session.1)
  | broadcast m =>
    refine (h.linesTo_broadcast m other).trans (if_neg ?_)
    exact fun listed ↦ not_exists.2 unregistered (h.mem_peers_iff.1 listed.1)

end Owner

/-! ### Visits -/

/-- The registry when a peer has connected to it after some steps. -/
def entered (before : List RegistryStep) (peer : String) : Registry :=
  ((run {} before).1.accept peer).1

/-- A peer connects after some steps and does not connect again during the steps that follow. -/
structure Visit (peer : String) (before after : List RegistryStep) : Prop where
  connected : ((run {} before).1.accept peer).2 = true
  once : ∀ moment ∈ (entered before peer).moments after, ¬moment.Connects peer

theorem run_visit (peer : String) (before after : List RegistryStep) :
    (run {} (before ++ .accept peer :: after)).1 = ((entered before peer).run after).1 := by
  rw [run_append, run_cons]
  rfl

/-- A visit may be looked at before it is over. -/
theorem Visit.left {before first second : List RegistryStep}
    (h : Visit peer before (first ++ second)) : Visit peer before first where
  connected := h.connected
  once moment mem := h.once moment (by
    rw [moments_append]
    exact List.mem_append_left _ mem)

theorem Visit.once_right {before first second : List RegistryStep}
    (h : Visit peer before (first ++ second)) :
    ∀ moment ∈ ((entered before peer).run first).1.moments second, ¬moment.Connects peer := by
  intro moment mem
  refine h.once moment ?_
  rw [moments_append]
  exact List.mem_append_right _ mem

/-- A visit begins with a connection of which nothing is known yet. -/
theorem Visit.find?_entered {before after : List RegistryStep} (h : Visit peer before after) :
    (entered before peer).connections.find? peer = some {} := by
  have connected := h.connected
  rw [accept] at connected
  split at connected
  · next possible =>
    rw [entered, accept, if_pos possible]
    exact Catalog.find?_insert_self ..
  · cases connected

/-! ### What holds at every moment -/

/-- No step makes a registry incoherent. -/
theorem Coherent.step (h : r.Coherent) (step : RegistryStep) : (r.step step).1.Coherent := by
  cases step with
  | start bound => exact (spares_start (P := fun _ ↦ False) h bound).coherent
  | stop => exact (spares_stop (P := fun _ ↦ False) h).coherent
  | accept peer => exact (spares_accept h peer).coherent
  | receive peer bytes => exact (spares_receive h peer bytes).coherent
  | hangUp peer => exact h.forget peer
  | block peer fault => exact (spares_block h peer fault).coherent
  | timeOut peer => exact (spares_timeOut (P := fun _ ↦ False) h peer).coherent
  | send name m => exact (spares_send (P := fun _ ↦ False) h name m).coherent
  | broadcast m => exact (spares_broadcast (P := fun _ ↦ False) h m).coherent

theorem Coherent.run (h : r.Coherent) (steps : List RegistryStep) : (r.run steps).1.Coherent := by
  induction steps generalizing r with
  | nil => exact h
  | cons step steps ih =>
    rw [run_cons]
    exact ih (h.step step)

theorem coherent_entered (before : List RegistryStep) (peer : String) :
    (entered before peer).Coherent :=
  (spares_accept (coherent_empty.run before) peer).coherent

theorem Coherent.moments (h : r.Coherent) (steps : List RegistryStep) :
    ∀ moment ∈ r.moments steps, moment.before.Coherent := by
  induction steps generalizing r with
  | nil => exact fun _ mem ↦ absurd mem List.not_mem_nil
  | cons step steps ih => exact List.forall_mem_cons.2 ⟨h, ih (h.step step)⟩

end Registry

end ShowControl
