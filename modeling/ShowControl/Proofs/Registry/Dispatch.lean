import Mathlib.Data.Set.Card
import ShowControl.Proofs.Registry.Blocking
import ShowControl.Proofs.Registry.History
import ShowControl.Proofs.Registry.Listening

/-!
# Whom a message is written to

A message of the owner is addressed to all that are registered and not blocked, or to the one that
is registered under a name. Once the handshake of a connection is over, these are the only lines
that are written to its peer: none where it has ended, and while it is registered the messages that
are addressed to it, each once and in the order in which they are sent (`Coherent.linesTo_outputs`).

A message that is broadcast goes to the peers that the table leads to, each of which it leads to
once. So the number that is told is the number of those that are written to
(`Coherent.encard_recipients`), and the order in which the table is gone through is seen neither by
them nor in what is left (`Coherent.broadcastIn_perm`).
-/

namespace ShowControl

open RegistryOutput

/-- The message that the owner has a registry send. -/
def RegistryStep.message? : RegistryStep → Option Message
  | .send _ m => some m
  | .broadcast m => some m
  | _ => none

/-- The message that a step sends to who is registered under a name. -/
def RegistryStep.addressed? (name : String) : RegistryStep → Option Message
  | .send about m => if about = name then some m else none
  | .broadcast m => some m
  | _ => none

/-- The message that a step sends to a peer, which must be registered for it and not blocked. -/
def RegistryMoment.addressed? (moment : RegistryMoment) (peer : String) : Option Message :=
  match moment.before.standing? peer, moment.before.fault? peer with
  | some (.registered name), none => moment.step.addressed? name
  | _, _ => none

namespace RegistryStep

variable {step : RegistryStep} {name : String} {m : Message}

theorem message?_of_addressed? (h : step.addressed? name = some m) : step.message? = some m := by
  cases step with
  | send about m' =>
    rw [addressed?] at h
    split at h
    · exact h
    · cases h
  | broadcast m' => exact h
  | start bound => cases h
  | stop => cases h
  | accept peer => cases h
  | receive peer bytes => cases h
  | hangUp peer => cases h
  | block peer fault => cases h
  | timeOut peer => cases h

theorem addressed?_of_peer {peer : String} (about : step.peer? = some peer) :
    step.addressed? name = none := by
  cases isAbout about <;> rfl

end RegistryStep

namespace RegistryMoment

variable {moment : RegistryMoment} {peer name : String} {m : Message}

theorem addressed?_of_registered (registered : moment.before.IsRegistered peer name) :
    moment.addressed? peer =
      if moment.before.fault? peer = none then moment.step.addressed? name else none := by
  rw [addressed?, Registry.standing?_eq_registered_iff.2 registered]
  cases moment.before.fault? peer <;> rfl

theorem addressed?_of_closed (closed : moment.before.standing? peer = none) :
    moment.addressed? peer = none := by
  rw [addressed?, closed]

theorem addressed?_of_greeting (waiting : moment.before.standing? peer = some .greeting) :
    moment.addressed? peer = none := by
  rw [addressed?, waiting]

theorem message?_of_addressed? (h : moment.addressed? peer = some m) :
    moment.step.message? = some m := by
  rw [addressed?] at h
  split at h
  · exact RegistryStep.message?_of_addressed? h
  · cases h

end RegistryMoment

namespace Registry

variable {r : Registry} {peer name : String}

/-- The messages that a run sends to a peer, in order. -/
def addressed (r : Registry) (peer : String) (steps : List RegistryStep) : List Message :=
  (r.moments steps).filterMap (·.addressed? peer)

theorem addressed_append (r : Registry) (peer : String) (before after : List RegistryStep) :
    r.addressed peer (before ++ after) =
      r.addressed peer before ++ (r.run before).1.addressed peer after := by
  rw [addressed, moments_append, List.filterMap_append]
  rfl

theorem addressed_cons (r : Registry) (peer : String) (step : RegistryStep)
    (steps : List RegistryStep) :
    r.addressed peer (step :: steps) =
      (RegistryMoment.addressed? ⟨r, step⟩ peer).toList ++
        (r.step step).1.addressed peer steps := by
  rw [addressed, Registry.moments, List.filterMap_cons]
  cases RegistryMoment.addressed? ⟨r, step⟩ peer <;> rfl

/-! ### After the handshake -/

/-- Bytes of a registered peer are not answered. -/
theorem linesTo_receive_of_registered (registered : r.IsRegistered peer name) (bytes : ByteArray) :
    linesTo peer (r.receive peer bytes).2 = [] := by
  obtain ⟨c, found, standing⟩ := registered
  rw [receive, found]
  dsimp only
  obtain ⟨i, lines, oversized⟩ := (c.inbox.append bytes).drain
  have stored : Catalog.find? (r.connections.insert peer { c with inbox := i }) peer =
      some { c with inbox := i } :=
    Catalog.find?_insert_self ..
  cases oversized with
  | none =>
    dsimp only
    rw [run_takeLine_registered (c := { c with inbox := i }) stored standing]
    exact linesTo_events peer _
  | some _ =>
    dsimp only
    rw [run_takeLine_registered (c := { c with inbox := i }) stored standing, linesTo_append,
      linesTo_drop, List.append_nil]
    exact linesTo_events peer _

/-- Nothing that a registered peer does is answered. -/
theorem linesTo_step_of_own (registered : r.IsRegistered peer name) {step : RegistryStep}
    (about : step.peer? = some peer) : linesTo peer (r.step step).2.outputs = [] := by
  cases RegistryStep.isAbout about with
  | accept => rfl
  | receive bytes => exact linesTo_receive_of_registered registered bytes
  | hangUp => exact linesTo_forget r peer peer
  | block fault => rfl
  | timeOut =>
    show linesTo peer (r.timeOut peer).2 = []
    rw [timeOut, ← standing?, standing?_eq_registered_iff.2 registered]
    rfl

section Decided

variable (h : r.Coherent)
include h

/-- The owner writes to a registered peer what it sends to its name, while this can be written. -/
theorem Coherent.linesTo_step_of_owner (registered : r.IsRegistered peer name)
    {step : RegistryStep} (owner : step.peer? = none)
    (small : ∀ m, step.addressed? name = some m → m.Fits) :
    linesTo peer (r.step step).2.outputs =
      if r.fault? peer = none then ((step.addressed? name).map Message.encode).toList else [] := by
  cases RegistryStep.isOwners owner with
  | start bound => exact (ite_self []).symm
  | stop => exact (linesTo_stop r peer).trans (ite_self []).symm
  | send about m =>
    refine (linesTo_send r about m peer).trans ?_
    rw [RegistryStep.addressed?]
    by_cases same : about = name
    · subst same
      have session := (h.owned about peer).2 registered
      rw [if_pos rfl]
      refine if_congr ?_ rfl rfl
      exact ⟨fun both ↦ both.2.2, fun clean ↦ ⟨session, small m (if_pos rfl), clean⟩⟩
    · -- the table leads to the peer under its own name and under no other
      rw [if_neg same, if_neg, Option.map_none, Option.toList_none, ite_self]
      exact fun both ↦ same (((h.owned about peer).1 both.1).name_unique registered)
  | broadcast m =>
    refine (h.linesTo_broadcast m peer).trans (if_congr ?_ rfl rfl)
    have listed := h.mem_peers_iff.2 ⟨name, registered⟩
    exact ⟨fun both ↦ both.2.2, fun clean ↦ ⟨listed, small m rfl, clean⟩⟩

/-- The lines that a step writes to a registered peer are what it sends to it. -/
theorem Coherent.linesTo_step_of_registered (registered : r.IsRegistered peer name)
    {step : RegistryStep} (small : ∀ m, step.addressed? name = some m → m.Fits) :
    linesTo peer (r.step step).2.outputs =
      ((RegistryMoment.addressed? ⟨r, step⟩ peer).map Message.encode).toList := by
  rw [RegistryMoment.addressed?_of_registered registered]
  cases about : step.peer? with
  | none =>
    rw [h.linesTo_step_of_owner registered about small]
    dsimp only
    split <;> rfl
  | some other =>
    have silent : linesTo peer (r.step step).2.outputs = [] := by
      by_cases same : other = peer
      · exact linesTo_step_of_own registered (same ▸ about)
      · exact linesTo_step_of_ne about same
    rw [silent]
    dsimp only
    rw [RegistryStep.addressed?_of_peer about, ite_self]
    rfl

/-- Where there is no connection nothing is written. -/
theorem Coherent.linesTo_step_of_closed (closed : r.standing? peer = none) (step : RegistryStep) :
    linesTo peer (r.step step).2.outputs = [] := by
  have gone := standing?_eq_none_iff.1 closed
  cases about : step.peer? with
  | none =>
    refine h.linesTo_step_of_unregistered ?_ about
    rintro name ⟨c, found, -⟩
    rw [gone] at found
    cases found
  | some other =>
    by_cases same : other = peer
    · subst same
      by_cases connects : RegistryMoment.Connects ⟨r, step⟩ other
      · obtain ⟨rfl, -⟩ := connects
        rfl
      · rw [(step_of_closed gone about connects).2]
        rfl
    · exact linesTo_step_of_ne about same

/-- Once a handshake is over, the peer is written what is addressed to it. -/
theorem Coherent.linesTo_step_of_decided (decided : r.standing? peer ≠ some .greeting)
    {step : RegistryStep} (small : ∀ m, step.message? = some m → m.Fits) :
    linesTo peer (r.step step).2.outputs =
      ((RegistryMoment.addressed? ⟨r, step⟩ peer).map Message.encode).toList := by
  rcases stands : r.standing? peer with _ | _ | name
  · rw [RegistryMoment.addressed?_of_closed stands]
    exact h.linesTo_step_of_closed stands step
  · exact absurd stands decided
  · have registered := standing?_eq_registered_iff.1 stands
    exact h.linesTo_step_of_registered registered fun m addressed ↦
      small m (RegistryStep.message?_of_addressed? addressed)

/-- Once a handshake is over, a run writes to the peer what is addressed to it, in order. -/
theorem Coherent.linesTo_outputs (decided : r.standing? peer ≠ some .greeting)
    {steps : List RegistryStep} (once : ∀ moment ∈ r.moments steps, ¬moment.Connects peer)
    (small : ∀ step ∈ steps, ∀ m, step.message? = some m → m.Fits) :
    linesTo peer (r.outputs steps) = (r.addressed peer steps).map Message.encode := by
  induction steps generalizing r with
  | nil => rfl
  | cons step steps ih =>
    obtain ⟨first, others⟩ := List.forall_mem_cons.1 once
    obtain ⟨this, later⟩ := List.forall_mem_cons.1 small
    rw [outputs_cons, linesTo_append, h.linesTo_step_of_decided decided this,
      ih (h.step step) ((h.course_step first).decided decided) others later, addressed_cons,
      List.map_append]
    cases RegistryMoment.addressed? ⟨r, step⟩ peer <;> rfl

/-- Once a handshake is over, nothing is written to the peer unless messages are sent. -/
theorem Coherent.linesTo_outputs_of_unsent (decided : r.standing? peer ≠ some .greeting)
    {steps : List RegistryStep} (once : ∀ moment ∈ r.moments steps, ¬moment.Connects peer)
    (unsent : ∀ step ∈ steps, step.message? = none) : linesTo peer (r.outputs steps) = [] := by
  have none_addressed : r.addressed peer steps = [] := by
    refine List.filterMap_eq_nil_iff.2 fun moment mem ↦ Option.eq_none_iff_forall_ne_some.2 ?_
    intro m addressed
    have sent := RegistryMoment.message?_of_addressed? addressed
    rw [unsent _ (step_mem_of_mem_moments mem)] at sent
    cases sent
  rw [h.linesTo_outputs decided once, none_addressed, List.map_nil]
  intro step mem m sent
  rw [unsent step mem] at sent
  cases sent

/-- After a connection has ended nothing is written to its peer. -/
theorem Coherent.linesTo_outputs_of_closed (closed : r.standing? peer = none)
    {steps : List RegistryStep} (once : ∀ moment ∈ r.moments steps, ¬moment.Connects peer) :
    linesTo peer (r.outputs steps) = [] := by
  induction steps generalizing r with
  | nil => rfl
  | cons step steps ih =>
    obtain ⟨first, others⟩ := List.forall_mem_cons.1 once
    have course := h.course_step first
    have later := ih (h.step step) (course.closed closed).2 others
    rw [outputs_cons, linesTo_append, h.linesTo_step_of_closed closed, later, List.append_nil]

/-- After a connection has ended nothing is addressed to its peer. -/
theorem Coherent.addressed_of_closed (closed : r.standing? peer = none)
    {steps : List RegistryStep} (once : ∀ moment ∈ r.moments steps, ¬moment.Connects peer) :
    r.addressed peer steps = [] := by
  induction steps generalizing r with
  | nil => rfl
  | cons step steps ih =>
    obtain ⟨first, others⟩ := List.forall_mem_cons.1 once
    have ended := ((h.course_step first).closed closed).2
    rw [addressed_cons, RegistryMoment.addressed?_of_closed closed, ih (h.step step) ended others]
    rfl

end Decided

/-! ### Broadcasts -/

section Broadcasts

variable (h : r.Coherent) (m : Message)
include h

/-- The count that a broadcast tells is the number of peers to which it writes. -/
theorem Coherent.encard_recipients :
    {peer | linesTo peer (r.broadcast m).2.1 ≠ []}.encard = (r.broadcast m).2.2 := by
  have recipients : {peer | linesTo peer (r.broadcast m).2.1 ≠ []} =
      (((r.reached m r.table.sessions).map Session.id).toFinset : Set String) := by
    ext peer
    show linesTo peer (r.broadcast m).2.1 ≠ [] ↔ _
    rw [h.linesTo_broadcast m peer, Finset.mem_coe, List.mem_toFinset, mem_map_reached]
    split
    · next here => exact iff_of_true (List.cons_ne_nil _ _) here
    · next absent => exact iff_of_false (fun written ↦ written rfl) absent
  rw [recipients, Set.encard_coe_eq_coe_finsetCard, List.toFinset_card_of_nodup (h.nodup_reached m),
    List.length_map, broadcast_eq_broadcastIn, broadcastIn_eq]

/-- What is left when sessions have been dismissed does not depend on their order. -/
theorem Coherent.run_dismiss_perm {sessions sessions' : List (Session String)}
    (order : sessions.Perm sessions') :
    (Transducer.run Registry.dismiss r sessions).1 =
      (Transducer.run Registry.dismiss r sessions').1 := by
  refine (h.coherent_run_dismiss sessions').eq_of_connections_eq (h.coherent_run_dismiss sessions)
    (Catalog.ext_find? fun peer ↦ ?_) ?_
  · rw [find?_run_dismiss, find?_run_dismiss]
    simp only [(order.map Session.id).mem_iff]
  · rw [door_run_dismiss, door_run_dismiss]

/-- The order in which the sessions are gone through changes neither what the broadcast leaves and
tells nor what is written to each peer. -/
theorem Coherent.broadcastIn_perm {sessions : List (Session String)}
    (order : sessions.Perm r.table.sessions) :
    (r.broadcastIn m sessions).1 = (r.broadcast m).1 ∧
      (∀ peer, linesTo peer (r.broadcastIn m sessions).2.1 = linesTo peer (r.broadcast m).2.1) ∧
      (r.broadcastIn m sessions).2.2 = (r.broadcast m).2.2 := by
  have reached : (r.reached m sessions).Perm (r.reached m r.table.sessions) := order.filter _
  have unreached : (r.unreached m sessions).Perm (r.unreached m r.table.sessions) := order.filter _
  have silent (sessions : List (Session String)) (peer : String) :
      linesTo peer (Transducer.run Registry.dismiss r sessions).2 = [] :=
    linesTo_run (fun r s ↦ linesTo_dismiss r s peer) r sessions
  have same_peers := reached.map Session.id
  rw [broadcast_eq_broadcastIn, broadcastIn_eq, broadcastIn_eq]
  refine ⟨h.run_dismiss_perm unreached, fun peer ↦ ?_, reached.length_eq⟩
  dsimp only
  rw [linesTo_append, linesTo_append, silent, silent, List.append_nil, List.append_nil]
  by_cases here : peer ∈ (r.reached m sessions).map Session.id
  · rw [linesTo_map_line_of_mem (same_peers.nodup_iff.2 (h.nodup_reached m)) here,
      linesTo_map_line_of_mem (h.nodup_reached m) (same_peers.mem_iff.1 here)]
  · rw [linesTo_map_line here, linesTo_map_line fun there ↦ here (same_peers.mem_iff.2 there)]

end Broadcasts

end Registry

end ShowControl
