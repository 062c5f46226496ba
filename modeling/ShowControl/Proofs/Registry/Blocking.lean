import Mathlib.Data.List.Induction
import ShowControl.Proofs.Registry.Ownership

/-!
# What a block does

Lines can be written to a peer until it is blocked (`fault?_run_of_unblocked`), and from then on
none is, as long as it does not connect again (`Coherent.muted_run`). The first is read off the
conversation with the peer, in which nothing but a block leaves a fault. The second is an invariant
of the connection: if it is open it has a fault, and no operation writes to it or takes the fault
away.
-/

namespace ShowControl

open RegistryOutput

/-- The step keeps lines from being written to a peer. -/
def RegistryStep.Blocks (peer : String) : RegistryStep → Prop
  | .block other _ => other = peer
  | _ => False

/-- No step keeps lines from being written to a peer. -/
def Unblocked (peer : String) (steps : List RegistryStep) : Prop :=
  ∀ step ∈ steps, ¬step.Blocks peer

section Unblocked

variable {peer : String} {first second : List RegistryStep}

theorem Unblocked.nil (peer : String) : Unblocked peer [] := fun _ mem ↦
  absurd mem List.not_mem_nil

theorem unblocked_append :
    Unblocked peer (first ++ second) ↔ Unblocked peer first ∧ Unblocked peer second :=
  List.forall_mem_append

/-- Who is not unblocked has been blocked at some step. -/
theorem exists_block_of_not_unblocked (h : ¬Unblocked peer first) :
    ∃ before fault after, first = before ++ .block peer fault :: after := by
  simp only [Unblocked, not_forall, not_not, exists_prop] at h
  obtain ⟨step, mem, blocks⟩ := h
  obtain ⟨before, after, split⟩ := List.append_of_mem mem
  cases step with
  | block other fault =>
    obtain rfl : other = peer := blocks
    exact ⟨before, fault, after, split⟩
  | start bound => exact blocks.elim
  | stop => exact blocks.elim
  | accept other => exact blocks.elim
  | receive other bytes => exact blocks.elim
  | hangUp other => exact blocks.elim
  | timeOut other => exact blocks.elim
  | send name m => exact blocks.elim
  | broadcast m => exact blocks.elim

end Unblocked

/-! ### Conversations -/

/-- Only a block leaves a fault. -/
theorem Conversation.fault_after {talk : Conversation} {peer : String} {step : RegistryStep}
    (clean : talk.fault = none) (unblocked : ¬step.Blocks peer) (outcome : RegistryOutcome) :
    (talk.after peer step outcome).fault = none := by
  cases step with
  | block other fault =>
    have ne : ¬other = peer := unblocked
    rw [after, if_neg ne]
    exact clean
  | accept other =>
    unfold after
    split
    · dsimp only
      split
      · rfl
      · exact clean
    · next never => cases never
    · next never => cases never
    · next never => cases never
    · exact clean
  | receive other bytes =>
    rw [after]
    split <;> exact clean
  | hangUp other =>
    rw [after]
    split <;> exact clean
  | start bound => exact clean
  | stop => exact clean
  | timeOut other => exact clean
  | send name m => exact clean
  | broadcast m => exact clean

namespace Registry

variable {r r' : Registry} {peer : String} {before after steps : List RegistryStep}

theorem fault_conversation (clean : (conversation before peer).fault = none)
    (unblocked : Unblocked peer steps) : (conversation (before ++ steps) peer).fault = none := by
  induction steps using List.reverseRecOn with
  | nil => rwa [List.append_nil]
  | append_singleton steps step ih =>
    obtain ⟨sofar, last⟩ := unblocked_append.1 unblocked
    rw [← List.append_assoc, conversation_append_singleton]
    exact Conversation.fault_after (ih sofar) (last step List.mem_cons_self) _

theorem fault?_of_conversation (clean : (conversation steps peer).fault = none) :
    (run {} steps).1.fault? peer = none := by
  cases found : (run {} steps).1.connections.find? peer with
  | none => exact fault?_of_closed found
  | some c => rw [fault?_of_find? found, ((sound_run steps).reflects peer c found).fault, clean]

/-- Lines can be written to a peer that has not been blocked. -/
theorem fault?_run_of_unblocked (unblocked : Unblocked peer steps) :
    (run {} steps).1.fault? peer = none :=
  have clean : (conversation [] peer).fault = none := rfl
  fault?_of_conversation (fault_conversation clean unblocked)

/-- Whatever came before, a peer that connects is not blocked. -/
theorem Visit.fault?_eq_none (visit : Visit peer before after) (unblocked : Unblocked peer after) :
    ((entered before peer).run after).1.fault? peer = none := by
  have anew : (conversation (before ++ [.accept peer]) peer).fault = none := by
    rw [conversation_append_singleton]
    show (Conversation.after peer _ (.accept peer)
      { answer := .accepted ((run {} before).1.accept peer).2 }).fault = none
    rw [visit.connected, Conversation.after_accept, if_pos ⟨rfl, rfl⟩]
  rw [← run_visit]
  have later := fault_conversation anew unblocked
  rw [List.append_assoc, List.singleton_append] at later
  exact fault?_of_conversation later

/-! ### Muted peers -/

/-- If a peer is connected, no line can be written to it. -/
def Muted (r : Registry) (peer : String) : Prop :=
  ∀ c, r.connections.find? peer = some c → c.fault ≠ none

theorem Muted.not_canWrite (h : r.Muted peer) {c : RegistryConnection}
    (found : r.connections.find? peer = some c) (m : Message) : ¬r.CanWrite peer m := by
  rintro ⟨-, clean⟩
  rw [fault?_of_find? found] at clean
  exact h c found clean

theorem Muted.of_kept (h : r.Muted peer)
    (kept : ∀ c, r'.connections.find? peer = some c → r.connections.find? peer = some c) :
    r'.Muted peer :=
  fun c found ↦ h c (kept c found)

theorem muted_of_closed (closed : r.connections.find? peer = none) : r.Muted peer :=
  fun _ found ↦ by cases closed.symm.trans found

/-- Who is blocked is muted. -/
theorem muted_block (r : Registry) (peer : String) (fault : WriteError) :
    (r.block peer fault).Muted peer := by
  intro c found
  rw [find?_block, if_pos rfl] at found
  obtain ⟨-, -, rfl⟩ := Option.map_eq_some_iff.1 found
  exact Option.some_ne_none fault

/-- Refusals are not told to who is muted. -/
theorem Muted.reject (h : r.Muted peer) {c : RegistryConnection}
    (found : r.connections.find? peer = some c) (rejection : Rejection) :
    (r.reject peer rejection).1.Muted peer ∧ linesTo peer (r.reject peer rejection).2 = [] := by
  rw [reject_eq, if_neg (h.not_canWrite found _)]
  exact ⟨muted_of_closed (Catalog.find?_erase_self ..), rfl⟩

theorem Muted.takeLine (h : r.Muted peer) (line : ByteArray) :
    (takeLine peer r line).1.Muted peer ∧ linesTo peer (takeLine peer r line).2 = [] := by
  rw [Registry.takeLine]
  split
  · exact ⟨h, rfl⟩
  · next c found =>
    split
    · next name _ =>
      refine ⟨h, ?_⟩
      cases RegistryEvent.ofLine? name line <;> rfl
    · split
      · next wish _ =>
        cases inserted : r.table.insert ⟨peer, wish.name⟩ with
        | error reason =>
          rw [register_of_refused inserted]
          exact h.reject found _
        | ok table =>
          rw [register_of_unwritten inserted (h.not_canWrite found _)]
          exact ⟨muted_of_closed (Catalog.find?_erase_self ..), rfl⟩
      · exact h.reject found _

theorem Muted.run_takeLine (h : r.Muted peer) (lines : List ByteArray) :
    (Transducer.run (Registry.takeLine peer) r lines).1.Muted peer ∧
      linesTo peer (Transducer.run (Registry.takeLine peer) r lines).2 = [] := by
  induction lines generalizing r with
  | nil => exact ⟨h, rfl⟩
  | cons line lines ih =>
    obtain ⟨muted, silent⟩ := h.takeLine line
    obtain ⟨muted', silent'⟩ := ih muted
    rw [Transducer.run_cons]
    refine ⟨muted', ?_⟩
    rw [linesTo_append, silent, silent', List.append_nil]

theorem Muted.receive (h : r.Muted peer) (bytes : ByteArray) :
    (r.receive peer bytes).1.Muted peer ∧ linesTo peer (r.receive peer bytes).2 = [] := by
  rw [Registry.receive]
  split
  · exact ⟨h, rfl⟩
  · next c found =>
    obtain ⟨i, lines, oversized⟩ := (c.inbox.append bytes).drain
    have stored : Muted { r with connections := r.connections.insert peer { c with inbox := i } }
        peer := by
      intro c' found'
      obtain rfl := Option.some_inj.1 ((Catalog.find?_insert_self ..).symm.trans found')
      exact h c found
    obtain ⟨muted, silent⟩ := stored.run_takeLine lines
    cases oversized with
    | none => exact ⟨muted, silent⟩
    | some _ =>
      dsimp only
      rw [linesTo_append, silent, linesTo_drop]
      exact ⟨muted_of_closed (drop_closes _ peer), rfl⟩

/-- Whatever a muted peer does, it is not written to, unless it connects again. -/
theorem Muted.step_of_peer (h : r.Muted peer) {step : RegistryStep}
    (about : step.peer? = some peer) (once : ¬RegistryMoment.Connects ⟨r, step⟩ peer) :
    (r.step step).1.Muted peer ∧ linesTo peer (r.step step).2.outputs = [] := by
  cases RegistryStep.isAbout about with
  | accept =>
    have refused : (r.accept peer).1 = r := accept_of_refused fun accepted ↦ once ⟨rfl, accepted⟩
    refine ⟨?_, rfl⟩
    show (r.accept peer).1.Muted peer
    rwa [refused]
  | receive bytes => exact h.receive bytes
  | hangUp => exact ⟨muted_of_closed (forget_closes r peer), linesTo_forget r peer peer⟩
  | block fault => exact ⟨muted_block r peer fault, rfl⟩
  | timeOut =>
    show (r.timeOut peer).1.Muted peer ∧ linesTo peer (r.timeOut peer).2 = []
    rw [timeOut]
    split
    · next waiting =>
      obtain ⟨c, found, -⟩ := Option.map_eq_some_iff.1 waiting
      exact h.reject found _
    · exact ⟨h, rfl⟩

/-- The owner does not write to who is muted. -/
theorem Coherent.muted_step_of_owner (coherent : r.Coherent) (h : r.Muted peer)
    {step : RegistryStep} (owner : step.peer? = none) :
    (r.step step).1.Muted peer ∧ linesTo peer (r.step step).2.outputs = [] := by
  have spared {outputs : List RegistryOutput} {r' : Registry}
      (spares : Spares (fun _ ↦ True) r outputs r') : r'.Muted peer :=
    h.of_kept fun c found ↦ (spares.kept peer trivial c found).1
  -- who is addressed is connected
  have unwritten (m : Message) {name : String} (registered : r.IsRegistered peer name) :
      ¬r.CanWrite peer m := by
    obtain ⟨c, found, -⟩ := registered
    exact h.not_canWrite found m
  cases RegistryStep.isOwners owner with
  | start bound => exact ⟨spared (spares_start coherent bound), rfl⟩
  | stop => exact ⟨spared (spares_stop coherent), linesTo_stop r peer⟩
  | send name m =>
    refine ⟨spared (spares_send coherent name m), (linesTo_send r name m peer).trans (if_neg ?_)⟩
    rintro ⟨session, written⟩
    exact unwritten m ((coherent.owned name peer).1 session) written
  | broadcast m =>
    refine ⟨spared (spares_broadcast coherent m),
      (coherent.linesTo_broadcast m peer).trans (if_neg ?_)⟩
    rintro ⟨listed, written⟩
    obtain ⟨name, registered⟩ := coherent.mem_peers_iff.1 listed
    exact unwritten m registered written

/-- No step writes to who is muted, and who does not connect again stays so. -/
theorem Coherent.muted_step (coherent : r.Coherent) (h : r.Muted peer) {step : RegistryStep}
    (once : ¬RegistryMoment.Connects ⟨r, step⟩ peer) :
    (r.step step).1.Muted peer ∧ linesTo peer (r.step step).2.outputs = [] := by
  cases about : step.peer? with
  | none => exact coherent.muted_step_of_owner h about
  | some other =>
    by_cases same : other = peer
    · exact h.step_of_peer (same ▸ about) once
    · refine ⟨h.of_kept fun c found ↦ ?_, linesTo_step_of_ne about same⟩
      rwa [find?_step_of_ne about same] at found

/-- As long as it does not connect again, nothing is written to who is muted. -/
theorem Coherent.muted_run (coherent : r.Coherent) (h : r.Muted peer) {steps : List RegistryStep}
    (once : ∀ moment ∈ r.moments steps, ¬moment.Connects peer) :
    (r.run steps).1.Muted peer ∧ linesTo peer (r.outputs steps) = [] := by
  induction steps generalizing r with
  | nil => exact ⟨h, rfl⟩
  | cons step steps ih =>
    obtain ⟨first, others⟩ := List.forall_mem_cons.1 once
    obtain ⟨muted, silent⟩ := coherent.muted_step h first
    obtain ⟨muted', silent'⟩ := ih (coherent.step step) muted others
    rw [run_cons, outputs_cons, linesTo_append, silent, silent', List.append_nil]
    exact ⟨muted', rfl⟩

section Visits

variable {first second : List RegistryStep} {fault : WriteError}

/-- Behind a block nothing is written in a visit. -/
theorem Visit.block (visit : Visit peer before (first ++ .block peer fault :: second)) :
    ((entered before peer).run (first ++ .block peer fault :: second)).1.Muted peer ∧
      linesTo peer ((entered before peer).outputs (first ++ .block peer fault :: second)) =
        linesTo peer ((entered before peer).outputs first) := by
  have coherent := ((coherent_entered before peer).run first).step (.block peer fault)
  have muted : (((entered before peer).run first).1.step (.block peer fault)).1.Muted peer :=
    muted_block ((entered before peer).run first).1 peer fault
  have silent : linesTo peer (((entered before peer).run first).1.step
      (.block peer fault)).2.outputs = [] := rfl
  obtain ⟨muted', silent'⟩ := coherent.muted_run muted (List.forall_mem_cons.1 visit.once_right).2
  rw [run_append, run_cons, outputs_append, linesTo_append, outputs_cons, linesTo_append, silent,
    silent', List.append_nil, List.append_nil]
  exact ⟨muted', rfl⟩

/-- Who has been blocked in a visit is muted. -/
theorem Visit.muted (visit : Visit peer before after) (blocked : ¬Unblocked peer after) :
    ((entered before peer).run after).1.Muted peer := by
  obtain ⟨first, fault, second, rfl⟩ := exists_block_of_not_unblocked blocked
  exact visit.block.1

end Visits

end Registry

end ShowControl
