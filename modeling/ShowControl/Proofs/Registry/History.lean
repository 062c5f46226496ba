import ShowControl.Proofs.Registry.Severing

/-!
# The history of a registry

The events of a run can be read by names, as in the row of registrations of each, and by
connections. A connection goes from the greeting to being registered, at most once, and ends; a
`Course` is what may be reported on the way. The steps that are about a peer are pieces of the
course of its connection. A step of the owner can end several registrations at once (`Ends`): its
events are sorted to the connections by the names that these are registered under
(`RegistryMoment.contributed`), and each is at most the last event of a course.

So all events of a run are those of connections (`exists_contributed`), and those of one connection
from when it is accepted are a course that begins in the greeting. `History` puts both readings
together. That every registration ends in one disconnection is in the last case of `IsCourse`; that
each of the steps that sever it is its end, and no others are, follows from the courses too
(`Sound.told_severed`, `Sound.told_unsevered`).
-/

open scoped Computability

namespace ShowControl

open RegistryOutput RegistryEvent

/-! ### The course of a connection -/

/-- How events lead from one standing of a connection to another. -/
inductive Course : Option Standing → List RegistryEvent → Option Standing → Prop where
  | stays (standing : Option Standing) : Course standing [] standing
  | lost : Course (some .greeting) [] none
  | rejected (reason : String) : Course (some .greeting) [.rejected reason] none
  | registered {name : String} {events : List RegistryEvent} {standing : Option Standing}
      (more : Course (some (.registered name)) events standing) :
      Course (some .greeting) (.registered name :: events) standing
  | report {name : String} {e : RegistryEvent} {events : List RegistryEvent}
      {standing : Option Standing} (is_report : e.IsReport name)
      (more : Course (some (.registered name)) events standing) :
      Course (some (.registered name)) (e :: events) standing
  | disconnected (name : String) : Course (some (.registered name)) [.disconnected name] none

namespace Course

variable {standing standing' standing'' : Option Standing} {told told' : List RegistryEvent}
variable {name : String}

theorem trans (first : Course standing told standing')
    (second : Course standing' told' standing'') :
    Course standing (told ++ told') standing'' := by
  induction first with
  | stays => exact second
  | lost =>
    cases second
    exact .lost
  | rejected reason =>
    cases second
    exact .rejected reason
  | registered _ ih => exact .registered (ih second)
  | report is_report _ ih => exact .report is_report (ih second)
  | disconnected name =>
    cases second
    exact .disconnected name

theorem run {α : Type} {step : Transducer Registry α RegistryOutput} {peer : String}
    (course : ∀ r input, Course (r.standing? peer) (events (step r input).2)
      ((step r input).1.standing? peer)) (r : Registry) (inputs : List α) :
    Course (r.standing? peer) (events (Transducer.run step r inputs).2)
      ((Transducer.run step r inputs).1.standing? peer) := by
  refine Transducer.run_induction step
    (R := fun r outputs r' ↦ Course (r.standing? peer) (events outputs) (r'.standing? peer))
    (fun _ ↦ .stays _) (fun first second ↦ ?_) course r inputs
  rw [events_append]
  exact first.trans second

/-- A connection that has ended stays so, and nothing is reported of it. -/
theorem closed (course : Course standing told standing') (h : standing = none) :
    told = [] ∧ standing' = none := by
  subst h
  cases course
  exact ⟨rfl, rfl⟩

/-- No connection comes back to the greeting. -/
theorem decided (course : Course standing told standing') (h : standing ≠ some .greeting) :
    standing' ≠ some .greeting := by
  induction course with
  | stays => exact h
  | lost => simp
  | rejected reason => simp
  | registered _ ih => exact ih (by simp)
  | report _ _ ih => exact ih h
  | disconnected name => simp

end Course

/-- The events of a connection that stands so, or has ended. -/
def IsCourse : Option Standing → List RegistryEvent → Prop
  | some .greeting, told => told = []
  | some (.registered name), told =>
    ∃ reports, (∀ e ∈ reports, e.IsReport name) ∧ told = .registered name :: reports
  | none, told =>
    told = [] ∨ (∃ reason, told = [.rejected reason]) ∨
      ∃ name reports, (∀ e ∈ reports, e.IsReport name) ∧
        told = .registered name :: reports ++ [.disconnected name]

namespace Course

variable {standing : Option Standing} {told : List RegistryEvent} {name : String}

theorem exists_reports (h : Course (some (.registered name)) told standing) :
    ∃ reports, (∀ e ∈ reports, e.IsReport name) ∧
      (standing = some (.registered name) ∧ told = reports ∨
        standing = none ∧ told = reports ++ [.disconnected name]) := by
  generalize begun : some (Standing.registered name) = first at h
  induction h with
  | stays =>
    subst begun
    exact ⟨[], by simp, .inl ⟨rfl, rfl⟩⟩
  | lost => cases begun
  | rejected => cases begun
  | registered => cases begun
  | report is_report _ ih =>
    cases begun
    obtain ⟨reports, all, rest⟩ := ih rfl
    refine ⟨_ :: reports, List.forall_mem_cons.2 ⟨is_report, all⟩, ?_⟩
    rcases rest with ⟨stands, rfl⟩ | ⟨ended, rfl⟩
    · exact .inl ⟨stands, rfl⟩
    · exact .inr ⟨ended, rfl⟩
  | disconnected =>
    cases begun
    exact ⟨[], by simp, .inr ⟨rfl, rfl⟩⟩

/-- A registered connection is reported as disconnected once, when it ends. -/
theorem count_disconnected (h : Course (some (.registered name)) told standing) :
    told.count (.disconnected name) = if standing = none then 1 else 0 := by
  obtain ⟨reports, all, rest⟩ := h.exists_reports
  have unreported : reports.count (.disconnected name) = 0 :=
    List.count_eq_zero_of_not_mem fun mem ↦ all _ mem
  rcases rest with ⟨rfl, rfl⟩ | ⟨rfl, rfl⟩
  · exact unreported
  · rw [List.count_append, unreported]
    simp

/-- No connection is registered twice. -/
theorem count_registered (h : Course (some (.registered name)) told standing) :
    told.count (.registered name) = 0 := by
  obtain ⟨reports, all, rest⟩ := h.exists_reports
  have unreported : .registered name ∉ reports := fun mem ↦ all _ mem
  refine List.count_eq_zero_of_not_mem fun mem ↦ ?_
  rcases rest with ⟨-, rfl⟩ | ⟨-, rfl⟩
  · exact unreported mem
  · simp [unreported] at mem

/-- Only the name of a connection is disconnected with it. -/
theorem name_eq_of_disconnected {name' : String}
    (h : Course (some (.registered name')) told standing) (gone : .disconnected name ∈ told) :
    name' = name := by
  obtain ⟨reports, all, rest⟩ := h.exists_reports
  have unreported : .disconnected name ∉ reports := fun mem ↦ all _ mem
  rcases rest with ⟨-, rfl⟩ | ⟨-, rfl⟩
  · exact absurd gone unreported
  · simp [unreported] at gone
    exact gone.symm

/-- A name that is disconnected is that of the connection, or the connection gets it before. -/
theorem registered_of_disconnected {standing' : Option Standing}
    (h : Course standing told standing') (gone : .disconnected name ∈ told) :
    standing = some (.registered name) ∨ ∃ more, told = .registered name :: more := by
  cases h with
  | stays => cases gone
  | lost => cases gone
  | rejected reason => simp at gone
  | @registered name' events _ more =>
    have later : .disconnected name ∈ events := by simpa using gone
    obtain rfl := more.name_eq_of_disconnected later
    exact .inr ⟨events, rfl⟩
  | report is_report more =>
    obtain rfl := (Course.report is_report more).name_eq_of_disconnected gone
    exact .inl rfl
  | disconnected name' =>
    obtain rfl := (Course.disconnected name').name_eq_of_disconnected gone
    exact .inl rfl

theorem isCourse (h : Course (some .greeting) told standing) : IsCourse standing told := by
  cases h with
  | stays => exact rfl
  | lost => exact .inl rfl
  | rejected reason => exact .inr (.inl ⟨reason, rfl⟩)
  | @registered name told _ more =>
    obtain ⟨reports, all, ⟨rfl, rfl⟩ | ⟨rfl, rfl⟩⟩ := more.exists_reports
    · exact ⟨told, all, rfl⟩
    · exact .inr (.inr ⟨name, reports, all, rfl⟩)

end Course

namespace Registry

variable {r r' : Registry} {peer name : String} {c : RegistryConnection}

/-! ### Steps of a peer -/

theorem course_reject (found : r.connections.find? peer = some c) (waiting : c.standing = .greeting)
    (rejection : Rejection) :
    Course (r.standing? peer) (events (r.reject peer rejection).2)
      ((r.reject peer rejection).1.standing? peer) := by
  have ended : (r.reject peer rejection).1.standing? peer = none := by
    rw [reject_eq]
    exact standing?_eq_none_iff.2 (Catalog.find?_erase_self ..)
  rw [events_reject, ended, standing?_of_find? found, waiting]
  exact .rejected _

theorem course_register (found : r.connections.find? peer = some c)
    (waiting : c.standing = .greeting) (wish : Introduction) :
    Course (r.standing? peer) (events (r.register peer c wish).2)
      ((r.register peer c wish).1.standing? peer) := by
  have stands : r.standing? peer = some .greeting := standing?_eq_some_iff.2 ⟨c, found, waiting⟩
  cases inserted : r.table.insert ⟨peer, wish.name⟩ with
  | error reason =>
    rw [register_of_refused inserted]
    exact course_reject found waiting _
  | ok table =>
    by_cases written : r.CanWrite peer (.ack wish.commandId)
    · rw [register_of_written inserted written, stands]
      show Course _ [.registered wish.name]
        (Option.map _ ((r.connections.insert peer _).find? peer))
      rw [Catalog.find?_insert_self]
      exact .registered (.stays _)
    · rw [register_of_unwritten inserted written, stands]
      show Course _ [] (Option.map _ ((r.connections.erase peer).find? peer))
      rw [Catalog.find?_erase_self]
      exact .lost

theorem course_takeLine (peer : String) (r : Registry) (line : ByteArray) :
    Course (r.standing? peer) (events (takeLine peer r line).2)
      ((takeLine peer r line).1.standing? peer) := by
  rw [takeLine]
  split
  · exact .stays _
  · next c found =>
    split
    · next name standing =>
      cases reported : RegistryEvent.ofLine? name line with
      | none => exact .stays _
      | some e =>
        show Course (r.standing? peer) [e] (r.standing? peer)
        rw [standing?_of_find? found, standing]
        exact .report (isReport_of_ofLine? reported) (.stays _)
    · next waiting =>
      split
      · exact course_register found waiting _
      · exact course_reject found waiting _

theorem course_timeOut (r : Registry) (peer : String) :
    Course (r.standing? peer) (events (r.timeOut peer).2) ((r.timeOut peer).1.standing? peer) := by
  rw [timeOut]
  split
  · next waiting =>
    obtain ⟨c, found, standing⟩ := Option.map_eq_some_iff.1 waiting
    exact course_reject found standing _
  · exact .stays _

namespace Coherent

variable (h : r.Coherent)
include h

theorem course_forget (peer : String) :
    Course (r.standing? peer) (events (r.forget peer).2) ((r.forget peer).1.standing? peer) := by
  have ended : (r.forget peer).1.standing? peer = none :=
    standing?_eq_none_iff.2 (forget_closes r peer)
  rw [ended]
  cases stands : r.standing? peer with
  | none =>
    rw [forget_closed (standing?_eq_none_iff.1 stands)]
    exact .stays none
  | some standing =>
    cases standing with
    | greeting =>
      obtain ⟨c, found, waiting⟩ := standing?_eq_some_iff.1 stands
      rw [forget_greeting found waiting]
      exact .lost
    | registered name =>
      rw [h.forget_registered (standing?_eq_registered_iff.1 stands)]
      exact .disconnected name

theorem course_drop (peer : String) :
    Course (r.standing? peer) (events (r.drop peer).2) ((r.drop peer).1.standing? peer) := by
  rw [drop]
  split
  · exact h.course_forget peer
  · exact .stays _

theorem course_receive (peer : String) (bytes : ByteArray) :
    Course (r.standing? peer) (events (r.receive peer bytes).2)
      ((r.receive peer bytes).1.standing? peer) := by
  rw [receive]
  split
  · exact .stays _
  · next c found =>
    obtain ⟨i, lines, oversized⟩ := (c.inbox.append bytes).drain
    have stored := spares_insert (c := { c with inbox := i }) h (h.port_ne_none found) fun name ↦
      (isRegistered_iff found).symm
    have taken := Course.run (course_takeLine peer)
      { r with connections := r.connections.insert peer { c with inbox := i } } lines
    rw [standing?_of_find? (Catalog.find?_insert_self ..), ← standing?_of_find? found] at taken
    cases oversized with
    | none => exact taken
    | some _ =>
      dsimp only
      have coherent := (Spares.run (fun h ↦ spares_takeLine h peer) stored.coherent lines).coherent
      rw [events_append]
      exact taken.trans (coherent.course_drop peer)

end Coherent

/-! ### Steps of the owner -/

/-- If names are disconnected, each once, then each of them is disconnected, and that is all. -/
theorem about_map_disconnected {ended : List String} (nodup : ended.Nodup) (name : String) :
    about name (ended.map .disconnected) = if name ∈ ended then [.disconnected name] else [] := by
  induction ended with
  | nil => rfl
  | cons first ended ih =>
    obtain ⟨fresh, nodup⟩ := List.nodup_cons.1 nodup
    have rest := ih nodup
    rw [about] at rest ⊢
    rw [List.map_cons, List.filter_cons, rest]
    by_cases same : first = name
    · subst same
      simp [name?, fresh]
    · simp [name?, same, Ne.symm same]

/-- For a connection, a step of the owner is its end, if it concerns it at all. -/
theorem Ends.course {ended : List String} {told : List RegistryEvent} (h : Ends r ended told r')
    (peer : String) :
    Course (r.standing? peer)
      (match r.standing? peer with
        | some (.registered name) => about name told
        | _ => []) (r'.standing? peer) := by
  cases stands : r.standing? peer with
  | none =>
    rw [h.closed peer stands]
    exact .stays none
  | some standing =>
    cases standing with
    | greeting =>
      rcases h.greeting peer stands with waiting | ended
      · rw [waiting]
        exact .stays _
      · rw [ended]
        exact .lost
    | registered name =>
      show Course _ (about name told) _
      rw [h.registered peer name (standing?_eq_registered_iff.1 stands), h.told,
        about_map_disconnected h.nodup]
      split
      · exact .disconnected name
      · exact .stays _

end Registry

/-! ### Whose events they are -/

namespace RegistryMoment

open Registry

/-- The events of a step that come from the connection of a peer: all, if the step is about it;
those about its name, if it is the owner who takes the step. -/
def contributed (moment : RegistryMoment) (peer : String) : List RegistryEvent :=
  match moment.step.peer? with
  | some other => if other = peer then moment.told else []
  | none =>
    match moment.before.standing? peer with
    | some (.registered name) => about name moment.told
    | _ => []

variable {moment : RegistryMoment} {peer other : String}

theorem contributed_of_peer (about : moment.step.peer? = some other) :
    moment.contributed peer = if other = peer then moment.told else [] := by
  rw [contributed, about]

theorem contributed_of_owner (owner : moment.step.peer? = none) :
    moment.contributed peer =
      match moment.before.standing? peer with
      | some (.registered name) => about name moment.told
      | _ => [] := by
  rw [contributed, owner]

/-- A step about a peer is a piece of the course of its connection. -/
theorem course_told (h : moment.before.Coherent) (about : moment.step.peer? = some peer)
    (once : ¬moment.Connects peer) :
    Course (moment.before.standing? peer) moment.told (moment.after.standing? peer) := by
  obtain ⟨r, step⟩ := moment
  cases RegistryStep.isAbout about with
  | accept =>
    have same : (r.accept peer).1 = r := accept_of_refused fun accepted ↦ once ⟨rfl, accepted⟩
    show Course (r.standing? peer) [] ((r.accept peer).1.standing? peer)
    rw [same]
    exact .stays _
  | receive bytes =>
    exact h.course_receive peer bytes
  | hangUp =>
    exact h.course_forget peer
  | block fault =>
    show Course (r.standing? peer) [] ((r.block peer fault).standing? peer)
    rw [standing?_block]
    exact .stays _
  | timeOut =>
    exact course_timeOut r peer

/-- Between two connects of a peer every step is a piece of the course of its connection. -/
theorem course (h : moment.before.Coherent) (once : ¬moment.Connects peer) :
    Course (moment.before.standing? peer) (moment.contributed peer)
      (moment.after.standing? peer) := by
  cases about : moment.step.peer? with
  | none =>
    rw [contributed_of_owner about]
    exact (h.ends_step about).course peer
  | some other =>
    rw [contributed_of_peer about]
    split
    · next same => exact course_told h (same ▸ about) once
    · next ne =>
      have same : moment.after.standing? peer = moment.before.standing? peer :=
        standing?_congr (find?_step_of_ne about ne)
      rw [same]
      exact .stays _

/-- The events of a step of the owner come from the connections that are registered under the names
that they are about. -/
theorem mem_contributed_of_owner (owner : moment.step.peer? = none) {name : String}
    (told : .disconnected name ∈ moment.told) :
    .disconnected name ∈ moment.contributed peer ↔ moment.before.IsRegistered peer name := by
  rw [contributed_of_owner owner, ← standing?_eq_registered_iff]
  split
  · next name' stands => simp [about, told, stands, name?, eq_comm]
  · next unregistered =>
    refine iff_of_false List.not_mem_nil fun stands ↦ unregistered name stands

/-- Every event comes from one connection. -/
theorem exists_contributed (h : moment.before.Coherent) {e : RegistryEvent}
    (told : e ∈ moment.told) : ∃! peer, e ∈ moment.contributed peer := by
  cases about : moment.step.peer? with
  | some other =>
    have whose (peer : String) : e ∈ moment.contributed peer ↔ peer = other := by
      rw [contributed_of_peer about]
      split
      · next same => exact iff_of_true told same.symm
      · next ne => exact iff_of_false List.not_mem_nil (Ne.symm ne)
    exact ⟨other, (whose other).2 rfl, fun peer ↦ (whose peer).1⟩
  | none =>
    have ends := h.ends_step about
    have all : moment.told = (moment.before.severed moment.step).map .disconnected := ends.told
    obtain ⟨name, gone, rfl⟩ := List.mem_map.1 (all ▸ told)
    obtain ⟨peer, registered⟩ := ends.owned name gone
    refine ⟨peer, (mem_contributed_of_owner about told).2 registered, fun other mine ↦ ?_⟩
    exact h.eq_of_isRegistered ((mem_contributed_of_owner about told).1 mine) registered

end RegistryMoment

/-! ### Runs -/

namespace Registry

variable {r : Registry} {peer : String}

theorem Coherent.tells_step (h : r.Coherent) (step : RegistryStep) :
    Tells r (r.step step).2.outputs (r.step step).1 := by
  cases step with
  | start bound => exact tells_start r bound
  | stop => exact tells_stop r
  | accept peer => exact tells_accept r peer
  | receive peer bytes => exact h.tells_receive peer bytes
  | hangUp peer => exact tells_forget r peer
  | block peer fault => exact tells_block r peer fault
  | timeOut peer => exact tells_timeOut r peer
  | send name m => exact tells_send r name m
  | broadcast m => exact tells_broadcast r m

theorem Coherent.tells_run (h : r.Coherent) (steps : List RegistryStep) :
    Tells r (r.outputs steps) (r.run steps).1 := by
  induction steps generalizing r with
  | nil => exact .of_silent rfl rfl
  | cons step steps ih =>
    rw [outputs_cons, run_cons]
    exact (h.tells_step step).trans (ih (h.step step))

/-- The events that a connection contributes to a run. -/
def contributions (r : Registry) (peer : String) (steps : List RegistryStep) :
    List RegistryEvent :=
  (r.moments steps).flatMap (·.contributed peer)

theorem contributions_append (r : Registry) (peer : String) (before after : List RegistryStep) :
    r.contributions peer (before ++ after) =
      r.contributions peer before ++ (r.run before).1.contributions peer after := by
  rw [contributions, moments_append, List.flatMap_append]
  rfl

theorem contributions_cons (r : Registry) (peer : String) (step : RegistryStep)
    (steps : List RegistryStep) :
    r.contributions peer (step :: steps) =
      RegistryMoment.contributed ⟨r, step⟩ peer ++ (r.step step).1.contributions peer steps := by
  rw [contributions, Registry.moments, List.flatMap_cons]
  rfl

theorem Coherent.course_step (h : r.Coherent) {step : RegistryStep}
    (once : ¬RegistryMoment.Connects ⟨r, step⟩ peer) :
    Course (r.standing? peer) (RegistryMoment.contributed ⟨r, step⟩ peer)
      ((r.step step).1.standing? peer) :=
  @RegistryMoment.course ⟨r, step⟩ peer h once

theorem Coherent.course_run (h : r.Coherent) (steps : List RegistryStep)
    (once : ∀ moment ∈ r.moments steps, ¬moment.Connects peer) :
    Course (r.standing? peer) (r.contributions peer steps) ((r.run steps).1.standing? peer) := by
  induction steps generalizing r with
  | nil => exact .stays _
  | cons step steps ih =>
    obtain ⟨first, others⟩ := List.forall_mem_cons.1 once
    rw [contributions_cons, run_cons]
    exact (h.course_step first).trans (ih (h.step step) others)

/-! ### What ends a registration -/

namespace Sound

variable {talks : String → Conversation} {name : String} {step : RegistryStep}
variable (h : r.Sound talks) (registered : r.IsRegistered peer name)
include h registered

/-- While a name belongs to one peer, no step of another disconnects it. -/
theorem disconnected_not_mem {other : String} (about : step.peer? = some other)
    (ne : other ≠ peer) : .disconnected name ∉ events (r.step step).2.outputs := by
  intro gone
  have once : ¬RegistryMoment.Connects ⟨r, step⟩ other := by
    rintro ⟨connects, -⟩
    obtain rfl : step = .accept other := connects
    cases gone
  have course : Course (r.standing? other) (RegistryMoment.told ⟨r, step⟩)
      ((r.step step).1.standing? other) :=
    RegistryMoment.course_told h.coherent about once
  rcases course.registered_of_disconnected gone with mine | ⟨more, told⟩
  · exact ne (h.coherent.eq_of_isRegistered (standing?_eq_registered_iff.1 mine) registered)
  · -- the name is listed, so nobody is registered under it
    have leads := h.coherent.tells_step step name
    have session := (h.coherent.owned name peer).2 registered
    have told : events (r.step step).2.outputs = .registered name :: more := told
    rw [session, told] at leads
    cases leads with
    | other unrelated _ => exact unrelated rfl
    | report is_report _ => exact is_report

omit h in
/-- What a step tells about the name of a peer comes from its connection. -/
theorem count_told {e : RegistryEvent} (about : e.name? = some name)
    (mine : step.peer? = none ∨ step.peer? = some peer) :
    (events (r.step step).2.outputs).count e =
      (RegistryMoment.contributed ⟨r, step⟩ peer).count e := by
  rcases mine with owner | mine
  · rw [RegistryMoment.contributed_of_owner owner]
    dsimp only
    rw [standing?_eq_registered_iff.2 registered]
    exact (List.count_filter (by simpa using about)).symm
  · rw [RegistryMoment.contributed_of_peer mine, if_pos rfl]
    rfl

theorem course : Course (some (.registered name)) (RegistryMoment.contributed ⟨r, step⟩ peer)
    ((r.step step).1.standing? peer) := by
  rw [← standing?_eq_registered_iff.2 registered]
  refine h.coherent.course_step ?_
  rintro ⟨connects, accepted⟩
  -- who is registered is connected already
  obtain rfl : step = .accept peer := connects
  obtain ⟨c, found, -⟩ := registered
  have accepted : (r.accept peer).2 = true := accepted
  rw [Registry.accept, Catalog.contains, found] at accepted
  simp at accepted

/-- The end of a registration is reported once, and its name is free. -/
theorem told_severed (severs : step.Severs (talks peer) peer name) :
    (events (r.step step).2.outputs).count (.disconnected name) = 1 ∧
      name ∉ (r.step step).1.names := by
  have mine : step.peer? = none ∨ step.peer? = some peer := by
    cases severs with
    | hangUp => exact .inr rfl
    | oversized => exact .inr rfl
    | stop => exact .inl rfl
    | send => exact .inl rfl
    | broadcast => exact .inl rfl
  have course : Course (some (.registered name)) (RegistryMoment.contributed ⟨r, step⟩ peer) _ :=
    h.course registered
  have ended : (events (r.step step).2.outputs).count (.disconnected name) = 1 := by
    rw [count_told registered rfl mine, course.count_disconnected,
      if_pos (h.severed registered severs)]
  refine ⟨ended, fun listed ↦ ?_⟩
  have counts := (h.coherent.tells_step step name).count_eq
  have session := (h.coherent.owned name peer).2 registered
  rw [count_told registered rfl mine, course.count_registered, ended, session,
    (SessionTable.mem_names_iff _).1 listed] at counts
  simp at counts

theorem told_unsevered (goes_on : ¬step.Severs (talks peer) peer name) :
    .disconnected name ∉ events (r.step step).2.outputs := by
  have stays := h.unsevered registered goes_on
  have untold (mine : step.peer? = none ∨ step.peer? = some peer) :
      .disconnected name ∉ events (r.step step).2.outputs := by
    have course : Course (some (.registered name)) (RegistryMoment.contributed ⟨r, step⟩ peer) _ :=
      h.course registered
    rw [← List.count_eq_zero, count_told registered rfl mine, course.count_disconnected, stays]
    rfl
  cases about : step.peer? with
  | none => exact untold (.inl about)
  | some other =>
    by_cases same : other = peer
    · exact untold (.inr (same ▸ about))
    · exact h.disconnected_not_mem registered about same

end Sound

/-- How the events of a run belong to the names and to the connections. -/
structure History (steps : List RegistryStep) : Prop where
  /-- The events about a name begin a row of registrations. -/
  registrations : ∀ name, ∃ word ∈ (registration name)∗, about name (told {} steps) <+: word
  listed : ∀ name, name ∈ (run {} steps).1.names ↔
    (told {} steps).count (.registered name) = (told {} steps).count (.disconnected name) + 1
  /-- From when a peer connects until it connects again, what its connection contributes is settled
  by how it stands: nothing before it is registered, and one disconnection at the end if it was. -/
  course : ∀ before after peer, steps = before ++ .accept peer :: after →
    Visit peer before after →
      IsCourse ((run {} steps).1.standing? peer) ((entered before peer).contributions peer after)
  /-- Every event comes from one connection. -/
  contributed : ∀ moment ∈ moments {} steps, ∀ e ∈ moment.told, ∃! peer, e ∈ moment.contributed peer
  /-- A registration is over with the step that ends it, whether this is a stop, the peer, or a
  message that cannot be written to it, and in this step its end is reported once. -/
  ended : ∀ before step peer name, before ++ [step] <+: steps →
    (run {} before).1.IsRegistered peer name → step.Severs (conversation before peer) peer name →
      let moment : RegistryMoment := ⟨(run {} before).1, step⟩
      moment.after.standing? peer = none ∧ name ∉ moment.after.names ∧
        moment.told.count (.disconnected name) = 1
  /-- With every other step it goes on. -/
  goes_on : ∀ before step peer name, before ++ [step] <+: steps →
    (run {} before).1.IsRegistered peer name → ¬step.Severs (conversation before peer) peer name →
      let moment : RegistryMoment := ⟨(run {} before).1, step⟩
      moment.after.IsRegistered peer name ∧ .disconnected name ∉ moment.told

/-- The events of every run are the history of its registrations. -/
theorem run_history (steps : List RegistryStep) : History steps where
  registrations name := by
    obtain ⟨more, complete⟩ := (coherent_empty.tells_run steps name).exists_append_mem_rest
    exact ⟨_, complete, more, rfl⟩
  listed name := by
    have counts := (coherent_empty.tells_run steps name).count_eq
    have unlisted : ((({} : Registry).table.find? name).isSome).toNat = 0 := rfl
    rw [unlisted, Nat.add_zero] at counts
    rw [names, SessionTable.mem_names_iff, told, counts]
    cases ((run {} steps).1.table.find? name).isSome <;> simp
  course before after peer all visit := by
    have course := (coherent_entered before peer).course_run after visit.once
    rw [standing?_of_find? visit.find?_entered] at course
    rw [all, run_visit]
    exact course.isCourse
  contributed moment mem e told := by
    exact RegistryMoment.exists_contributed (coherent_empty.moments steps moment mem) told
  ended before step peer name _ registered severs := by
    obtain ⟨once, unlisted⟩ := (sound_run before).told_severed registered severs
    exact ⟨(sound_run before).severed registered severs, unlisted, once⟩
  goes_on before step peer name _ registered unsevered := by
    have stays := (sound_run before).unsevered registered unsevered
    exact ⟨standing?_eq_registered_iff.1 stays,
      (sound_run before).told_unsevered registered unsevered⟩

end Registry

end ShowControl
