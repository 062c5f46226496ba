import Mathlib.Computability.Language
import ShowControl.Proofs.Registry.Moments

/-!
# What the events tell

The events about a name should be those of registrations one after the other, where each is a word
of `registration`: its begin, reports about the renderer, its end. The last may still go on.

Whether a name is listed is a state with two values, and the events lead from one to another
(`Leads`). That is a relation between the ends of a row of events, so rows that meet can be put
together, and both things wanted of the events of a run are inductions on it: they can be completed
to a row of registrations (`Leads.exists_append_mem_rest`), and a name is listed if its begins are
one more than its ends (`Leads.count_eq`). What is left is that the events of each operation lead
from the names before it to those after it (`Tells`). Whatever reports the end of a registration
takes the name off the table at the same time (`tells_release`); of two that could report the same
end, the later does not find the session any more (`tells_dismiss`).
-/

open scoped Computability

namespace ShowControl

open RegistryOutput

namespace RegistryEvent

/-- What is reported about a renderer while it is registered. -/
def IsReport (name : String) : RegistryEvent → Prop
  | .acknowledged about _ => about = name
  | .commandFailed about _ _ => about = name
  | _ => False

/-- The events about a name, in order. -/
def about (name : String) (events : List RegistryEvent) : List RegistryEvent :=
  events.filter fun e ↦ e.name? = some name

/-- One report. -/
def report (name : String) : Language RegistryEvent := {word | ∃ e, e.IsReport name ∧ word = [e]}

/-- A whole registration: its begin, reports, and its end. -/
def registration (name : String) : Language RegistryEvent :=
  {[.registered name]} * ((report name)∗ * {[.disconnected name]})

/-- What can follow about a name: registrations, or the rest of one and then registrations. -/
def rest (name : String) : Bool → Language RegistryEvent
  | false => (registration name)∗
  | true => (report name)∗ * ({[.disconnected name]} * (registration name)∗)

variable {name : String} {e : RegistryEvent} {word : List RegistryEvent}

theorem IsReport.name?_eq (h : e.IsReport name) : e.name? = some name := by
  cases e <;> first | exact h.elim | exact congrArg some h

theorem registered_cons_mem_rest (h : word ∈ rest name true) :
    .registered name :: word ∈ rest name false := by
  obtain ⟨reports, reported, -, ⟨last, ended, more, registrations, rfl⟩, rfl⟩ :=
    Language.mem_mul.1 h
  have begun : [.registered name] ∈ ({[.registered name]} : Language RegistryEvent) := rfl
  have first : .registered name :: (reports ++ last) ∈ registration name :=
    Language.append_mem_mul begun (Language.append_mem_mul reported ended)
  have all : .registered name :: (reports ++ last) ++ more ∈ (registration name)∗ :=
    mul_kstar_le_kstar (a := registration name) (Language.append_mem_mul first registrations)
  rwa [List.cons_append, List.append_assoc] at all

theorem report_cons_mem_rest (is_report : e.IsReport name) (h : word ∈ rest name true) :
    e :: word ∈ rest name true := by
  obtain ⟨reports, reported, more, ended, rfl⟩ := Language.mem_mul.1 h
  have one : [e] ∈ report name := ⟨e, is_report, rfl⟩
  exact Language.append_mem_mul
    (mul_kstar_le_kstar (a := report name) (Language.append_mem_mul one reported)) ended

theorem disconnected_cons_mem_rest (h : word ∈ rest name false) :
    .disconnected name :: word ∈ rest name true := by
  have ended : [.disconnected name] ∈ ({[.disconnected name]} : Language RegistryEvent) := rfl
  exact Language.append_mem_mul (Language.nil_mem_kstar _) (Language.append_mem_mul ended h)

/-! ### The course of a name -/

/-- How events lead from whether a name is listed to whether it is listed. -/
inductive Leads (name : String) : Bool → List RegistryEvent → Bool → Prop where
  | nil (listed : Bool) : Leads name listed [] listed
  | other {e : RegistryEvent} {listed listed' : Bool} {events : List RegistryEvent}
      (unrelated : e.name? ≠ some name) (more : Leads name listed events listed') :
      Leads name listed (e :: events) listed'
  | registered {listed' : Bool} {events : List RegistryEvent}
      (more : Leads name true events listed') :
      Leads name false (.registered name :: events) listed'
  | report {e : RegistryEvent} {listed' : Bool} {events : List RegistryEvent}
      (is_report : e.IsReport name) (more : Leads name true events listed') :
      Leads name true (e :: events) listed'
  | disconnected {listed' : Bool} {events : List RegistryEvent}
      (more : Leads name false events listed') :
      Leads name true (.disconnected name :: events) listed'

namespace Leads

variable {listed listed' listed'' : Bool} {events events' : List RegistryEvent}

theorem trans (first : Leads name listed events listed')
    (second : Leads name listed' events' listed'') :
    Leads name listed (events ++ events') listed'' := by
  induction first with
  | nil => exact second
  | other unrelated _ ih => exact .other unrelated (ih second)
  | registered _ ih => exact .registered (ih second)
  | report is_report _ ih => exact .report is_report (ih second)
  | disconnected _ ih => exact .disconnected (ih second)

/-- The events about a name can be completed to registrations. -/
theorem exists_append_mem_rest (h : Leads name listed events listed') :
    ∃ more, about name events ++ more ∈ rest name listed := by
  induction h with
  | nil listed =>
    cases listed with
    | false => exact ⟨[], Language.nil_mem_kstar _⟩
    | true => exact ⟨[.disconnected name], disconnected_cons_mem_rest (Language.nil_mem_kstar _)⟩
  | other unrelated _ ih =>
    obtain ⟨more, complete⟩ := ih
    refine ⟨more, ?_⟩
    rwa [about, List.filter_cons_of_neg (by simpa using unrelated)]
  | registered _ ih =>
    obtain ⟨more, complete⟩ := ih
    refine ⟨more, ?_⟩
    rw [about, List.filter_cons_of_pos (by simp [name?])]
    exact registered_cons_mem_rest complete
  | report is_report _ ih =>
    obtain ⟨more, complete⟩ := ih
    refine ⟨more, ?_⟩
    rw [about, List.filter_cons_of_pos (by simp [is_report.name?_eq])]
    exact report_cons_mem_rest is_report complete
  | disconnected _ ih =>
    obtain ⟨more, complete⟩ := ih
    refine ⟨more, ?_⟩
    rw [about, List.filter_cons_of_pos (by simp [name?])]
    exact disconnected_cons_mem_rest complete

/-- A name is listed if it has been registered once more than it has been disconnected. -/
theorem count_eq (h : Leads name listed events listed') :
    events.count (.registered name) + listed.toNat =
      events.count (.disconnected name) + listed'.toNat := by
  induction h with
  | nil => rfl
  | @other e _ _ _ unrelated _ ih =>
    rw [List.count_cons_of_ne, List.count_cons_of_ne]
    · exact ih
    · rintro rfl
      exact unrelated rfl
    · rintro rfl
      exact unrelated rfl
  | registered _ ih =>
    rw [List.count_cons_self, List.count_cons_of_ne (by simp)]
    simp at ih ⊢
    omega
  | @report e _ _ is_report _ ih =>
    rw [List.count_cons_of_ne, List.count_cons_of_ne]
    · exact ih
    · rintro rfl
      exact is_report
    · rintro rfl
      exact is_report
  | disconnected _ ih =>
    rw [List.count_cons_self, List.count_cons_of_ne (by simp)]
    simp at ih ⊢
    omega

/-- If names are disconnected, each once, then those that were listed are so no longer. -/
theorem map_disconnected {names : List String} (nodup : names.Nodup) :
    Leads name (decide (name ∈ names)) (names.map .disconnected) false := by
  induction names with
  | nil => exact .nil false
  | cons first names ih =>
    obtain ⟨fresh, nodup⟩ := List.nodup_cons.1 nodup
    have more := ih nodup
    by_cases same : first = name
    · subst same
      rw [decide_eq_false fresh] at more
      rw [decide_eq_true List.mem_cons_self]
      exact .disconnected more
    · have unrelated : (RegistryEvent.disconnected first).name? ≠ some name := by
        simpa [name?] using same
      simp only [List.mem_cons, Ne.symm same, false_or]
      exact .other unrelated more

end Leads

end RegistryEvent

namespace Registry

open RegistryEvent

variable {r r' r'' : Registry} {peer name : String} {c : RegistryConnection}
variable {outputs outputs' : List RegistryOutput}

/-- What is reported leads from the names of one registry to those of another. -/
def Tells (r : Registry) (outputs : List RegistryOutput) (r' : Registry) : Prop :=
  ∀ name, Leads name (r.table.find? name).isSome (events outputs) (r'.table.find? name).isSome

namespace Tells

/-- Where nothing is reported no name comes or goes. -/
theorem of_silent (silent : events outputs = []) (same : r'.table = r.table) :
    Tells r outputs r' := by
  intro name
  rw [silent, same]
  exact .nil _

theorem trans (first : Tells r outputs r') (second : Tells r' outputs' r'') :
    Tells r (outputs ++ outputs') r'' := by
  intro name
  rw [events_append]
  exact (first name).trans (second name)

/-- Inputs each of which keeps a registry coherent and tells what becomes of the names. -/
theorem run {α : Type} {step : Transducer Registry α RegistryOutput}
    (coherent : ∀ {r : Registry}, r.Coherent → ∀ input, (step r input).1.Coherent)
    (tells : ∀ {r : Registry}, r.Coherent → ∀ input, Tells r (step r input).2 (step r input).1)
    (h : r.Coherent) (inputs : List α) :
    Tells r (Transducer.run step r inputs).2 (Transducer.run step r inputs).1 := by
  induction inputs generalizing r with
  | nil => exact of_silent rfl rfl
  | cons input inputs ih =>
    rw [Transducer.run_cons]
    exact (tells h input).trans (ih (coherent h input))

end Tells

/-- Whether the session is there settles both what is reported and what becomes of the name. -/
theorem tells_release (r : Registry) (s : Session String) :
    Tells r (r.release s).2 (r.release s).1 := by
  by_cases session : r.table.find? s.name = some s.id
  · rw [release_of_session session]
    intro name
    show Leads name _ [.disconnected s.name] ((r.table.remove s).1.find? name).isSome
    rw [SessionTable.find?_remove]
    by_cases same : s.name = name
    · subst same
      rw [if_pos ⟨rfl, session⟩, session]
      exact .disconnected (.nil false)
    · rw [if_neg fun both ↦ same both.1]
      exact .other (by simpa [name?] using same) (.nil _)
  · rw [release_of_gone session]
    exact .of_silent rfl rfl

theorem tells_forget (r : Registry) (peer : String) :
    Tells r (r.forget peer).2 (r.forget peer).1 := by
  rw [forget]
  split
  · exact .of_silent rfl rfl
  · dsimp only
    split
    · exact .of_silent rfl rfl
    · next name _ =>
      have released : Tells (r.without peer) _ _ := tells_release (r.without peer) ⟨peer, name⟩
      exact released

theorem tells_drop (r : Registry) (peer : String) : Tells r (r.drop peer).2 (r.drop peer).1 := by
  rw [drop]
  split
  · exact tells_forget r peer
  · exact .of_silent rfl rfl

/-- Of the two that take a session off the table one reports it. -/
theorem tells_dismiss (r : Registry) (s : Session String) :
    Tells r (r.dismiss s).2 (r.dismiss s).1 :=
  (tells_release r s).trans (tells_forget (r.release s).1 s.id)

theorem tells_reject (r : Registry) (peer : String) (rejection : Rejection) :
    Tells r (r.reject peer rejection).2 (r.reject peer rejection).1 := by
  intro name
  rw [events_reject]
  exact .other (by simp [name?]) (.nil _)

theorem tells_timeOut (r : Registry) (peer : String) :
    Tells r (r.timeOut peer).2 (r.timeOut peer).1 := by
  rw [timeOut]
  split
  · exact tells_reject r peer _
  · exact .of_silent rfl rfl

theorem tells_register (r : Registry) (peer : String) (c : RegistryConnection)
    (wish : Introduction) : Tells r (r.register peer c wish).2 (r.register peer c wish).1 := by
  cases inserted : r.table.insert ⟨peer, wish.name⟩ with
  | error reason =>
    rw [register_of_refused inserted]
    exact tells_reject r peer _
  | ok table =>
    by_cases written : r.CanWrite peer (.ack wish.commandId)
    · rw [register_of_written inserted written]
      intro name
      show Leads name _ [.registered wish.name] (table.find? name).isSome
      have free := (SessionTable.insert_eq_ok_iff.1 inserted).2.1
      rw [SessionTable.find?_insert inserted]
      split
      · next same =>
        rw [← same, free]
        exact .registered (.nil true)
      · next ne => exact .other (by simpa [name?] using ne) (.nil _)
    · rw [register_of_unwritten inserted written]
      exact .of_silent rfl rfl

theorem isReport_of_ofLine? {line : ByteArray} {e : RegistryEvent}
    (h : RegistryEvent.ofLine? name line = some e) : e.IsReport name := by
  rw [ofLine?] at h
  split at h
  · next m _ =>
    rw [ofMessage?] at h
    split at h <;> cases h <;> rfl
  · cases h

theorem Coherent.tells_takeLine (h : r.Coherent) (peer : String) (line : ByteArray) :
    Tells r (takeLine peer r line).2 (takeLine peer r line).1 := by
  rw [takeLine]
  split
  · exact .of_silent rfl rfl
  · next c found =>
    split
    · next about standing =>
      -- who reports is registered, so its name is listed
      have listed := (h.owned about peer).2 ⟨c, found, standing⟩
      intro name
      cases reported : RegistryEvent.ofLine? about line with
      | none => exact .nil _
      | some e =>
        have is_report := isReport_of_ofLine? reported
        by_cases same : about = name
        · subst same
          show Leads about (r.table.find? about).isSome [e] (r.table.find? about).isSome
          rw [listed]
          exact .report is_report (.nil true)
        · exact .other (by simpa [is_report.name?_eq] using same) (.nil _)
    · split
      · exact tells_register r peer c _
      · exact tells_reject r peer _

theorem Coherent.tells_receive (h : r.Coherent) (peer : String) (bytes : ByteArray) :
    Tells r (r.receive peer bytes).2 (r.receive peer bytes).1 := by
  rw [receive]
  split
  · exact .of_silent rfl rfl
  · next c found =>
    obtain ⟨i, lines, oversized⟩ := (c.inbox.append bytes).drain
    have stored :
        Coherent { r with connections := r.connections.insert peer { c with inbox := i } } :=
      h.insert (h.port_ne_none found) fun name ↦ (isRegistered_iff found).symm
    have taken : Tells r _ _ := Tells.run (fun h line ↦ (spares_takeLine h peer line).coherent)
      (fun h line ↦ h.tells_takeLine peer line) stored lines
    cases oversized with
    | none => exact taken
    | some _ => exact taken.trans (tells_drop _ peer)

theorem tells_start (r : Registry) (bound : Option Nat) : Tells r [] (r.start bound).1 := by
  intro name
  unfold start
  split <;> exact .nil _

theorem tells_accept (r : Registry) (peer : String) : Tells r [] (r.accept peer).1 := by
  rw [accept]
  split <;> exact .of_silent rfl rfl

theorem tells_stop (r : Registry) : Tells r r.stop.2 r.stop.1 := by
  by_cases running : r.isRunning = true
  · intro name
    have listed : (r.table.find? name).isSome = decide (name ∈ r.names) := by
      rw [Bool.eq_iff_iff, decide_eq_true_iff]
      exact r.table.mem_names_iff.symm
    rw [events_stop running, stop_of_running running, listed]
    exact .map_disconnected r.nodup_names
  · rw [stop, if_neg running]
    exact .of_silent rfl rfl

theorem tells_block (r : Registry) (peer : String) (fault : WriteError) :
    Tells r [] (r.block peer fault) := by
  rw [block]
  split <;> exact .of_silent rfl rfl

theorem tells_send (r : Registry) (name : String) (m : Message) :
    Tells r (r.send name m).2.1 (r.send name m).1 := by
  rw [send]
  split
  · exact .of_silent rfl rfl
  · split
    · exact .of_silent rfl rfl
    · exact tells_dismiss r _

theorem tells_broadcast (r : Registry) (m : Message) :
    Tells r (r.broadcast m).2.1 (r.broadcast m).1 := by
  rw [broadcast_eq_broadcastIn, broadcastIn_eq]
  have dismissed := Transducer.run_induction dismiss (R := Tells) (fun _ ↦ .of_silent rfl rfl)
    Tells.trans tells_dismiss r (r.unreached m r.table.sessions)
  exact Tells.trans (.of_silent (events_map_line _ _) rfl) dismissed

end Registry
end ShowControl
