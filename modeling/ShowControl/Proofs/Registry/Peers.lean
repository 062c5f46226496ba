import ShowControl.Proofs.Registry.Sessions

/-!
# What an operation means to a peer

Most of what is known about a registry is known of one peer at a time: how it stands, and what is
written to it. Here each operation is looked at from a single peer, `other`, whoever the peer is
that the operation is about. Two things are said of each: what it leaves of the connection of that
peer (`find?_forget`, `find?_receive_of_ne`, ...) and which lines it writes to it
(`linesTo_forget`, `linesTo_receive_of_ne`, ...).

None of it needs a coherent registry. What needs one is that an operation that goes through the
table reaches the peers that are registered (`Coherent.mem_peers_iff`), each of them once
(`Coherent.nodup_peers`), and that the sessions it dismisses are reported, each of them once
(`Coherent.outputs_run_dismiss`).
-/

namespace ShowControl

open RegistryOutput

namespace Registry

variable {r r' : Registry} {peer other name : String} {c : RegistryConnection}

/-- How a peer stands with a registry, if its connection is open. -/
def standing? (r : Registry) (peer : String) : Option Standing :=
  (r.connections.find? peer).map RegistryConnection.standing

theorem standing?_eq_some_iff {standing : Standing} :
    r.standing? peer = some standing ↔
      ∃ c, r.connections.find? peer = some c ∧ c.standing = standing :=
  Option.map_eq_some_iff

theorem standing?_eq_none_iff : r.standing? peer = none ↔ r.connections.find? peer = none :=
  Option.map_eq_none_iff

theorem standing?_eq_registered_iff :
    r.standing? peer = some (.registered name) ↔ r.IsRegistered peer name :=
  standing?_eq_some_iff

theorem standing?_of_find? (h : r.connections.find? peer = some c) :
    r.standing? peer = some c.standing :=
  standing?_eq_some_iff.2 ⟨c, h, rfl⟩

/-- The standing of a peer depends on its connection alone. -/
theorem standing?_congr (h : r'.connections.find? peer = r.connections.find? peer) :
    r'.standing? peer = r.standing? peer :=
  congrArg (Option.map RegistryConnection.standing) h

/-! ### Connections after an operation -/

theorem connections_start (r : Registry) (bound : Option Nat) :
    (r.start bound).1.connections = r.connections := by
  unfold start
  split <;> rfl

theorem find?_forget (r : Registry) (peer other : String) :
    (r.forget peer).1.connections.find? other =
      if peer = other then none else r.connections.find? other := by
  rw [connections_forget, Catalog.find?_erase]

theorem find?_drop (r : Registry) (peer other : String) :
    (r.drop peer).1.connections.find? other =
      if peer = other then none else r.connections.find? other := by
  rw [connections_drop, Catalog.find?_erase]

theorem find?_dismiss (r : Registry) (s : Session String) (other : String) :
    (r.dismiss s).1.connections.find? other =
      if s.id = other then none else r.connections.find? other := by
  rw [connections_dismiss, Catalog.find?_erase]

theorem find?_run_dismiss (r : Registry) (sessions : List (Session String)) (other : String) :
    (Transducer.run dismiss r sessions).1.connections.find? other =
      if other ∈ sessions.map Session.id then none else r.connections.find? other := by
  induction sessions generalizing r with
  | nil => rfl
  | cons s sessions ih =>
    rw [Transducer.run_cons]
    show (Transducer.run dismiss (r.dismiss s).1 sessions).1.connections.find? other = _
    rw [ih, find?_dismiss, List.map_cons]
    by_cases later : other ∈ sessions.map Session.id
    · rw [if_pos later, if_pos (List.mem_cons_of_mem _ later)]
    · rw [if_neg later]
      by_cases same : s.id = other
      · rw [if_pos same, if_pos (by simp [same])]
      · rw [if_neg same, if_neg (by simp [Ne.symm same, later])]

theorem find?_block (r : Registry) (peer other : String) (fault : WriteError) :
    (r.block peer fault).connections.find? other =
      if peer = other then (r.connections.find? other).map fun c ↦ { c with fault := some fault }
      else r.connections.find? other := by
  rw [block]
  split
  · next closed =>
    split
    · next same => rw [← same, closed, Option.map_none]
    · rfl
  · next c found =>
    dsimp only
    rw [Catalog.find?_insert]
    split
    · next same => rw [← same, found, Option.map_some]
    · rfl

theorem standing?_block (r : Registry) (peer other : String) (fault : WriteError) :
    (r.block peer fault).standing? other = r.standing? other := by
  rw [standing?, find?_block, standing?]
  split
  · rw [Option.map_map]
    rfl
  · rfl

theorem find?_register_of_ne (ne : peer ≠ other) (r : Registry) (c : RegistryConnection)
    (wish : Introduction) :
    (r.register peer c wish).1.connections.find? other = r.connections.find? other := by
  cases inserted : r.table.insert ⟨peer, wish.name⟩ with
  | error reason =>
    rw [register_of_refused inserted]
    exact Catalog.find?_erase_of_ne _ ne
  | ok table =>
    by_cases written : r.CanWrite peer (.ack wish.commandId)
    · rw [register_of_written inserted written]
      exact Catalog.find?_insert_of_ne _ _ ne
    · rw [register_of_unwritten inserted written]
      exact Catalog.find?_erase_of_ne _ ne

theorem find?_takeLine_of_ne (ne : peer ≠ other) (r : Registry) (line : ByteArray) :
    (takeLine peer r line).1.connections.find? other = r.connections.find? other := by
  rw [takeLine]
  split
  · rfl
  · split
    · rfl
    · split
      · exact find?_register_of_ne ne r _ _
      · exact Catalog.find?_erase_of_ne _ ne

theorem find?_run_takeLine_of_ne (ne : peer ≠ other) (r : Registry) (lines : List ByteArray) :
    (Transducer.run (takeLine peer) r lines).1.connections.find? other =
      r.connections.find? other :=
  Transducer.run_keeps (f := fun r ↦ r.connections.find? other) (find?_takeLine_of_ne ne) r lines

theorem find?_receive_of_ne (ne : peer ≠ other) (r : Registry) (bytes : ByteArray) :
    (r.receive peer bytes).1.connections.find? other = r.connections.find? other := by
  rw [receive]
  split
  · rfl
  · next c found =>
    obtain ⟨i, lines, oversized⟩ := (c.inbox.append bytes).drain
    have taken := find?_run_takeLine_of_ne ne
      { r with connections := r.connections.insert peer { c with inbox := i } } lines
    rw [Catalog.find?_insert_of_ne _ _ ne] at taken
    cases oversized with
    | none => exact taken
    | some _ =>
      dsimp only
      rw [find?_drop, if_neg ne, taken]

/-! ### Lines that an operation writes -/

/-- Inputs each of which writes nothing to a peer write nothing to it together. -/
theorem linesTo_run {α : Type} {step : Transducer Registry α RegistryOutput}
    (silent : ∀ r input, linesTo other (step r input).2 = []) (r : Registry) (inputs : List α) :
    linesTo other (Transducer.run step r inputs).2 = [] := by
  refine Transducer.run_induction step (R := fun _ outputs _ ↦ linesTo other outputs = [])
    (fun _ ↦ rfl) (fun first second ↦ ?_) silent r inputs
  rw [linesTo_append, first, second, List.append_nil]

theorem linesTo_stop (r : Registry) (other : String) : linesTo other r.stop.2 = [] := by
  have closed (peers : List String) : linesTo other (peers.map .closed) = [] := by
    induction peers with
    | nil => rfl
    | cons peer peers ih => exact ih
  by_cases running : r.isRunning = true
  · rw [stop_of_running running, linesTo_append, closed, List.nil_append]
    exact (congrArg (linesTo other) (List.map_map (f := fun s : Session String ↦
      RegistryEvent.disconnected s.name)).symm).trans (linesTo_events other _)
  · rw [stop, if_neg running]
    rfl

theorem linesTo_reject_of_ne (ne : peer ≠ other) (r : Registry) (rejection : Rejection) :
    linesTo other (r.reject peer rejection).2 = [] := by
  rw [reject_eq, linesTo_append]
  split
  · rw [linesTo_line, if_neg ne]
    rfl
  · rfl

theorem linesTo_register_of_ne (ne : peer ≠ other) (r : Registry) (c : RegistryConnection)
    (wish : Introduction) : linesTo other (r.register peer c wish).2 = [] := by
  cases inserted : r.table.insert ⟨peer, wish.name⟩ with
  | error reason =>
    rw [register_of_refused inserted]
    exact linesTo_reject_of_ne ne r _
  | ok table =>
    by_cases written : r.CanWrite peer (.ack wish.commandId)
    · rw [register_of_written inserted written, linesTo_line, if_neg ne]
      rfl
    · rw [register_of_unwritten inserted written]
      rfl

theorem linesTo_timeOut_of_ne (ne : peer ≠ other) (r : Registry) :
    linesTo other (r.timeOut peer).2 = [] := by
  rw [timeOut]
  split
  · exact linesTo_reject_of_ne ne r _
  · rfl

theorem linesTo_takeLine_of_ne (ne : peer ≠ other) (r : Registry) (line : ByteArray) :
    linesTo other (takeLine peer r line).2 = [] := by
  rw [takeLine]
  split
  · rfl
  · split
    · next name _ => cases RegistryEvent.ofLine? name line <;> rfl
    · split
      · exact linesTo_register_of_ne ne r _ _
      · exact linesTo_reject_of_ne ne r _

theorem linesTo_receive_of_ne (ne : peer ≠ other) (r : Registry) (bytes : ByteArray) :
    linesTo other (r.receive peer bytes).2 = [] := by
  rw [receive]
  split
  · rfl
  · next c found =>
    obtain ⟨i, lines, oversized⟩ := (c.inbox.append bytes).drain
    have taken := linesTo_run (linesTo_takeLine_of_ne ne)
      { r with connections := r.connections.insert peer { c with inbox := i } } lines
    cases oversized with
    | none => exact taken
    | some _ =>
      dsimp only
      rw [linesTo_append, taken, linesTo_drop, List.append_nil]

/-- A line that is written to several peers is written to each of them once. -/
theorem linesTo_map_line_of_mem {peers : List String} (nodup : peers.Nodup) (h : other ∈ peers)
    (text : String) : linesTo other (peers.map fun peer ↦ .line peer text) = [text] := by
  induction peers with
  | nil => cases h
  | cons peer peers ih =>
    obtain ⟨fresh, nodup⟩ := List.nodup_cons.1 nodup
    rw [List.map_cons, linesTo_line]
    rcases List.mem_cons.1 h with rfl | later
    · rw [if_pos rfl, linesTo_map_line fresh]
    · have ne : peer ≠ other := by
        rintro rfl
        exact fresh later
      rw [if_neg ne, ih nodup later]

/-! ### Events that an operation reports -/

theorem events_map_line (peers : List String) (text : String) :
    events (peers.map fun peer ↦ .line peer text) = [] := by
  induction peers with
  | nil => rfl
  | cons peer peers ih => exact ih

theorem events_map_closed (peers : List String) : events (peers.map .closed) = [] := by
  induction peers with
  | nil => rfl
  | cons peer peers ih => exact ih

theorem events_map_event (told : List RegistryEvent) : events (told.map .event) = told := by
  induction told with
  | nil => rfl
  | cons e told ih => exact congrArg (e :: ·) ih

theorem nodup_names (r : Registry) : r.names.Nodup := r.table.ids.nodup_keys

theorem map_name_sessions (r : Registry) : r.table.sessions.map Session.name = r.names := by
  rw [SessionTable.sessions, List.map_map]
  rfl

/-- When a registry stops, all names are disconnected. -/
theorem events_stop (running : r.isRunning = true) :
    events r.stop.2 = r.names.map .disconnected := by
  rw [stop_of_running running, events_append, events_map_closed, List.nil_append,
    ← map_name_sessions, List.map_map, ← events_map_event (r.table.sessions.map _), List.map_map]
  rfl

theorem events_reject (r : Registry) (peer : String) (rejection : Rejection) :
    events (r.reject peer rejection).2 = [.rejected rejection.reason.message] := by
  rw [reject_eq, events_append]
  split <;> rfl

/-! ### Those that are registered -/

/-- A peer is registered under one name only. -/
theorem IsRegistered.name_unique {name' : String} (registered : r.IsRegistered peer name)
    (registered' : r.IsRegistered peer name') : name = name' := by
  obtain ⟨c, found, standing⟩ := registered
  rw [isRegistered_iff found, standing, Standing.registered.injEq] at registered'
  exact registered'

/-- When a session is dismissed, those under other names stay. -/
theorem IsRegistered.others_dismiss {s : Session String} (here : r.IsRegistered s.id s.name)
    {sessions : List (Session String)} (fresh : s.name ∉ sessions.map Session.name)
    (others : ∀ t ∈ sessions, r.IsRegistered t.id t.name) :
    ∀ t ∈ sessions, (r.dismiss s).1.IsRegistered t.id t.name := by
  intro t listed
  have there := others t listed
  -- a peer has one name, so the one that goes is another
  have ne : s.id ≠ t.id := by
    intro same
    rw [same] at here
    rw [here.name_unique there] at fresh
    exact fresh (List.mem_map_of_mem listed)
  obtain ⟨c, found, standing⟩ := there
  exact ⟨c, by rw [find?_dismiss, if_neg ne, found], standing⟩

namespace Coherent

variable (h : r.Coherent)
include h

/-- The peers that the table leads to are those that are registered. -/
theorem mem_peers_iff :
    peer ∈ r.table.sessions.map Session.id ↔ ∃ name, r.IsRegistered peer name := by
  rw [List.mem_map]
  constructor
  · rintro ⟨s, listed, rfl⟩
    exact ⟨s.name, (h.owned s.name s.id).1 (r.table.mem_sessions_iff.1 listed)⟩
  · rintro ⟨name, registered⟩
    refine ⟨⟨peer, name⟩, r.table.mem_sessions_iff.2 ?_, rfl⟩
    exact (h.owned name peer).2 registered

/-- The table leads to no peer twice. -/
theorem nodup_peers : (r.table.sessions.map Session.id).Nodup := by
  have names : (r.table.sessions.map Session.name).Nodup := by
    rw [map_name_sessions]
    exact r.nodup_names
  refine List.pairwise_map.2 ((List.pairwise_map.1 names).imp_of_mem ?_)
  intro s t listed listed' ne same
  have registered := (h.owned s.name s.id).1 (r.table.mem_sessions_iff.1 listed)
  have registered' := (h.owned t.name t.id).1 (r.table.mem_sessions_iff.1 listed')
  rw [← same] at registered'
  exact ne (registered.name_unique registered')

/-- A broadcast reaches nobody twice. -/
theorem nodup_reached (m : Message) :
    ((r.reached m r.table.sessions).map Session.id).Nodup :=
  h.nodup_peers.sublist (List.filter_sublist.map _)

/-- Sessions that are dismissed are closed and reported, one after the other, each of them once. -/
theorem outputs_run_dismiss {sessions : List (Session String)}
    (nodup : (sessions.map Session.name).Nodup)
    (registered : ∀ s ∈ sessions, r.IsRegistered s.id s.name) :
    (Transducer.run Registry.dismiss r sessions).2 =
      sessions.flatMap fun s ↦ [.closed s.id, .event (.disconnected s.name)] := by
  induction sessions generalizing r with
  | nil => rfl
  | cons s sessions ih =>
    obtain ⟨here, others⟩ := List.forall_mem_cons.1 registered
    obtain ⟨fresh, nodup⟩ := List.nodup_cons.1 nodup
    have rest := ih (h.dismiss s) nodup (here.others_dismiss fresh others)
    rw [Transducer.run_cons, rest, h.dismiss_registered here, h.drop_registered here,
      List.flatMap_cons]

/-- When sessions are dismissed, their names are disconnected. -/
theorem events_run_dismiss {sessions : List (Session String)}
    (nodup : (sessions.map Session.name).Nodup)
    (registered : ∀ s ∈ sessions, r.IsRegistered s.id s.name) :
    events (Transducer.run Registry.dismiss r sessions).2 =
      sessions.map fun s ↦ .disconnected s.name := by
  rw [h.outputs_run_dismiss nodup registered, events, List.filterMap_flatMap]
  exact List.map_eq_flatMap.symm

theorem coherent_run_dismiss (sessions : List (Session String)) :
    (Transducer.run Registry.dismiss r sessions).1.Coherent :=
  (Spares.run (P := fun _ ↦ True) (fun h ↦ spares_dismiss h) h sessions).coherent

end Coherent

theorem receive_of_closed (closed : r.connections.find? peer = none) (bytes : ByteArray) :
    r.receive peer bytes = (r, []) := by
  rw [receive, closed]

theorem timeOut_of_closed (closed : r.connections.find? peer = none) :
    r.timeOut peer = (r, []) := by
  rw [timeOut, closed]
  rfl

end Registry

end ShowControl
