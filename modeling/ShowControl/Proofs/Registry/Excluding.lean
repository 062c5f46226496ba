import ShowControl.Proofs.Registry.Lifecycle
import ShowControl.Proofs.Registry.Pieces

/-!
# A registry without one of its peers

What a registry would be had a peer not connected is the registry without the connection of this
peer and without its session (`excluding`). Two coherent registries are the same if they listen
alike and have the same connections, so that it is enough to look at these
(`Coherent.eq_excluding`).

Most operations do the same whether or not the peer is there (`Overlooks`): those about another
peer, if its first line does not ask for the name that the absent one has, and sending to any other
name. Of the others a broadcast reaches one peer less (`Coherent.reached_excluding`), and a step of
the owner ends one registration less (`Coherent.severed_excluding`).
-/

namespace ShowControl

open RegistryOutput

namespace Registry

variable {r r' : Registry} {absent peer other name : String} {c : RegistryConnection}

/-- The registry as it would be had a peer not connected. -/
def excluding (r : Registry) (absent : String) : Registry := (r.forget absent).1

/-- An operation does the same where a peer is absent. -/
def Overlooks {α : Type} (absent : String) (operation : Registry → Registry × α) (r : Registry) :
    Prop :=
  operation (r.excluding absent) = ((operation r).1.excluding absent, (operation r).2)

theorem find?_excluding (r : Registry) (absent other : String) :
    (r.excluding absent).connections.find? other =
      if absent = other then none else r.connections.find? other :=
  find?_forget r absent other

theorem find?_excluding_of_ne (ne : absent ≠ other) (r : Registry) :
    (r.excluding absent).connections.find? other = r.connections.find? other := by
  rw [find?_excluding, if_neg ne]

theorem standing?_excluding_of_ne (ne : absent ≠ other) (r : Registry) :
    (r.excluding absent).standing? other = r.standing? other :=
  standing?_congr (find?_excluding_of_ne ne r)

theorem canWrite_excluding_of_ne (ne : absent ≠ other) (r : Registry) (m : Message) :
    (r.excluding absent).CanWrite other m ↔ r.CanWrite other m :=
  canWrite_congr (fault?_congr (find?_excluding_of_ne ne r)) m

theorem door_excluding (r : Registry) (absent : String) : (r.excluding absent).door = r.door :=
  door_forget r absent

theorem port_excluding (r : Registry) (absent : String) : (r.excluding absent).port = r.port :=
  congrArg Prod.fst (door_excluding r absent)

theorem isRunning_excluding (r : Registry) (absent : String) :
    (r.excluding absent).isRunning = r.isRunning :=
  congrArg Option.isSome (port_excluding r absent)

theorem contains_excluding_of_ne (ne : absent ≠ other) (r : Registry) :
    (r.excluding absent).connections.contains other = r.connections.contains other :=
  congrArg Option.isSome (find?_excluding_of_ne ne r)

theorem excluding_of_closed (closed : r.connections.find? absent = none) :
    r.excluding absent = r :=
  congrArg Prod.fst (forget_closed closed)

/-- Where the registry drops the peer, it is left without it. -/
theorem excluding_drop (r : Registry) (absent : String) :
    (r.drop absent).1.excluding absent = r.excluding absent := by
  rw [excluding_of_closed (drop_closes r absent), drop]
  split
  · rfl
  · next unknown =>
    refine (excluding_of_closed ?_).symm
    simpa [Catalog.contains] using unknown

/-- The peer is registered under none of the names that another may take. -/
theorem isRegistered_excluding :
    (r.excluding absent).IsRegistered other name ↔ absent ≠ other ∧ r.IsRegistered other name := by
  rw [IsRegistered, IsRegistered, find?_excluding]
  split
  · next same => simp [same]
  · next ne => simp [ne]

/-! ### Registries with the same connections -/

theorem isRegistered_congr (same : r'.connections.find? peer = r.connections.find? peer) :
    r'.IsRegistered peer name ↔ r.IsRegistered peer name := by
  rw [IsRegistered, IsRegistered, same]

namespace Coherent

variable (h : r.Coherent)
include h

theorem excluding (absent : String) : (r.excluding absent).Coherent :=
  h.step (.hangUp absent)

/-- Whatever has the connections of the others, and listens alike, is the registry without the
peer. -/
theorem eq_excluding (h' : r'.Coherent) (door : r'.door = r.door)
    (left : ∀ peer, r'.connections.find? peer =
      if absent = peer then none else r.connections.find? peer) : r' = r.excluding absent := by
  refine (h.excluding absent).eq_of_connections_eq h' (Catalog.ext_find? fun peer ↦ ?_)
    (door.trans (door_excluding r absent).symm)
  rw [left, find?_excluding]

end Coherent

/-! ### Sessions -/

/-- A name that the absent peer does not have leads to whom it did. -/
theorem Coherent.find?_table_excluding (h : r.Coherent) (free : ¬r.IsRegistered absent name) :
    (r.excluding absent).table.find? name = r.table.find? name := by
  refine Option.ext fun peer ↦ ?_
  rw [(h.excluding absent).owned name peer, isRegistered_excluding, h.owned name peer]
  refine and_iff_right_of_imp fun registered ↦ ?_
  rintro rfl
  exact free registered

/-! ### Operations about other peers -/

/-- An operation overlooks a peer if it gives the same, and leaves the same connections to the
others. -/
theorem overlooks_of {α : Type} {operation : Registry → Registry × α}
    (coherent : (operation r).1.Coherent)
    (coherent' : (operation (r.excluding absent)).1.Coherent)
    (door : (operation (r.excluding absent)).1.door = (operation r).1.door)
    (left : ∀ peer, (operation (r.excluding absent)).1.connections.find? peer =
      if absent = peer then none else (operation r).1.connections.find? peer)
    (same : (operation (r.excluding absent)).2 = (operation r).2) :
    Overlooks absent operation r :=
  Prod.ext (coherent.eq_excluding coherent' door left) same

theorem Overlooks.eq {α : Type} {operation : Registry → Registry × α}
    (h : Overlooks absent operation r) {result : α} (eq : operation r = (r', result)) :
    operation (r.excluding absent) = (r'.excluding absent, result) := by
  rw [Overlooks, eq] at h
  exact h

theorem overlooks_idle {α : Type} {operation : Registry → Registry × α} {result : α}
    (idle : operation r = (r, result))
    (idle' : operation (r.excluding absent) = (r.excluding absent, result)) :
    Overlooks absent operation r := by
  rw [Overlooks, idle, idle']

section Others

variable (h : r.Coherent) (ne : absent ≠ peer)
include h ne

theorem Coherent.overlooks_accept : Overlooks absent (accept · peer) r := by
  have h' := h.excluding absent
  refine overlooks_of (h.step (.accept peer)) (h'.step (.accept peer)) ?_ ?_ ?_
  · rw [door_accept, door_accept, door_excluding]
  · intro other
    rw [accept, accept, isRunning_excluding, contains_excluding_of_ne ne]
    split
    · dsimp only
      rw [Catalog.find?_insert, Catalog.find?_insert, find?_excluding]
      split
      · next same => rw [if_neg (same ▸ ne)]
      · rfl
    · exact find?_excluding r absent other
  · rw [accept, accept, isRunning_excluding, contains_excluding_of_ne ne]
    split <;> rfl

theorem Coherent.overlooks_forget : Overlooks absent (Registry.forget · peer) r := by
  have h' := h.excluding absent
  refine overlooks_of (h.step (.hangUp peer)) (h'.step (.hangUp peer)) ?_ ?_ ?_
  · rw [door_forget, door_forget, door_excluding]
  · intro other
    rw [find?_forget, find?_forget, find?_excluding]
    split
    · rw [ite_self]
    · rfl
  · have stands := standing?_excluding_of_ne ne r
    rcases before : r.standing? peer with _ | _ | name
    · rw [before] at stands
      rw [forget_closed (standing?_eq_none_iff.1 before),
        forget_closed (standing?_eq_none_iff.1 stands)]
    · rw [before] at stands
      obtain ⟨c, found, waiting⟩ := standing?_eq_some_iff.1 before
      obtain ⟨c', found', waiting'⟩ := standing?_eq_some_iff.1 stands
      rw [forget_greeting found waiting, forget_greeting found' waiting']
    · rw [before] at stands
      rw [h.forget_registered (standing?_eq_registered_iff.1 before),
        h'.forget_registered (standing?_eq_registered_iff.1 stands)]

theorem Coherent.overlooks_drop : Overlooks absent (drop · peer) r := by
  have forgotten := h.overlooks_forget ne
  rw [Overlooks] at forgotten ⊢
  rw [drop, drop, contains_excluding_of_ne ne]
  split
  · dsimp only
    rw [forgotten]
  · rfl

omit ne in
theorem Coherent.overlooks_dismiss {s : Session String} (ne : absent ≠ s.id) :
    Overlooks absent (Registry.dismiss · s) r := by
  have forgotten := h.overlooks_forget ne
  rw [Overlooks] at forgotten ⊢
  rw [h.dismiss_eq, (h.excluding absent).dismiss_eq, forgotten]

theorem Coherent.overlooks_block (fault : WriteError) : Overlooks absent
    (fun r ↦ (r.block peer fault, ())) r := by
  refine overlooks_of (h.step (.block peer fault))
    ((h.excluding absent).step (.block peer fault)) ?_ (fun other ↦ ?_) rfl
  · rw [door_block, door_block, door_excluding]
  · rw [find?_block, find?_block, find?_excluding]
    split
    · next mine => rw [if_neg (mine ▸ ne), if_neg (mine ▸ ne)]
    · rfl

section Greeting

variable (found : r.connections.find? peer = some c) (waiting : c.standing = .greeting)
include found waiting

theorem Coherent.overlooks_reject (rejection : Rejection) :
    Overlooks absent (reject · peer rejection) r := by
  have found' := (find?_excluding_of_ne ne r).trans found
  refine overlooks_of (spares_reject (P := fun _ ↦ False) h found waiting rejection).coherent
    (spares_reject (P := fun _ ↦ False) (h.excluding absent) found' waiting rejection).coherent
    ?_ (fun other ↦ ?_) ?_
  · exact door_excluding r absent
  · show ((r.excluding absent).connections.erase peer).find? other =
      if absent = other then none else (r.connections.erase peer).find? other
    rw [Catalog.find?_erase, Catalog.find?_erase, find?_excluding]
    split
    · rw [ite_self]
    · rfl
  · rw [reject_eq, reject_eq]
    simp only [canWrite_excluding_of_ne ne]

omit ne in
/-- A connection in the greeting that is closed leaves no trace. -/
theorem Coherent.without_excluding (ne : absent ≠ peer) :
    (r.excluding absent).without peer = (r.without peer).excluding absent := by
  have found' := (find?_excluding_of_ne ne r).trans found
  have dropped := h.overlooks_drop ne
  rw [Overlooks, drop_greeting found waiting, drop_greeting found' waiting] at dropped
  exact congrArg Prod.fst dropped

/-- A name that the absent peer does not have is free or taken as it was. -/
theorem Coherent.overlooks_register {wish : Introduction}
    (free : ¬r.IsRegistered absent wish.name) :
    Overlooks absent (register · peer c wish) r := by
  have h' := h.excluding absent
  have found' := (find?_excluding_of_ne ne r).trans found
  have same := SessionTable.insert_congr (s := ⟨peer, wish.name⟩)
    (congrArg Prod.snd (door_excluding r absent)) (h.find?_table_excluding free)
  cases inserted : r.table.insert ⟨peer, wish.name⟩ with
  | error reason =>
    rw [inserted] at same
    have rejected := h.overlooks_reject ne found waiting ⟨wish.commandId, reason⟩
    rw [Overlooks] at rejected ⊢
    rwa [register_of_refused inserted, register_of_refused same]
  | ok table =>
    rw [inserted] at same
    dsimp only [Except.map] at same
    have written_iff := canWrite_excluding_of_ne ne r (.ack wish.commandId)
    by_cases written : r.CanWrite peer (.ack wish.commandId)
    · rw [Overlooks, register_of_written inserted written,
        register_of_written same (written_iff.2 written)]
      refine congrArg (Prod.mk · _) ?_
      refine (h.insert_insert found waiting inserted rfl).eq_excluding
        (h'.insert_insert found' waiting same rfl) ?_ fun other ↦ ?_
      · obtain ⟨-, -, rfl⟩ := SessionTable.insert_eq_ok_iff.1 inserted
        exact door_excluding r absent
      · dsimp only
        rw [Catalog.find?_insert, Catalog.find?_insert, find?_excluding]
        split
        · next mine => rw [if_neg (mine ▸ ne)]
        · rfl
    · rw [Overlooks, register_of_unwritten inserted written,
        register_of_unwritten same fun written' ↦ written (written_iff.1 written'),
        h.without_excluding found waiting ne]

end Greeting

theorem Coherent.overlooks_timeOut : Overlooks absent (timeOut · peer) r := by
  have stands := standing?_excluding_of_ne ne r
  rcases before : r.standing? peer with _ | _ | name
  · have gone := standing?_eq_none_iff.1 before
    rw [before] at stands
    exact overlooks_idle (timeOut_of_closed gone)
      (timeOut_of_closed (standing?_eq_none_iff.1 stands))
  · obtain ⟨c, found, waiting⟩ := standing?_eq_some_iff.1 before
    have rejected := h.overlooks_reject ne found waiting ⟨handshakeId, .timedOut⟩
    rw [Overlooks] at rejected ⊢
    rw [before] at stands
    rw [timeOut, timeOut, ← standing?, ← standing?, before, stands]
    exact rejected
  · rw [before] at stands
    have ignored {r : Registry} (registered : r.standing? peer = some (.registered name)) :
        r.timeOut peer = (r, []) := by
      rw [timeOut, ← standing?, registered]
    exact overlooks_idle (ignored before) (ignored stands)

end Others

/-! ### Lines of other peers -/

/-- A line ends the greeting of its peer. -/
theorem standing?_takeLine_ne (r : Registry) (peer : String) (line : ByteArray) :
    (takeLine peer r line).1.standing? peer ≠ some .greeting := by
  intro waiting
  obtain ⟨c', left, greeting⟩ := standing?_eq_some_iff.1 waiting
  cases found : r.connections.find? peer with
  | none =>
    rw [takeLine, found] at left
    rw [found] at left
    cases left
  | some c =>
    cases standing : c.standing with
    | greeting =>
      obtain ⟨wish, -, rfl, -⟩ := takeLine_greeting found standing left
      cases greeting
    | registered name =>
      rw [takeLine, found] at left
      dsimp only at left
      rw [standing] at left
      obtain rfl : c = c' := Option.some_inj.1 (found.symm.trans left)
      rw [standing] at greeting
      cases greeting

/-- Bytes bring the first line of a peer, and it asks for a name. -/
def Claims (r : Registry) (peer : String) (bytes : ByteArray) (name : String) : Prop :=
  ∃ c line wish, r.connections.find? peer = some c ∧ c.standing = .greeting ∧
    (c.inbox.append bytes).drain.2.1.head? = some line ∧ Introduction.ofLine line = .ok wish ∧
    wish.name = name

section Others

variable (h : r.Coherent) (ne : absent ≠ peer)
include h ne

theorem Coherent.overlooks_takeLine {line : ByteArray}
    (free : ∀ wish, Introduction.ofLine line = .ok wish → r.standing? peer = some .greeting →
      ¬r.IsRegistered absent wish.name) :
    Overlooks absent (takeLine peer · line) r := by
  have same := find?_excluding_of_ne ne r
  rw [Overlooks, takeLine, takeLine, same]
  cases found : r.connections.find? peer with
  | none => rfl
  | some c =>
    dsimp only
    cases standing : c.standing with
    | registered name => rfl
    | greeting =>
      dsimp only
      cases introduced : Introduction.ofLine line with
      | error rejection => exact h.overlooks_reject ne found standing rejection
      | ok wish =>
        refine h.overlooks_register ne found standing (free wish introduced ?_)
        rw [standing?_of_find? found, standing]

omit h in
/-- Once the greeting is over, lines change nothing that the absent peer could see. -/
theorem overlooks_lines_of_decided (decided : r.standing? peer ≠ some .greeting)
    (lines : List ByteArray) :
    Overlooks absent (Transducer.run (takeLine peer) · lines) r := by
  have same := find?_excluding_of_ne ne r
  rcases before : r.standing? peer with _ | _ | name
  · have gone := standing?_eq_none_iff.1 before
    exact overlooks_idle (run_takeLine_closed gone lines)
      (run_takeLine_closed (same.trans gone) lines)
  · exact absurd before decided
  · obtain ⟨c, found, standing⟩ := standing?_eq_some_iff.1 before
    exact overlooks_idle (run_takeLine_registered found standing lines)
      (run_takeLine_registered (same.trans found) standing lines)

theorem Coherent.overlooks_lines (lines : List ByteArray)
    (free : ∀ line wish, lines.head? = some line → Introduction.ofLine line = .ok wish →
      r.standing? peer = some .greeting → ¬r.IsRegistered absent wish.name) :
    Overlooks absent (Transducer.run (takeLine peer) · lines) r := by
  cases lines with
  | nil => rfl
  | cons line lines =>
    have first := h.overlooks_takeLine ne (free line · rfl)
    have others := overlooks_lines_of_decided ne (standing?_takeLine_ne r peer line) lines
    rw [Overlooks] at first others ⊢
    rw [Transducer.run_cons, Transducer.run_cons, first, others]

theorem Coherent.refill_excluding (i : Inbox) :
    (r.excluding absent).refill peer i = (r.refill peer i).excluding absent := by
  have same := find?_excluding_of_ne ne r
  cases found : r.connections.find? peer with
  | none => rw [refill_of_closed found, refill_of_closed (same.trans found)]
  | some c =>
    refine (h.refill peer i).eq_excluding ((h.excluding absent).refill peer i) ?_ fun other ↦ ?_
    · rw [refill_of_open found, refill_of_open (same.trans found)]
      exact door_excluding r absent
    · rw [refill_of_open found, refill_of_open (same.trans found)]
      dsimp only
      rw [Catalog.find?_insert, Catalog.find?_insert, find?_excluding]
      split
      · next mine => rw [if_neg (mine ▸ ne)]
      · rfl

/-- What another peer sends is taken alike, if it does not ask for the name of the absent one. -/
theorem Coherent.overlooks_receive {bytes : ByteArray}
    (free : ∀ name, r.Claims peer bytes name → ¬r.IsRegistered absent name) :
    Overlooks absent (receive · peer bytes) r := by
  have same := find?_excluding_of_ne ne r
  cases found : r.connections.find? peer with
  | none =>
    exact overlooks_idle (receive_of_closed found _) (receive_of_closed (same.trans found) _)
  | some c =>
    have found' := same.trans found
    rcases drained : (c.inbox.append bytes).drain with ⟨i, lines, oversized⟩
    -- the inbox is stored, then the lines are taken, and perhaps the connection is dropped
    have stored := h.refill_excluding ne i
    have coherent := h.refill peer i
    have taken := coherent.overlooks_lines ne lines fun line wish first introduced waiting ↦ by
      rw [isRegistered_congr (find?_refill_of_ne (Ne.symm ne) r i)]
      refine free wish.name ⟨c, line, wish, found, ?_, ?_, introduced, rfl⟩
      · obtain ⟨c', left, greeting⟩ := standing?_eq_some_iff.1 waiting
        rw [find?_refill, found] at left
        cases left
        exact greeting
      · rw [drained]
        exact first
    rw [Overlooks, receive, receive, found', found]
    dsimp only
    rw [drained]
    dsimp only
    have left := (Spares.run (fun h ↦ spares_takeLine h peer) coherent lines).coherent
    rcases ran : Transducer.run (takeLine peer) (r.refill peer i) lines with ⟨r', outputs⟩
    rw [ran] at left
    rw [← refill_of_open found, ← refill_of_open found', stored, taken.eq ran, ran]
    cases oversized with
    | none => rfl
    | some _ =>
      have dropped := left.overlooks_drop ne
      rw [Overlooks] at dropped
      dsimp only
      rw [dropped]

end Others

theorem Overlooks.map {α β : Type} {operation : Registry → Registry × α}
    (h : Overlooks absent operation r) (f : α → β) :
    Overlooks absent (fun r ↦ ((operation r).1, f (operation r).2)) r :=
  congrArg (fun result : Registry × α ↦ (result.1, f result.2)) h

/-- A step about another peer does the same, unless its first line asks for the name that the absent
peer has. -/
theorem Coherent.overlooks_step (h : r.Coherent) {step : RegistryStep}
    (about : step.peer? = some peer) (ne : absent ≠ peer)
    (free : ∀ bytes name, step = .receive peer bytes → r.Claims peer bytes name →
      ¬r.IsRegistered absent name) : Overlooks absent (·.step step) r := by
  cases RegistryStep.isAbout about with
  | accept =>
    exact (h.overlooks_accept ne).map fun accepted ↦ RegistryOutcome.mk (.accepted accepted) []
  | receive bytes =>
    exact (h.overlooks_receive ne (free bytes · rfl)).map (RegistryOutcome.mk .done)
  | hangUp =>
    exact (h.overlooks_forget ne).map (RegistryOutcome.mk .done)
  | block fault =>
    exact (h.overlooks_block ne fault).map fun _ ↦ RegistryOutcome.mk .done []
  | timeOut =>
    exact (h.overlooks_timeOut ne).map (RegistryOutcome.mk .done)

/-! ### Steps of the owner -/

section Owner

variable (h : r.Coherent)
include h

theorem Coherent.overlooks_start (bound : Option Nat) : Overlooks absent (start · bound) r := by
  refine overlooks_of (h.step (.start bound)) ((h.excluding absent).step (.start bound)) ?_
    (fun other ↦ ?_) ?_
  · unfold start
    rw [port_excluding]
    split
    · exact door_excluding r absent
    · rfl
    · exact door_excluding r absent
  · rw [connections_start, connections_start, find?_excluding]
  · unfold start
    rw [port_excluding]
    split <;> rfl

omit h in
theorem stop_excluding (r : Registry) (absent : String) :
    (r.excluding absent).stop.1 = r.stop.1.excluding absent := by
  by_cases running : r.isRunning = true
  · have running' : (r.excluding absent).isRunning = true :=
      (isRunning_excluding r absent).trans running
    rw [stop_of_running running', stop_of_running running]
    exact (excluding_of_closed rfl).symm
  · have stopped := port_of_not_running running
    rw [stop_of_idle stopped, stop_of_idle ((port_excluding r absent).trans stopped)]

/-- To send to a name that the absent peer does not have does the same. -/
theorem Coherent.overlooks_send (free : ¬r.IsRegistered absent name) (m : Message) :
    Overlooks absent (send · name m) r := by
  rw [Overlooks, send, send, h.find?_table_excluding free]
  cases session : r.table.find? name with
  | none => rfl
  | some peer =>
    have ne : absent ≠ peer := by
      rintro rfl
      exact free ((h.owned name absent).1 session)
    have dismissed := h.overlooks_dismiss (s := ⟨peer, name⟩) ne
    rw [Overlooks] at dismissed
    dsimp only
    rw [line?_congr (fault?_congr (find?_excluding_of_ne ne r))]
    cases r.line? peer m with
    | ok line => rfl
    | error reason =>
      dsimp only
      rw [dismissed]

/-- The sessions of the others are those that there were. -/
theorem Coherent.sessions_excluding (absent : String) :
    (r.excluding absent).table.sessions = r.table.sessions.filter fun s ↦ s.id ≠ absent := by
  have entries : (r.excluding absent).table.ids.entries =
      r.table.ids.entries.filter fun entry ↦ entry.2 ≠ absent := by
    refine (r.excluding absent).table.ids.sorted.eq_of_mem_iff
      (r.table.ids.sorted.sublist List.filter_sublist) fun (name, peer) ↦ ?_
    rw [List.mem_filter, Catalog.mem_entries_iff, Catalog.mem_entries_iff]
    refine ((h.excluding absent).owned name peer).trans (isRegistered_excluding.trans ?_)
    rw [and_comm, decide_eq_true_iff, ne_comm, ← h.owned name peer]
    rfl
  rw [SessionTable.sessions, SessionTable.sessions, entries, List.filter_map]
  rfl

/-- The names of the others are those that there were. -/
theorem Coherent.names_excluding (absent : String) :
    (r.excluding absent).names = r.names.filter fun name ↦ r.table.find? name ≠ some absent := by
  rw [← map_name_sessions, ← map_name_sessions, h.sessions_excluding, List.filter_map]
  refine congrArg (List.map Session.name) (List.filter_congr fun s listed ↦ ?_)
  have session := r.table.mem_sessions_iff.1 listed
  simp [session]

/-- Without the peer its name is free. -/
theorem Coherent.not_mem_names_excluding (registered : r.IsRegistered absent name) :
    name ∉ (r.excluding absent).names := by
  rw [(h.excluding absent).mem_names_iff]
  rintro ⟨peer, here⟩
  obtain ⟨ne, here⟩ := isRegistered_excluding.1 here
  exact ne (h.eq_of_isRegistered registered here)

theorem Coherent.peers_excluding (absent : String) :
    (r.excluding absent).table.sessions.map Session.id =
      (r.table.sessions.map Session.id).filter (· ≠ absent) := by
  rw [h.sessions_excluding, List.filter_map]
  rfl

/-- Where sessions are selected by what the peer does not settle, its own is missing. -/
theorem Coherent.filter_excluding {p q : String → Prop} [DecidablePred p] [DecidablePred q]
    (same : ∀ other, absent ≠ other → (p other ↔ q other)) :
    ((r.excluding absent).table.sessions.filter fun s ↦ p s.id) =
      (r.table.sessions.filter fun s ↦ q s.id).filter fun s ↦ s.id ≠ absent := by
  rw [h.sessions_excluding, List.filter_filter, List.filter_filter]
  refine List.filter_congr fun s _ ↦ ?_
  by_cases mine : s.id = absent
  · simp [mine]
  · simp [mine, same s.id (Ne.symm mine)]

/-- Of the sessions that a message reaches the one of the peer is missing. -/
theorem Coherent.reached_excluding (absent : String) (m : Message) :
    (r.excluding absent).reached m (r.excluding absent).table.sessions =
      (r.reached m r.table.sessions).filter fun s ↦ s.id ≠ absent :=
  h.filter_excluding fun _ ne ↦ canWrite_excluding_of_ne ne r m

theorem Coherent.unreached_excluding (absent : String) (m : Message) :
    (r.excluding absent).unreached m (r.excluding absent).table.sessions =
      (r.unreached m r.table.sessions).filter fun s ↦ s.id ≠ absent :=
  h.filter_excluding fun _ ne ↦ not_congr (canWrite_excluding_of_ne ne r m)

theorem Coherent.broadcast_excluding (absent : String) (m : Message) :
    ((r.excluding absent).broadcast m).1 = (r.broadcast m).1.excluding absent := by
  have left : (r.broadcast m).1.Coherent := h.step (.broadcast m)
  refine left.eq_excluding ((h.excluding absent).step (.broadcast m)) ?_ fun other ↦ ?_
  · rw [door_broadcast, door_broadcast, door_excluding]
  · rw [broadcast_eq_broadcastIn, broadcast_eq_broadcastIn, broadcastIn_eq, broadcastIn_eq]
    dsimp only
    rw [find?_run_dismiss, find?_run_dismiss, h.unreached_excluding, find?_excluding]
    by_cases same : absent = other
    · rw [if_pos same, if_pos same, ite_self]
    · have listed : other ∈ ((r.unreached m r.table.sessions).filter fun s ↦ s.id ≠ absent).map
          Session.id ↔ other ∈ (r.unreached m r.table.sessions).map Session.id :=
        (mem_map_filter_id (· ≠ absent) _).trans (and_iff_left (Ne.symm same))
      rw [if_neg same, if_neg same]
      exact if_congr listed rfl rfl

omit h in
theorem count_broadcast (r : Registry) (m : Message) :
    (r.broadcast m).2.2 = ((r.reached m r.table.sessions).map Session.id).length := by
  rw [broadcast_eq_broadcastIn, broadcastIn_eq, List.length_map]

/-- A broadcast reaches one peer more where the peer is registered and can be written to. -/
theorem Coherent.count_broadcast_of_registered {m : Message}
    (registered : ∃ name, r.IsRegistered absent name) (written : r.CanWrite absent m) :
    (r.broadcast m).2.2 = ((r.excluding absent).broadcast m).2.2 + 1 := by
  have here := mem_map_reached.2 ⟨h.mem_peers_iff.2 registered, written⟩
  have once := List.length_erase_add_one here
  have left : ((r.reached m r.table.sessions).filter fun s ↦ s.id ≠ absent).map Session.id =
      ((r.reached m r.table.sessions).map Session.id).erase absent := by
    rw [(h.nodup_reached m).erase_eq_filter, List.filter_map]
    refine congrArg (List.map Session.id) (List.filter_congr fun s _ ↦ ?_)
    rw [Bool.eq_iff_iff, Function.comp, bne_iff_ne, decide_eq_true_iff]
  rw [count_broadcast, count_broadcast, h.reached_excluding, left, once]

/-- Any other broadcast reaches as many as without the peer. -/
theorem Coherent.count_broadcast_of_not {m : Message}
    (spared : ¬((∃ name, r.IsRegistered absent name) ∧ r.CanWrite absent m)) :
    (r.broadcast m).2.2 = ((r.excluding absent).broadcast m).2.2 := by
  rw [count_broadcast, count_broadcast, h.reached_excluding, List.filter_eq_self.2]
  intro s listed
  rw [decide_eq_true_iff]
  rintro rfl
  obtain ⟨here, written⟩ := mem_map_reached.1 (List.mem_map_of_mem (f := Session.id) listed)
  exact spared ⟨h.mem_peers_iff.1 here, written⟩

/-- Of the registrations that a step of the owner ends the one of the peer is missing. -/
theorem Coherent.severed_excluding (absent : String) (step : RegistryStep) :
    (r.excluding absent).severed step =
      (r.severed step).filter fun name ↦ r.table.find? name ≠ some absent := by
  cases step with
  | stop => exact h.names_excluding absent
  | send name m =>
    by_cases mine : r.IsRegistered absent name
    · -- without the peer nobody has the name
      have unknown : (r.excluding absent).table.find? name = none := by
        have free := h.not_mem_names_excluding mine
        rwa [names, SessionTable.mem_names_iff, Bool.not_eq_true, Option.isSome_eq_false_iff,
          Option.isNone_iff_eq_none] at free
      have session := (h.owned name absent).2 mine
      rw [severed, severed, unknown, session]
      dsimp only
      split <;> simp [session]
    · rw [severed, severed, h.find?_table_excluding mine]
      cases session : r.table.find? name with
      | none => rfl
      | some peer =>
        have ne : absent ≠ peer := by
          rintro rfl
          exact mine ((h.owned name absent).1 session)
        dsimp only
        simp only [canWrite_excluding_of_ne ne]
        split
        · rfl
        · simp [session, Ne.symm ne]
  | broadcast m =>
    rw [severed, severed, h.unreached_excluding, List.filter_map]
    refine congrArg (List.map Session.name) (List.filter_congr fun s listed ↦ ?_)
    have session := r.table.mem_sessions_iff.1 (List.mem_filter.1 listed).1
    simp [session]
  | start bound => rfl
  | accept peer => rfl
  | receive peer bytes => rfl
  | hangUp peer => rfl
  | block peer fault => rfl
  | timeOut peer => rfl

end Owner

end Registry

end ShowControl
