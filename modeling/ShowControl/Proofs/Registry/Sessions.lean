import ShowControl.Proofs.Registry.Endings

/-!
# What operations leave alone

All operations keep a registry coherent. Beyond that most operations only end connections, and write
lines only to those that are registered or end with it. `Spares` says this of some of the peers. It
composes (`Spares.trans`, `Spares.run`), so each operation needs it for its parts only. There are
two exceptions. What keeps lines from being written to a peer changes its connection
(`spares_block`), and a line of a peer may register it (`spares_takeLine`, `spares_receive`); all
others are spared.
-/

namespace ShowControl

open RegistryOutput

namespace Registry

variable {r r' r'' : Registry} {peer name : String} {c : RegistryConnection}
variable {outputs outputs' : List RegistryOutput}

/-! ### Sparing peers -/

/-- What happens keeps the registry coherent and does nothing to the connections of the peers in `P`
but end some of them; to those of them that stay without being registered no line is written. -/
structure Spares (P : String → Prop) (r : Registry) (outputs : List RegistryOutput)
    (r' : Registry) : Prop where
  coherent : r'.Coherent
  kept : ∀ peer, P peer → ∀ c, r'.connections.find? peer = some c →
    r.connections.find? peer = some c ∧ (c.standing = .greeting → linesTo peer outputs = [])

namespace Spares

variable {P : String → Prop}

theorem refl (h : r.Coherent) : Spares P r [] r :=
  ⟨h, fun _ _ _ found ↦ ⟨found, fun _ ↦ rfl⟩⟩

theorem trans (first : Spares P r outputs r') (second : Spares P r' outputs' r'') :
    Spares P r (outputs ++ outputs') r'' where
  coherent := second.coherent
  kept peer spared c found := by
    obtain ⟨found', silent'⟩ := second.kept peer spared c found
    obtain ⟨found, silent⟩ := first.kept peer spared c found'
    refine ⟨found, fun waiting ↦ ?_⟩
    rw [linesTo_append, silent waiting, silent' waiting, List.append_nil]

/-- To end a connection does nothing to the others. -/
theorem of_erase (coherent : r'.Coherent)
    (erased : r'.connections = r.connections.erase peer)
    (silent : ∀ other, linesTo other outputs = []) : Spares P r outputs r' where
  coherent := coherent
  kept other _ c left := by
    rw [erased] at left
    exact ⟨(left_of_erase left).2, fun _ ↦ silent other⟩

/-- What spares peers at each step spares them over a run. -/
theorem run {α : Type} {step : Transducer Registry α RegistryOutput}
    (spares : ∀ {r : Registry}, r.Coherent → ∀ input, Spares P r (step r input).2 (step r input).1)
    (h : r.Coherent) (inputs : List α) :
    Spares P r (Transducer.run step r inputs).2 (Transducer.run step r inputs).1 := by
  induction inputs generalizing r with
  | nil => exact refl h
  | cons input inputs ih =>
    have first := spares h input
    rw [Transducer.run_cons]
    exact first.trans (ih first.coherent)

end Spares

section Operations

variable {P : String → Prop} (h : r.Coherent)
include h

theorem spares_insert (running : r.port ≠ none)
    (same : ∀ name, c.standing = .registered name ↔ r.IsRegistered peer name) :
    Spares (· ≠ peer) r [] { r with connections := r.connections.insert peer c } :=
  ⟨h.insert running same, fun _ ne _ left ↦ ⟨left_of_insert ne left, fun _ ↦ rfl⟩⟩

/-- What is written when a connection ends in the greeting must go to its peer. -/
theorem spares_erase (found : r.connections.find? peer = some c) (waiting : c.standing = .greeting)
    (silent : ∀ other, peer ≠ other → linesTo other outputs = []) :
    Spares P r outputs { r with connections := r.connections.erase peer } where
  coherent := h.erase (not_isRegistered found waiting)
  kept other _ c' left := by
    obtain ⟨ne, found⟩ := left_of_erase left
    exact ⟨found, fun _ ↦ silent other ne⟩

theorem spares_start (bound : Option Nat) : Spares P r [] (r.start bound).1 := by
  unfold start
  split
  · exact .refl h
  · refine ⟨⟨fun stopped ↦ ?_, h.owned⟩, fun _ _ _ found ↦ ⟨found, fun _ ↦ rfl⟩⟩
    cases stopped
  · exact .refl h

theorem spares_accept (peer : String) : Spares (· ≠ peer) r [] (r.accept peer).1 := by
  rw [accept]
  split
  · next possible =>
    rw [Bool.and_eq_true, Bool.not_eq_true', Catalog.contains, Option.isSome_eq_false_iff,
      Option.isNone_iff_eq_none] at possible
    obtain ⟨running, closed⟩ := possible
    refine spares_insert h (fun stopped ↦ ?_) fun name ↦ ?_
    · rw [isRunning, stopped] at running
      cases running
    · -- neither the new connection is registered nor was there one
      simp [IsRegistered, closed]
  · exact .refl h

theorem spares_block (peer : String) (fault : WriteError) :
    Spares (· ≠ peer) r [] (r.block peer fault) := by
  rw [block]
  split
  · exact .refl h
  · next c found =>
    exact spares_insert h (h.port_ne_none found) fun name ↦ (isRegistered_iff found).symm

theorem spares_stop : Spares P r r.stop.2 r.stop.1 := by
  by_cases running : r.isRunning = true
  · rw [stop_of_running running]
    refine ⟨⟨fun _ _ ↦ rfl, fun name peer ↦ ?_⟩, fun peer _ c found ↦ ?_⟩
    · show (none : Option String) = some peer ↔ _
      simp [IsRegistered]
    · cases found
  · rw [stop, if_neg running]
    exact .refl h

theorem spares_forget (peer : String) : Spares P r (r.forget peer).2 (r.forget peer).1 :=
  .of_erase (h.forget peer) (connections_forget r peer) (linesTo_forget r peer)

theorem spares_drop (peer : String) : Spares P r (r.drop peer).2 (r.drop peer).1 := by
  rw [drop]
  split
  · obtain ⟨coherent, kept⟩ := spares_forget (P := P) h peer
    exact ⟨coherent, kept⟩
  · exact .refl h

theorem spares_dismiss (s : Session String) : Spares P r (r.dismiss s).2 (r.dismiss s).1 :=
  .of_erase (h.dismiss s) (connections_dismiss r s) (linesTo_dismiss r s)

theorem spares_reject (found : r.connections.find? peer = some c) (waiting : c.standing = .greeting)
    (rejection : Rejection) :
    Spares P r (r.reject peer rejection).2 (r.reject peer rejection).1 := by
  rw [reject_eq]
  refine spares_erase h found waiting fun other ne ↦ ?_
  rw [linesTo_append]
  split
  · rw [linesTo_line, if_neg ne]
    rfl
  · rfl

theorem spares_timeOut (peer : String) : Spares P r (r.timeOut peer).2 (r.timeOut peer).1 := by
  rw [timeOut]
  split
  · next waiting =>
    obtain ⟨c, found, standing⟩ := Option.map_eq_some_iff.1 waiting
    exact spares_reject h found standing _
  · exact .refl h

/-- Who has a session is registered, so nobody else is spoken to through the table. -/
theorem standing_of_session (session : r.table.find? name = some peer)
    (found : r.connections.find? peer = some c) : c.standing ≠ .greeting := by
  rw [(isRegistered_iff found).1 ((h.owned name peer).1 session)]
  exact Standing.noConfusion

theorem spares_send (name : String) (m : Message) :
    Spares P r (r.send name m).2.1 (r.send name m).1 := by
  rw [send]
  split
  · exact .refl h
  · next peer session =>
    split
    · next line _ =>
      refine ⟨h, fun other _ c found ↦ ⟨found, fun waiting ↦ ?_⟩⟩
      rw [linesTo_line, if_neg]
      · rfl
      · rintro rfl
        exact standing_of_session h session found waiting
    · exact spares_dismiss h ⟨peer, name⟩

theorem spares_broadcast (m : Message) :
    Spares P r (r.broadcast m).2.1 (r.broadcast m).1 := by
  rw [broadcast_eq_broadcastIn, broadcastIn_eq]
  refine Spares.trans ⟨h, fun other _ c found ↦ ⟨found, fun waiting ↦ ?_⟩⟩
    (Spares.run (fun h ↦ spares_dismiss h) h _)
  refine linesTo_map_line (fun addressed ↦ ?_) _
  obtain ⟨s, listed, rfl⟩ := List.mem_map.1 addressed
  -- those addressed are the owners of the sessions
  have session := (SessionTable.mem_sessions_iff _).1 (List.mem_filter.1 listed).1
  exact standing_of_session h session found waiting

end Operations

/-! ### Lines of a peer -/

section Lines

variable (h : r.Coherent)
include h

theorem spares_register (found : r.connections.find? peer = some c)
    (waiting : c.standing = .greeting) (wish : Introduction) :
    Spares (· ≠ peer) r (r.register peer c wish).2 (r.register peer c wish).1 := by
  cases inserted : r.table.insert ⟨peer, wish.name⟩ with
  | error reason =>
    rw [register_of_refused inserted]
    exact spares_reject h found waiting _
  | ok table =>
    by_cases written : r.CanWrite peer (.ack wish.commandId)
    · rw [register_of_written inserted written]
      refine ⟨h.insert_insert found waiting inserted rfl, fun other ne c' left ↦ ?_⟩
      refine ⟨left_of_insert ne left, fun _ ↦ ?_⟩
      rw [linesTo_line, if_neg (Ne.symm ne)]
      rfl
    · rw [register_of_unwritten inserted written]
      exact spares_erase h found waiting fun _ _ ↦ rfl

theorem spares_takeLine (peer : String) (line : ByteArray) :
    Spares (· ≠ peer) r (takeLine peer r line).2 (takeLine peer r line).1 := by
  rw [takeLine]
  split
  · exact .refl h
  · next c found =>
    split
    · next name _ =>
      refine ⟨h, fun _ _ _ left ↦ ⟨left, fun _ ↦ ?_⟩⟩
      cases RegistryEvent.ofLine? name line <;> rfl
    · next waiting =>
      split
      · exact spares_register h found waiting _
      · exact spares_reject h found waiting _

theorem spares_receive (peer : String) (bytes : ByteArray) :
    Spares (· ≠ peer) r (r.receive peer bytes).2 (r.receive peer bytes).1 := by
  rw [receive]
  split
  · exact .refl h
  · next c found =>
    obtain ⟨i, lines, oversized⟩ := (c.inbox.append bytes).drain
    -- the inbox is stored, then the lines are taken, and perhaps the connection is dropped
    have stored : Spares (· ≠ peer) r []
        { r with connections := r.connections.insert peer { c with inbox := i } } :=
      spares_insert h (h.port_ne_none found) fun name ↦ (isRegistered_iff found).symm
    have taken := stored.trans
      (Spares.run (fun h ↦ spares_takeLine h peer) stored.coherent lines)
    cases oversized with
    | none => exact taken
    | some _ => exact taken.trans (spares_drop taken.coherent peer)

end Lines

/-- The first line of a connection either ends it or registers it and is acknowledged. -/
theorem takeLine_greeting (found : r.connections.find? peer = some c)
    (waiting : c.standing = .greeting) {line : ByteArray} {c' : RegistryConnection}
    (left : (takeLine peer r line).1.connections.find? peer = some c') :
    ∃ wish, Introduction.ofLine line = .ok wish ∧
      c' = { c with standing := .registered wish.name } ∧ r.fault? peer = none ∧
      linesTo peer (takeLine peer r line).2 = [(Message.ack wish.commandId).encode] := by
  rw [takeLine, found] at left ⊢
  dsimp only at left ⊢
  rw [waiting] at left ⊢
  dsimp only at left ⊢
  split at left
  · next wish introduced =>
    refine ⟨wish, introduced, ?_⟩
    cases inserted : r.table.insert ⟨peer, wish.name⟩ with
    | error reason =>
      rw [register_of_refused inserted] at left
      exact absurd rfl (left_of_erase left).1
    | ok table =>
      by_cases written : r.CanWrite peer (.ack wish.commandId)
      · rw [register_of_written inserted written] at left ⊢
        rw [Catalog.find?_insert_self, Option.some_inj] at left
        refine ⟨left.symm, written.2, ?_⟩
        rw [linesTo_line, if_pos rfl]
        rfl
      · rw [register_of_unwritten inserted written] at left
        exact absurd rfl (left_of_erase left).1
  · exact absurd rfl (left_of_erase left).1

/-- The lines of a registered connection change nothing and are reported. -/
theorem run_takeLine_registered (found : r.connections.find? peer = some c)
    (standing : c.standing = .registered name) (lines : List ByteArray) :
    Transducer.run (takeLine peer) r lines =
      (r, (lines.filterMap (RegistryEvent.ofLine? name)).map .event) := by
  have step (line : ByteArray) :
      takeLine peer r line = (r, ((RegistryEvent.ofLine? name line).map .event).toList) := by
    rw [takeLine, found]
    dsimp only
    rw [standing]
  induction lines with
  | nil => rfl
  | cons line lines ih =>
    rw [Transducer.run_cons, step, ih, List.filterMap_cons]
    cases RegistryEvent.ofLine? name line <;> rfl

/-- Lines that follow the end of a connection are ignored. -/
theorem run_takeLine_closed (closed : r.connections.find? peer = none) (lines : List ByteArray) :
    Transducer.run (takeLine peer) r lines = (r, []) := by
  have step (line : ByteArray) : takeLine peer r line = (r, []) := by
    rw [takeLine, closed]
  induction lines with
  | nil => rfl
  | cons line lines ih =>
    rw [Transducer.run_cons, step, ih]
    rfl

/-- What the lines of a connection make of its standing, and what is written to it, unless they end
it. -/
inductive Answers : Standing → List ByteArray → List String → Standing → Prop where
  | waiting : Answers .greeting [] [] .greeting
  | welcomed {line : ByteArray} {wish : Introduction}
      (introduced : Introduction.ofLine line = .ok wish) (lines : List ByteArray) :
      Answers .greeting (line :: lines) [(Message.ack wish.commandId).encode]
        (.registered wish.name)
  | registered (name : String) (lines : List ByteArray) :
      Answers (.registered name) lines [] (.registered name)

section Left

variable {c' : RegistryConnection}

theorem run_takeLine (found : r.connections.find? peer = some c) {lines : List ByteArray}
    (left : (Transducer.run (takeLine peer) r lines).1.connections.find? peer = some c') :
    c'.inbox = c.inbox ∧ c'.fault = c.fault ∧
      Answers c.standing lines (linesTo peer (Transducer.run (takeLine peer) r lines).2)
        c'.standing := by
  cases standing : c.standing with
  | registered name =>
    rw [run_takeLine_registered found standing] at left ⊢
    obtain rfl : c = c' := Option.some_inj.1 (found.symm.trans left)
    rw [standing, linesTo_events]
    exact ⟨rfl, rfl, .registered name lines⟩
  | greeting =>
    cases lines with
    | nil =>
      obtain rfl : c = c' := Option.some_inj.1 (found.symm.trans left)
      rw [standing]
      exact ⟨rfl, rfl, .waiting⟩
    | cons line lines =>
      rw [Transducer.run_cons] at left ⊢
      -- the first line decides, and those behind it only see what it left
      cases first : (takeLine peer r line).1.connections.find? peer with
      | none =>
        rw [run_takeLine_closed first, first] at left
        cases left
      | some welcomed =>
        obtain ⟨wish, introduced, rfl, -, sent⟩ := takeLine_greeting found standing first
        rw [run_takeLine_registered first rfl] at left ⊢
        obtain rfl := Option.some_inj.1 (first.symm.trans left)
        rw [linesTo_append, sent, linesTo_events]
        exact ⟨rfl, rfl, .welcomed introduced lines⟩

/-- What a connection is after bytes have arrived on it, if it is still open. -/
theorem receive_left (found : r.connections.find? peer = some c) {bytes : ByteArray} {i : Inbox}
    {lines : List ByteArray} {oversized : Option FrameTooLarge}
    (drained : (c.inbox.append bytes).drain = (i, lines, oversized))
    (left : (r.receive peer bytes).1.connections.find? peer = some c') :
    oversized = none ∧ c'.inbox = i ∧ c'.fault = c.fault ∧
      Answers c.standing lines (linesTo peer (r.receive peer bytes).2) c'.standing := by
  rw [receive, found] at left ⊢
  dsimp only at left ⊢
  rw [drained] at left ⊢
  dsimp only at left ⊢
  cases oversized with
  | some e =>
    rw [drop_closes] at left
    cases left
  | none =>
    obtain ⟨inbox, fault, answers⟩ := run_takeLine (Catalog.find?_insert_self ..) left
    exact ⟨rfl, inbox, fault, answers⟩

end Left

end Registry

end ShowControl
