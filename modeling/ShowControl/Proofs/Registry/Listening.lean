import ShowControl.Proofs.Registry.Moments

/-!
# Where a registry listens

Only a start and a stop change where a registry listens and whether its table takes sessions
(`door`), and they change both. So the table is open for as long as the registry listens
(`Admits`). Of a coherent registry everything else is seen from its connections, so that two with
the same door and the same connections are the same (`Coherent.eq_of_connections_eq`).
-/

namespace ShowControl

namespace Registry

variable {r r' : Registry} {peer : String}

/-- Where the registry listens, and whether its table is closed. -/
def door (r : Registry) : Option Nat × Bool := (r.port, r.table.isClosed)

theorem door_release (r : Registry) (s : Session String) : (r.release s).1.door = r.door := by
  show (r.port, (r.table.remove s).1.isClosed) = _
  rw [SessionTable.remove]
  split <;> rfl

theorem door_forget (r : Registry) (peer : String) : (r.forget peer).1.door = r.door := by
  rw [forget]
  split
  · rfl
  · dsimp only
    split
    · rfl
    · exact door_release (r.without peer) _

theorem door_drop (r : Registry) (peer : String) : (r.drop peer).1.door = r.door := by
  rw [drop]
  split
  · exact door_forget r peer
  · rfl

theorem door_dismiss (r : Registry) (s : Session String) : (r.dismiss s).1.door = r.door :=
  (door_forget (r.release s).1 s.id).trans (door_release r s)

theorem door_run_dismiss (r : Registry) (sessions : List (Session String)) :
    (Transducer.run dismiss r sessions).1.door = r.door :=
  Transducer.run_keeps (f := door) door_dismiss r sessions

theorem door_register (r : Registry) (peer : String) (c : RegistryConnection)
    (wish : Introduction) : (r.register peer c wish).1.door = r.door := by
  cases inserted : r.table.insert ⟨peer, wish.name⟩ with
  | error reason =>
    rw [register_of_refused inserted]
    rfl
  | ok table =>
    by_cases written : r.CanWrite peer (.ack wish.commandId)
    · obtain ⟨-, -, rfl⟩ := SessionTable.insert_eq_ok_iff.1 inserted
      rw [register_of_written inserted written]
      rfl
    · rw [register_of_unwritten inserted written]
      rfl

theorem door_takeLine (peer : String) (r : Registry) (line : ByteArray) :
    (takeLine peer r line).1.door = r.door := by
  rw [takeLine]
  split
  · rfl
  · split
    · rfl
    · split
      · exact door_register r peer _ _
      · rfl

theorem door_receive (r : Registry) (peer : String) (bytes : ByteArray) :
    (r.receive peer bytes).1.door = r.door := by
  rw [receive]
  split
  · rfl
  · next c _ =>
    obtain ⟨i, lines, oversized⟩ := (c.inbox.append bytes).drain
    have taken := Transducer.run_keeps (f := door) (door_takeLine peer)
      { r with connections := r.connections.insert peer { c with inbox := i } } lines
    rcases oversized with _ | _
    · exact taken
    · exact (door_drop _ peer).trans taken

theorem door_accept (r : Registry) (peer : String) : (r.accept peer).1.door = r.door := by
  rw [accept]
  split <;> rfl

theorem door_timeOut (r : Registry) (peer : String) : (r.timeOut peer).1.door = r.door := by
  rw [timeOut]
  split <;> rfl

theorem door_block (r : Registry) (peer : String) (fault : WriteError) :
    (r.block peer fault).door = r.door := by
  rw [block]
  split <;> rfl

theorem door_send (r : Registry) (name : String) (m : Message) :
    (r.send name m).1.door = r.door := by
  rw [send]
  split
  · rfl
  · split
    · rfl
    · exact door_dismiss r _

theorem door_broadcast (r : Registry) (m : Message) : (r.broadcast m).1.door = r.door := by
  rw [broadcast_eq_broadcastIn, broadcastIn_eq]
  exact door_run_dismiss r _

theorem door_step_of_peer {step : RegistryStep} (about : step.peer? = some peer) :
    (r.step step).1.door = r.door := by
  cases RegistryStep.isAbout about with
  | accept => exact door_accept r peer
  | receive bytes => exact door_receive r peer bytes
  | hangUp => exact door_forget r peer
  | block fault => exact door_block r peer fault
  | timeOut => exact door_timeOut r peer

namespace Coherent

/-- The table of a coherent registry is seen from its connections. -/
theorem eq_of_connections_eq (h : r.Coherent) (h' : r'.Coherent)
    (connections : r'.connections = r.connections) (door : r'.door = r.door) : r' = r := by
  obtain ⟨port, closed⟩ := Prod.mk.inj door
  have same (peer name : String) : r'.IsRegistered peer name ↔ r.IsRegistered peer name := by
    rw [IsRegistered, connections, IsRegistered]
  have ids : r'.table.ids = r.table.ids := by
    refine Catalog.ext_find? fun name ↦ Option.ext fun peer ↦ ?_
    exact (h'.owned name peer).trans ((same peer name).trans (h.owned name peer).symm)
  obtain ⟨_, _, _, _⟩ := r
  obtain ⟨_, _, _, _⟩ := r'
  dsimp only at port closed connections ids
  subst port closed connections ids
  rfl

end Coherent

/-- While the registry listens its table takes sessions. -/
def Admits (r : Registry) : Prop := r.isRunning = true → r.table.isClosed = false

namespace Admits

theorem empty : ({} : Registry).Admits := fun _ ↦ rfl

variable (h : r.Admits)
include h

theorem of_door (same : r'.door = r.door) : r'.Admits := by
  obtain ⟨port, closed⟩ := Prod.mk.inj same
  intro running
  rw [isRunning, port] at running
  rw [closed]
  exact h running

theorem start (bound : Option Nat) : (r.start bound).1.Admits := by
  unfold Registry.start
  split
  · exact h
  · exact fun _ ↦ rfl
  · exact h

theorem stop : r.stop.1.Admits := by
  by_cases running : r.isRunning = true
  · rw [stop_of_running running]
    exact fun running ↦ absurd running Bool.false_ne_true
  · rw [Registry.stop, if_neg running]
    exact h

theorem step (step : RegistryStep) : (r.step step).1.Admits := by
  cases step with
  | start bound => exact h.start bound
  | stop => exact h.stop
  | accept peer => exact h.of_door (door_accept r peer)
  | receive peer bytes => exact h.of_door (door_receive r peer bytes)
  | hangUp peer => exact h.of_door (door_forget r peer)
  | block peer fault => exact h.of_door (door_block r peer fault)
  | timeOut peer => exact h.of_door (door_timeOut r peer)
  | send name m => exact h.of_door (door_send r name m)
  | broadcast m => exact h.of_door (door_broadcast r m)

theorem run (steps : List RegistryStep) : (r.run steps).1.Admits := by
  induction steps generalizing r with
  | nil => exact h
  | cons step steps ih =>
    rw [run_cons]
    exact ih (h.step step)

end Admits

theorem admits_entered (before : List RegistryStep) (peer : String) :
    (entered before peer).Admits :=
  (Admits.empty.run before).of_door (door_accept _ peer)

end Registry

end ShowControl
