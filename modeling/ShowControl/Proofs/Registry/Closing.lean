import ShowControl.Proofs.Registry.Peers

/-!
# Which connections are open

A connection that is open stays open until an output says that it is closed. `Closes` says this of
the registries before and after some outputs, and since it composes (`Closes.trans`, `Closes.run`)
there is one lemma for each operation. Two operations are not among them: a connection is opened
when a peer is accepted, and when a peer hangs up there is nothing left to close (`isOpen_accept`,
`isOpen_forget`).
-/

namespace ShowControl

open RegistryOutput

namespace Registry

variable {r r' r'' : Registry} {peer other name : String} {c : RegistryConnection}
variable {outputs outputs' : List RegistryOutput}

/-- The connection of a peer is open. -/
def IsOpen (r : Registry) (peer : String) : Prop := (r.connections.find? peer).isSome

theorem isOpen_of_find? (found : r.connections.find? peer = some c) : r.IsOpen peer := by
  rw [IsOpen, found, Option.isSome_some]

theorem isOpen_congr (same : r'.connections.find? peer = r.connections.find? peer) :
    r'.IsOpen peer ↔ r.IsOpen peer := by
  rw [IsOpen, same, IsOpen]

theorem isOpen_of_erase (erased : r'.connections = r.connections.erase peer) :
    r'.IsOpen other ↔ r.IsOpen other ∧ other ≠ peer := by
  rw [IsOpen, erased, Catalog.find?_erase]
  split
  · next same => simp [same]
  · next ne => simp [IsOpen, Ne.symm ne]

/-- The connections that are open after some outputs are those that were open before and that the
outputs do not close. -/
def Closes (r : Registry) (outputs : List RegistryOutput) (r' : Registry) : Prop :=
  ∀ peer, r'.IsOpen peer ↔ r.IsOpen peer ∧ .closed peer ∉ outputs

namespace Closes

theorem refl (r : Registry) : Closes r [] r := fun _ ↦ by simp

theorem trans (first : Closes r outputs r') (second : Closes r' outputs' r'') :
    Closes r (outputs ++ outputs') r'' := by
  intro peer
  rw [second, first, List.mem_append, not_or, and_assoc]

theorem run {α : Type} {step : Transducer Registry α RegistryOutput}
    (closes : ∀ r input, Closes r (step r input).2 (step r input).1) (r : Registry)
    (inputs : List α) :
    Closes r (Transducer.run step r inputs).2 (Transducer.run step r inputs).1 :=
  Transducer.run_induction step (R := Closes) refl trans closes r inputs

/-- Where nothing is closed, no connection goes. -/
theorem of_same (same : ∀ peer, r'.IsOpen peer ↔ r.IsOpen peer)
    (unclosed : ∀ peer, .closed peer ∉ outputs) : Closes r outputs r' := by
  intro peer
  rw [same, and_iff_left (unclosed peer)]

theorem of_erase (erased : r'.connections = r.connections.erase peer)
    (closed : ∀ other, .closed other ∈ outputs ↔ other = peer) : Closes r outputs r' := by
  intro other
  rw [isOpen_of_erase erased, closed]

end Closes

theorem closed_not_mem_release (r : Registry) (s : Session String) (peer : String) :
    .closed peer ∉ (r.release s).2 := by
  show RegistryOutput.closed peer ∉ if (r.table.remove s).2 then _ else _
  split <;> simp

theorem closed_not_mem_forget (r : Registry) (peer other : String) :
    .closed other ∉ (r.forget peer).2 := by
  rw [forget]
  split
  · exact List.not_mem_nil
  · dsimp only
    split
    · exact List.not_mem_nil
    · exact closed_not_mem_release _ _ other

/-! ### Each operation -/

theorem closes_drop (r : Registry) (peer : String) : Closes r (r.drop peer).2 (r.drop peer).1 := by
  cases found : r.connections.find? peer with
  | none =>
    rw [drop_closed found]
    exact .refl r
  | some c =>
    refine .of_erase (connections_drop r peer) fun other ↦ ?_
    rw [drop_of_find? found]
    simp [closed_not_mem_forget]

theorem closes_dismiss (r : Registry) (s : Session String) :
    Closes r (r.dismiss s).2 (r.dismiss s).1 := by
  refine .of_erase (connections_dismiss r s) fun other ↦ ?_
  show .closed other ∈ .closed s.id :: (r.release s).2 ++ ((r.release s).1.forget s.id).2 ↔ _
  simp [closed_not_mem_release, closed_not_mem_forget]

theorem closes_reject (r : Registry) (peer : String) (rejection : Rejection) :
    Closes r (r.reject peer rejection).2 (r.reject peer rejection).1 := by
  rw [reject_eq]
  refine .of_erase rfl fun other ↦ ?_
  split <;> simp

theorem closes_timeOut (r : Registry) (peer : String) :
    Closes r (r.timeOut peer).2 (r.timeOut peer).1 := by
  rw [timeOut]
  split
  · exact closes_reject r peer _
  · exact .refl r

theorem isOpen_insert (found : r.connections.find? peer = some c) (c' : RegistryConnection)
    (table : SessionTable String) :
    IsOpen { r with connections := r.connections.insert peer c', table } other ↔
      r.IsOpen other := by
  show ((r.connections.insert peer c').find? other).isSome ↔ _
  rw [Catalog.find?_insert]
  split
  · next same => exact iff_of_true rfl (isOpen_of_find? (same ▸ found))
  · rfl

theorem closes_register (found : r.connections.find? peer = some c) (wish : Introduction) :
    Closes r (r.register peer c wish).2 (r.register peer c wish).1 := by
  cases inserted : r.table.insert ⟨peer, wish.name⟩ with
  | error reason =>
    rw [register_of_refused inserted]
    exact closes_reject r peer _
  | ok table =>
    by_cases written : r.CanWrite peer (.ack wish.commandId)
    · rw [register_of_written inserted written]
      exact .of_same (fun _ ↦ isOpen_insert found _ table) (by simp)
    · rw [register_of_unwritten inserted written]
      exact .of_erase rfl (by simp)

theorem closes_takeLine (peer : String) (r : Registry) (line : ByteArray) :
    Closes r (takeLine peer r line).2 (takeLine peer r line).1 := by
  rw [takeLine]
  split
  · exact .refl r
  · next c found =>
    split
    · next name _ => exact .of_same (fun _ ↦ .rfl) (by simp)
    · split
      · exact closes_register found _
      · exact closes_reject r peer _

theorem closes_receive (r : Registry) (peer : String) (bytes : ByteArray) :
    Closes r (r.receive peer bytes).2 (r.receive peer bytes).1 := by
  rw [receive]
  split
  · exact .refl r
  · next c found =>
    obtain ⟨i, lines, oversized⟩ := (c.inbox.append bytes).drain
    have stored : Closes r []
        { r with connections := r.connections.insert peer { c with inbox := i } } :=
      .of_same (fun _ ↦ isOpen_insert found _ r.table) (by simp)
    have taken := stored.trans (.run (closes_takeLine peer) _ lines)
    cases oversized with
    | none => exact taken
    | some _ => exact taken.trans (closes_drop _ peer)

theorem closes_block (r : Registry) (peer : String) (fault : WriteError) :
    Closes r [] (r.block peer fault) := by
  rw [block]
  split
  · exact .refl r
  · next c found => exact .of_same (fun _ ↦ isOpen_insert found _ r.table) (by simp)

theorem closes_start (r : Registry) (bound : Option Nat) : Closes r [] (r.start bound).1 :=
  .of_same (fun _ ↦ isOpen_congr (by rw [connections_start])) (by simp)

theorem closes_stop (r : Registry) : Closes r r.stop.2 r.stop.1 := by
  by_cases running : r.isRunning = true
  · rw [stop_of_running running]
    intro peer
    have listed : .closed peer ∈ r.connections.keys.map RegistryOutput.closed ↔ r.IsOpen peer := by
      rw [IsOpen, ← Catalog.mem_keys_iff]
      simp
    have closed : ¬IsOpen { table := { isClosed := true } } peer := Bool.false_ne_true
    rw [List.mem_append, listed]
    exact iff_of_false closed fun ⟨here, unclosed⟩ ↦ unclosed (.inl here)
  · rw [stop, if_neg running]
    exact .refl r

theorem closes_send (r : Registry) (name : String) (m : Message) :
    Closes r (r.send name m).2.1 (r.send name m).1 := by
  rw [send]
  split
  · exact .refl r
  · split
    · exact .of_same (fun _ ↦ .rfl) (by simp)
    · exact closes_dismiss r _

theorem closes_broadcast (r : Registry) (m : Message) :
    Closes r (r.broadcast m).2.1 (r.broadcast m).1 := by
  rw [broadcast_eq_broadcastIn, broadcastIn_eq]
  exact Closes.trans (.of_same (fun _ ↦ .rfl) (by simp)) (.run closes_dismiss r _)

/-! ### What opens a connection, and what ends it without a word -/

theorem isOpen_accept (r : Registry) (peer other : String) :
    (r.accept peer).1.IsOpen other ↔
      ((r.accept peer).2 = true ∧ peer = other) ∨ r.IsOpen other := by
  rw [accept]
  split
  · show ((r.connections.insert peer {}).find? other).isSome ↔ _
    rw [Catalog.find?_insert]
    split
    · next same => simp [same]
    · next ne => simp [ne, IsOpen]
  · simp

theorem isOpen_forget (r : Registry) (peer other : String) :
    (r.forget peer).1.IsOpen other ↔ r.IsOpen other ∧ other ≠ peer :=
  isOpen_of_erase (connections_forget r peer)

end Registry

end ShowControl
