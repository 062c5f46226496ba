import ShowControl.Proofs.Registry.Coherence

/-!
# How sessions end

Several things notice that a session ends, and each of them takes it off the table. The one that
finds it there reports the end (`release_of_session`), and any other finds nothing and says nothing
(`release_of_gone`). So a session to which a line could not be written is reported once, although
the reading of its connection ends as well (`Coherent.dismiss_registered`), and so are all those
that are on the table when the registry stops (`stop_of_running`).
-/

namespace ShowControl

open RegistryOutput

namespace Registry

variable {r r' : Registry} {peer name : String} {s : Session String} {c : RegistryConnection}

/-- The registry without the connection of a peer. -/
def without (r : Registry) (peer : String) : Registry :=
  { r with connections := r.connections.erase peer }

/-! ### One session -/

theorem release_of_session (session : r.table.find? s.name = some s.id) :
    r.release s = ({ r with table := (r.table.remove s).1 }, [.event (.disconnected s.name)]) := by
  refine Prod.ext rfl ?_
  show (if (r.table.remove s).2 then _ else _) = _
  rw [(r.table.remove_snd_iff s).2 session, if_pos rfl]

theorem release_of_gone (gone : r.table.find? s.name ≠ some s.id) : r.release s = (r, []) := by
  rw [release, SessionTable.remove, if_neg gone]
  rfl

/-- What has been released is not there any more. -/
theorem find?_release (r : Registry) (s : Session String) :
    (r.release s).1.table.find? s.name ≠ some s.id := by
  by_cases session : r.table.find? s.name = some s.id
  · rw [release_of_session session]
    show (r.table.remove s).1.find? s.name ≠ _
    rw [SessionTable.find?_remove, if_pos ⟨rfl, session⟩]
    exact nofun
  · rwa [release_of_gone session]

theorem forget_closed (closed : r.connections.find? peer = none) : r.forget peer = (r, []) := by
  rw [forget, closed]

/-- What ends a connection in the greeting is not reported. -/
theorem forget_greeting (found : r.connections.find? peer = some c)
    (waiting : c.standing = .greeting) :
    r.forget peer = (r.without peer, []) := by
  rw [forget, found]
  dsimp only
  rw [waiting]
  rfl

/-- With a connection that is registered its session goes. -/
theorem forget_of_isRegistered (registered : r.IsRegistered peer name) :
    r.forget peer = (r.without peer).release ⟨peer, name⟩ := by
  obtain ⟨c, found, standing⟩ := registered
  rw [forget, found]
  dsimp only
  rw [standing]
  rfl

theorem drop_of_find? (found : r.connections.find? peer = some c) :
    r.drop peer = ((r.forget peer).1, .closed peer :: (r.forget peer).2) := by
  rw [drop, Catalog.contains, found, Option.isSome_some, if_pos rfl]

theorem drop_greeting (found : r.connections.find? peer = some c)
    (waiting : c.standing = .greeting) :
    r.drop peer = (r.without peer, [.closed peer]) := by
  rw [drop_of_find? found, forget_greeting found waiting]

theorem drop_closed (closed : r.connections.find? peer = none) : r.drop peer = (r, []) := by
  rw [drop, Catalog.contains, closed, Option.isSome_none, if_neg Bool.false_ne_true]

/-! ### What is left and what is written -/

theorem connections_forget (r : Registry) (peer : String) :
    (r.forget peer).1.connections = r.connections.erase peer := by
  rw [forget]
  split
  · next closed => exact (Catalog.erase_of_find?_eq_none closed).symm
  · dsimp only
    split <;> rfl

theorem connections_drop (r : Registry) (peer : String) :
    (r.drop peer).1.connections = r.connections.erase peer := by
  cases found : r.connections.find? peer with
  | none => rw [drop_closed found, Catalog.erase_of_find?_eq_none found]
  | some c => rw [drop_of_find? found, connections_forget]

theorem connections_dismiss (r : Registry) (s : Session String) :
    (r.dismiss s).1.connections = r.connections.erase s.id :=
  connections_forget (r.release s).1 s.id

/-- A connection that is forgotten is not open. -/
theorem forget_closes (r : Registry) (peer : String) :
    (r.forget peer).1.connections.find? peer = none := by
  rw [connections_forget]
  exact Catalog.find?_erase_self ..

theorem drop_closes (r : Registry) (peer : String) :
    (r.drop peer).1.connections.find? peer = none := by
  rw [connections_drop]
  exact Catalog.find?_erase_self ..

theorem linesTo_release (r : Registry) (s : Session String) (other : String) :
    linesTo other (r.release s).2 = [] := by
  show linesTo other (if (r.table.remove s).2 then _ else _) = []
  split <;> rfl

theorem linesTo_forget (r : Registry) (peer other : String) :
    linesTo other (r.forget peer).2 = [] := by
  rw [forget]
  split
  · rfl
  · dsimp only
    split
    · rfl
    · exact linesTo_release ..

theorem linesTo_drop (r : Registry) (peer other : String) :
    linesTo other (r.drop peer).2 = [] := by
  rw [drop]
  split
  · exact linesTo_forget r peer other
  · rfl

theorem linesTo_dismiss (r : Registry) (s : Session String) (other : String) :
    linesTo other (r.dismiss s).2 = [] := by
  show linesTo other (.closed s.id :: (r.release s).2 ++ ((r.release s).1.forget s.id).2) = []
  rw [linesTo_append, linesTo_closed, linesTo_release, linesTo_forget, List.append_nil]

/-! ### Sessions of coherent registries -/

namespace Coherent

variable (h : r.Coherent)
include h

/-- What ends a registered connection ends its session and is reported. -/
theorem forget_registered (registered : r.IsRegistered peer name) :
    r.forget peer =
      ({ r with
          connections := r.connections.erase peer
          table := (r.table.remove ⟨peer, name⟩).1 },
        [.event (.disconnected name)]) := by
  rw [forget_of_isRegistered registered]
  exact release_of_session ((h.owned name peer).2 registered)

theorem drop_registered (registered : r.IsRegistered peer name) :
    r.drop peer =
      ({ r with
          connections := r.connections.erase peer
          table := (r.table.remove ⟨peer, name⟩).1 },
        [.closed peer, .event (.disconnected name)]) := by
  obtain ⟨c, found, -⟩ := id registered
  rw [drop_of_find? found, h.forget_registered registered]

theorem forget (peer : String) : (r.forget peer).1.Coherent := by
  cases found : r.connections.find? peer with
  | none => rwa [forget_closed found]
  | some c =>
    cases standing : c.standing with
    | greeting =>
      rw [forget_greeting found standing]
      exact h.erase (not_isRegistered found standing)
    | registered name =>
      have registered : r.IsRegistered peer name := ⟨c, found, standing⟩
      rw [h.forget_registered registered]
      exact h.erase_remove registered

/-- A session that is dismissed is reported by the first of the two that take it off the table. -/
theorem dismiss_registered (registered : r.IsRegistered s.id s.name) :
    r.dismiss s = r.drop s.id := by
  have session : r.table.find? s.name = some s.id := (h.owned s.name s.id).2 registered
  have released := release_of_session session
  have gone := find?_release r s
  -- the connection is still there, but not its session
  have still : (r.release s).1.IsRegistered s.id s.name := by
    rw [released]
    exact registered
  have last : (r.release s).1.forget s.id = ((r.release s).1.without s.id, []) := by
    rw [forget_of_isRegistered still]
    exact release_of_gone gone
  show (((r.release s).1.forget s.id).1,
    .closed s.id :: (r.release s).2 ++ ((r.release s).1.forget s.id).2) = _
  rw [last, released, h.drop_registered registered]
  rfl

/-- To dismiss who is not registered ends the connection. -/
theorem dismiss_unregistered (unregistered : ¬r.IsRegistered s.id s.name) :
    r.dismiss s = ((r.forget s.id).1, .closed s.id :: (r.forget s.id).2) := by
  rw [← h.owned] at unregistered
  rw [dismiss, release_of_gone unregistered]
  rfl

/-- What is left of a connection that is dismissed is what its end leaves. -/
theorem dismiss_eq (s : Session String) :
    r.dismiss s = ((r.forget s.id).1, .closed s.id :: (r.forget s.id).2) := by
  by_cases registered : r.IsRegistered s.id s.name
  · obtain ⟨c, found, -⟩ := id registered
    rw [h.dismiss_registered registered, drop_of_find? found]
  · exact h.dismiss_unregistered registered

theorem dismiss (s : Session String) : (r.dismiss s).1.Coherent := by
  rw [h.dismiss_eq]
  exact h.forget s.id

end Coherent

/-! ### Connections that are not registered -/

/-- A connection is refused, and its peer is told if it can be. -/
theorem reject_eq (r : Registry) (peer : String) (rejection : Rejection) :
    r.reject peer rejection =
      (r.without peer,
        (if r.CanWrite peer rejection.reply then [.line peer rejection.reply.encode] else []) ++
          [.closed peer, .event (.rejected rejection.reason.message)]) := by
  by_cases written : r.CanWrite peer rejection.reply
  · rw [reject, line?_of_canWrite written, if_pos written]
    rfl
  · obtain ⟨reason, failed⟩ := exists_line?_eq_error written
    rw [reject, failed, if_neg written]
    rfl

theorem reject_of_canWrite {rejection : Rejection} (h : r.CanWrite peer rejection.reply) :
    r.reject peer rejection =
      (r.without peer, [.line peer rejection.reply.encode, .closed peer,
        .event (.rejected rejection.reason.message)]) := by
  rw [reject_eq, if_pos h]
  rfl

section Register

variable {wish : Introduction} {table : SessionTable String}

theorem register_of_refused {reason : HandshakeError}
    (refused : r.table.insert ⟨peer, wish.name⟩ = .error reason) (c : RegistryConnection) :
    r.register peer c wish = r.reject peer ⟨wish.commandId, reason⟩ := by
  rw [register, refused]

variable (inserted : r.table.insert ⟨peer, wish.name⟩ = .ok table)
include inserted

/-- A hello that cannot be acknowledged ends the connection, and the name is free again. -/
theorem register_of_unwritten (failed : ¬r.CanWrite peer (.ack wish.commandId))
    (c : RegistryConnection) : r.register peer c wish = (r.without peer, [.closed peer]) := by
  obtain ⟨reason, failed⟩ := exists_line?_eq_error failed
  rw [register, inserted]
  dsimp only
  rw [failed]
  show (Registry.mk r.port (r.connections.erase peer) (table.remove ⟨peer, wish.name⟩).1, _) = _
  rw [SessionTable.remove_of_insert inserted]
  rfl

theorem register_of_written (written : r.CanWrite peer (.ack wish.commandId))
    (c : RegistryConnection) :
    r.register peer c wish =
      ({ r with
          connections := r.connections.insert peer { c with standing := .registered wish.name }
          table },
        [.line peer (Message.ack wish.commandId).encode, .event (.registered wish.name)]) := by
  rw [register, inserted]
  dsimp only
  rw [line?_of_canWrite written]

end Register

/-! ### All connections -/

/-- Where the table is empty, the end of a connection is not reported. -/
theorem drop_of_empty (empty : r.table.ids = ∅) (found : r.connections.find? peer = some c) :
    r.drop peer = (r.without peer, [.closed peer]) := by
  cases standing : c.standing with
  | greeting => exact drop_greeting found standing
  | registered name =>
    have gone : (r.without peer).table.find? name ≠ some peer := by
      show r.table.ids.find? name ≠ some peer
      rw [empty]
      exact nofun
    rw [drop_of_find? found, forget_of_isRegistered ⟨c, found, standing⟩, release_of_gone gone]

theorem run_drop_of_empty {peers : List String} (empty : r.table.ids = ∅) (nodup : peers.Nodup)
    (connected : ∀ peer ∈ peers, (r.connections.find? peer).isSome) :
    Transducer.run drop r peers = (peers.foldl without r, peers.map .closed) := by
  induction peers generalizing r with
  | nil => rfl
  | cons peer peers ih =>
    obtain ⟨here, others⟩ := List.forall_mem_cons.1 connected
    obtain ⟨fresh, nodup⟩ := List.nodup_cons.1 nodup
    obtain ⟨c, found⟩ := Option.isSome_iff_exists.1 here
    have left : ∀ other ∈ peers, ((r.without peer).connections.find? other).isSome := by
      intro other mem
      have ne : peer ≠ other := by
        rintro rfl
        exact fresh mem
      show ((r.connections.erase peer).find? other).isSome
      rw [Catalog.find?_erase_of_ne _ ne]
      exact others other mem
    have rest := ih (r := r.without peer) empty nodup left
    rw [Transducer.run_cons, drop_of_empty empty found, rest]
    rfl

theorem foldl_without (r : Registry) (peers : List String) :
    peers.foldl without r = { r with connections := peers.foldl Catalog.erase r.connections } := by
  induction peers generalizing r with
  | nil => rfl
  | cons peer peers ih =>
    rw [List.foldl_cons, ih, List.foldl_cons]
    rfl

/-- Nothing is left of a catalog when all its keys have been taken out. -/
theorem foldl_erase_keys {α : Type} (c : Catalog α) : c.keys.foldl Catalog.erase c = ∅ := by
  have find? (keys : List String) (c : Catalog α) (key : String) :
      (keys.foldl Catalog.erase c).find? key = if key ∈ keys then none else c.find? key := by
    induction keys generalizing c with
    | nil => simp
    | cons first keys ih =>
      rw [List.foldl_cons, ih, Catalog.find?_erase]
      by_cases later : key ∈ keys
      · simp [later]
      · by_cases same : first = key
        · simp [same]
        · simp [later, same, Ne.symm same]
  refine Catalog.ext_find? fun key ↦ ?_
  rw [find?, Catalog.find?_empty]
  split
  · rfl
  · next absent => simpa [Catalog.mem_keys_iff] using absent

/-- A stop leaves nothing but a closed table. All connections are closed, and then the sessions that
were on the table are reported. -/
theorem stop_of_running (running : r.isRunning = true) :
    r.stop = ({ table := { isClosed := true } },
      r.connections.keys.map .closed ++
        r.table.sessions.map fun s ↦ .event (.disconnected s.name)) := by
  have ended := run_drop_of_empty (r := { r with port := none, table := r.table.closeAndDrain.1 })
    rfl r.connections.nodup_keys fun _ ↦ r.connections.mem_keys_iff.1
  rw [foldl_without, foldl_erase_keys] at ended
  rw [stop, if_pos running]
  show ((Transducer.run drop { r with port := none, table := r.table.closeAndDrain.1 } _).1,
    (Transducer.run drop { r with port := none, table := r.table.closeAndDrain.1 } _).2 ++ _) = _
  rw [ended]
  rfl

theorem stop_of_idle (stopped : r.port = none) : r.stop = (r, []) := by
  rw [stop, isRunning, stopped]
  rfl

end Registry

end ShowControl
