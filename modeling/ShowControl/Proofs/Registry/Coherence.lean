import ShowControl.Proofs.Registry.Writing

/-!
# Names and connections

A registry is coherent if a name has a session exactly while the connection of its peer is
registered under that name, and if there are no connections while it does not listen (`Coherent`).
Of a coherent registry it is said here which connections and sessions may be put in and taken out
together.
-/

namespace ShowControl

open RegistryOutput

namespace Registry

variable {r : Registry} {peer name : String} {c : RegistryConnection}

/-- The connection of a peer is open and registered under a name. -/
def IsRegistered (r : Registry) (peer name : String) : Prop :=
  ∃ c, r.connections.find? peer = some c ∧ c.standing = .registered name

theorem isRegistered_iff (h : r.connections.find? peer = some c) :
    r.IsRegistered peer name ↔ c.standing = .registered name := by
  simp [IsRegistered, h]

theorem not_isRegistered (h : r.connections.find? peer = some c) (waiting : c.standing = .greeting)
    (name : String) : ¬r.IsRegistered peer name := by
  rw [isRegistered_iff h, waiting]
  exact Standing.noConfusion

theorem left_of_erase {other : String} (h : (r.connections.erase peer).find? other = some c) :
    peer ≠ other ∧ r.connections.find? other = some c := by
  rw [Catalog.find?_erase] at h
  split at h
  · cases h
  · next ne => exact ⟨ne, h⟩

theorem left_of_insert {other : String} {c' : RegistryConnection} (ne : other ≠ peer)
    (h : (r.connections.insert peer c).find? other = some c') :
    r.connections.find? other = some c' := by
  rwa [Catalog.find?_insert_of_ne _ _ (Ne.symm ne)] at h

theorem isRegistered_erase {port : Option Nat} {table : SessionTable String} {other : String} :
    IsRegistered ⟨port, r.connections.erase peer, table⟩ other name ↔
      peer ≠ other ∧ r.IsRegistered other name := by
  simp only [IsRegistered, Catalog.find?_erase]
  split <;> simp [*]

theorem isRegistered_insert {port : Option Nat} {table : SessionTable String} {other : String} :
    IsRegistered ⟨port, r.connections.insert peer c, table⟩ other name ↔
      if peer = other then c.standing = .registered name else r.IsRegistered other name := by
  simp only [IsRegistered, Catalog.find?_insert]
  split <;> simp

/-- The sessions are those of the registered connections, and a registry that does not listen has no
connections. -/
structure Coherent (r : Registry) : Prop where
  idle : r.port = none → ∀ peer, r.connections.find? peer = none
  owned : ∀ name peer, r.table.find? name = some peer ↔ r.IsRegistered peer name

theorem coherent_empty : ({} : Registry).Coherent where
  idle _ _ := rfl
  owned name peer := by
    constructor
    · intro found
      cases found
    · rintro ⟨c, found, -⟩
      cases found

namespace Coherent

variable (h : r.Coherent)
include h

/-- While a connection is open the registry listens. -/
theorem port_ne_none (found : r.connections.find? peer = some c) : r.port ≠ none := by
  intro stopped
  rw [h.idle stopped peer] at found
  cases found

/-- A connection may be put in place of one with the same standing without a look at the table. -/
theorem insert (running : r.port ≠ none)
    (same : ∀ name, c.standing = .registered name ↔ r.IsRegistered peer name) :
    Coherent { r with connections := r.connections.insert peer c } where
  idle stopped := absurd stopped running
  owned name other := by
    show r.table.find? name = some other ↔ _
    rw [h.owned, isRegistered_insert]
    split
    · next mine => rw [same, mine]
    · rfl

/-- A connection that is not registered may be dropped without a look at the table. -/
theorem erase (free : ∀ name, ¬r.IsRegistered peer name) :
    Coherent { r with connections := r.connections.erase peer } where
  idle stopped other := by
    show (r.connections.erase peer).find? other = none
    rw [Catalog.find?_erase, h.idle stopped other, ite_self]
  owned name other := by
    show r.table.find? name = some other ↔ _
    rw [h.owned, isRegistered_erase]
    constructor
    · intro registered
      refine ⟨?_, registered⟩
      rintro rfl
      exact free name registered
    · exact And.right

/-- A registered connection is dropped together with its session. -/
theorem erase_remove (registered : r.IsRegistered peer name) :
    Coherent { r with
      connections := r.connections.erase peer
      table := (r.table.remove ⟨peer, name⟩).1 } where
  idle stopped other := by
    show (r.connections.erase peer).find? other = none
    rw [Catalog.find?_erase, h.idle stopped other, ite_self]
  owned name' other := by
    show (r.table.remove ⟨peer, name⟩).1.find? name' = some other ↔ _
    rw [SessionTable.find?_remove, isRegistered_erase, ← h.owned]
    have owner := (h.owned name peer).2 registered
    split
    · next taken =>
      -- the session under this name is the one that goes
      simp only [taken.2, Option.some_inj, reduceCtorEq, false_iff, not_and]
      exact id
    · next stays =>
      -- any other session belongs to another peer, as a connection has one standing
      refine ⟨fun found ↦ ⟨?_, found⟩, And.right⟩
      rintro rfl
      obtain ⟨c, found', standing⟩ := registered
      have same := (isRegistered_iff found').1 ((h.owned name' peer).1 found)
      rw [standing, Standing.registered.injEq] at same
      exact stays ⟨same, found⟩

/-- A connection that has not been registered gets a session under a free name. -/
theorem insert_insert (found : r.connections.find? peer = some c) (waiting : c.standing = .greeting)
    {table : SessionTable String} (inserted : r.table.insert ⟨peer, name⟩ = .ok table)
    {c' : RegistryConnection} (standing : c'.standing = .registered name) :
    Coherent { r with connections := r.connections.insert peer c', table } where
  idle stopped := absurd stopped (h.port_ne_none found)
  owned name' other := by
    show table.find? name' = some other ↔ _
    have free : r.table.find? name = none := (SessionTable.insert_eq_ok_iff.1 inserted).2.1
    have fresh := not_isRegistered found waiting
    rw [SessionTable.find?_insert inserted, isRegistered_insert, standing,
      Standing.registered.injEq]
    -- the name had no owner, and the peer had no name
    by_cases same : name = name'
    · subst same
      have vacant : ¬r.IsRegistered other name := by
        rw [← h.owned, free]
        simp
      by_cases mine : peer = other <;> simp [mine, vacant]
    · by_cases mine : peer = other
      · subst mine
        simp [same, h.owned, fresh]
      · simp [same, mine, h.owned]

end Coherent

end Registry

end ShowControl
