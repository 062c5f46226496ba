import ShowControl.Registry.Run

/-!
# What can be written

A line can be written to a peer if its message fits a frame and nothing keeps the registry from
writing to this peer (`CanWrite`). That depends on the connection of the peer alone, so that
whatever leaves the connection leaves what can be written on it (`canWrite_congr`).

A broadcast goes to the sessions of the table in some order. Those that can be written to are
`reached`, the others are dismissed when this has been done (`broadcastIn_eq`).
-/

namespace ShowControl

open RegistryOutput

namespace Registry

variable {r r' : Registry} {peer : String} {m : Message} {c : RegistryConnection}

theorem fault?_of_find? (found : r.connections.find? peer = some c) : r.fault? peer = c.fault := by
  rw [fault?, found, Option.bind_some]

theorem fault?_of_closed (closed : r.connections.find? peer = none) : r.fault? peer = none := by
  rw [fault?, closed, Option.bind_none]

theorem fault?_congr (same : r'.connections.find? peer = r.connections.find? peer) :
    r'.fault? peer = r.fault? peer := by
  rw [fault?, same, fault?]

/-! ### Lines -/

/-- The line of a message can be written to a peer. -/
def CanWrite (r : Registry) (peer : String) (m : Message) : Prop := m.Fits ∧ r.fault? peer = none

instance : Decidable (r.CanWrite peer m) :=
  inferInstanceAs (Decidable (m.encode.utf8ByteSize ≤ maxFrameSize ∧ r.fault? peer = none))

theorem canWrite_congr (same : r'.fault? peer = r.fault? peer) (m : Message) :
    r'.CanWrite peer m ↔ r.CanWrite peer m := by
  rw [CanWrite, same, CanWrite]

theorem line?_of_canWrite (h : r.CanWrite peer m) : r.line? peer m = .ok m.encode := by
  rw [line?, Message.line?_of_fits h.1, h.2]

theorem exists_line?_eq_error (h : ¬r.CanWrite peer m) :
    ∃ reason, r.line? peer m = .error reason := by
  rw [line?]
  split
  · exact ⟨_, rfl⟩
  · exact ⟨_, rfl⟩
  · next line sent sound => exact absurd ⟨(Message.line?_eq_ok_iff.1 sent).1, sound⟩ h

/-- A message that is too large is refused for this, whatever else could be the reason. -/
theorem line?_of_large {reason : FrameTooLarge} (unsent : m.line? = .error reason) :
    r.line? peer m = .error (.sendFailed (.tooLarge reason)) := by
  rw [line?, unsent]

theorem line?_congr (same : r'.fault? peer = r.fault? peer) (m : Message) :
    r'.line? peer m = r.line? peer m := by
  rw [line?, same, line?]

theorem toOption_line? (r : Registry) (peer : String) (m : Message) :
    (r.line? peer m).toOption = if r.CanWrite peer m then some m.encode else none := by
  split
  · next h => rw [line?_of_canWrite h, Except.toOption]
  · next h =>
    obtain ⟨reason, unsent⟩ := exists_line?_eq_error h
    rw [unsent, Except.toOption]

/-! ### Broadcasts -/

/-- Those of some sessions whose peers can be written to. -/
def reached (r : Registry) (m : Message) (sessions : List (Session String)) :
    List (Session String) :=
  sessions.filter fun s ↦ r.CanWrite s.id m

/-- Those of some sessions whose peers cannot be written to. -/
def unreached (r : Registry) (m : Message) (sessions : List (Session String)) :
    List (Session String) :=
  sessions.filter fun s ↦ ¬r.CanWrite s.id m

/-- Where sessions are selected by their peers, so are the peers. -/
theorem mem_map_filter_id (p : String → Prop) [DecidablePred p] (sessions : List (Session String)) :
    peer ∈ (sessions.filter fun s ↦ p s.id).map Session.id ↔
      peer ∈ sessions.map Session.id ∧ p peer := by
  simp only [List.mem_map, List.mem_filter, decide_eq_true_eq]
  constructor
  · rintro ⟨s, ⟨listed, selected⟩, rfl⟩
    exact ⟨⟨s, listed, rfl⟩, selected⟩
  · rintro ⟨⟨s, listed, rfl⟩, selected⟩
    exact ⟨s, ⟨listed, selected⟩, rfl⟩

/-- The peers that are reached are those that can be written to. -/
theorem mem_map_reached {sessions : List (Session String)} :
    peer ∈ (r.reached m sessions).map Session.id ↔
      peer ∈ sessions.map Session.id ∧ r.CanWrite peer m :=
  mem_map_filter_id (r.CanWrite · m) sessions

/-- Sends a message to the sessions that are given. -/
def broadcastIn (r : Registry) (m : Message) (sessions : List (Session String)) :
    Registry × List RegistryOutput × Nat :=
  let lines := sessions.filterMap fun s ↦ (r.line? s.id m).toOption.map (.line s.id)
  let unreached := sessions.filter fun s ↦ (r.line? s.id m).toOption.isNone
  let (r, outputs) := Transducer.run dismiss r unreached
  (r, lines ++ outputs, lines.length)

/-- A broadcast goes to the sessions in the order of their names. -/
theorem broadcast_eq_broadcastIn (r : Registry) (m : Message) :
    r.broadcast m = r.broadcastIn m r.table.sessions := rfl

theorem filterMap_line? (r : Registry) (m : Message) (sessions : List (Session String)) :
    (sessions.filterMap fun s ↦ (r.line? s.id m).toOption.map (RegistryOutput.line s.id)) =
      ((r.reached m sessions).map Session.id).map fun peer ↦ .line peer m.encode := by
  induction sessions with
  | nil => rfl
  | cons s sessions ih =>
    rw [List.filterMap_cons, ih, toOption_line?, reached, reached, List.filter_cons]
    by_cases h : r.CanWrite s.id m <;> simp [h]

/-- What a broadcast does, by whom it reaches. -/
theorem broadcastIn_eq (r : Registry) (m : Message) (sessions : List (Session String)) :
    r.broadcastIn m sessions =
      ((Transducer.run dismiss r (r.unreached m sessions)).1,
        (((r.reached m sessions).map Session.id).map fun peer ↦ .line peer m.encode) ++
          (Transducer.run dismiss r (r.unreached m sessions)).2,
        (r.reached m sessions).length) := by
  have failed : (sessions.filter fun s ↦ (r.line? s.id m).toOption.isNone) =
      r.unreached m sessions := by
    refine List.filter_congr fun s _ ↦ ?_
    rw [toOption_line?]
    by_cases h : r.CanWrite s.id m <;> simp [h]
  rw [broadcastIn, failed, filterMap_line?, List.length_map, List.length_map]

/-- A message that is too large reaches nobody. -/
theorem broadcastIn_of_large (large : ¬m.Fits) (r : Registry) (sessions : List (Session String)) :
    r.broadcastIn m sessions =
      ((Transducer.run dismiss r sessions).1, (Transducer.run dismiss r sessions).2, 0) := by
  have unwritten (peer : String) : ¬r.CanWrite peer m := fun written ↦ large written.1
  have unreached : r.unreached m sessions = sessions :=
    List.filter_eq_self.2 fun s _ ↦ decide_eq_true (unwritten s.id)
  have reached : r.reached m sessions = [] :=
    List.filter_eq_nil_iff.2 fun s _ ↦ by simpa using unwritten s.id
  rw [broadcastIn_eq, unreached, reached]
  rfl

end Registry

end ShowControl
