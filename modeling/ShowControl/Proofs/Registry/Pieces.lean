import ShowControl.Proofs.Registry.History

/-!
# Bytes in pieces

Bytes of a peer may arrive in one piece or in two, and nobody can tell: the registry comes to the
same state, and writes, closes and reports the same (`run_cut`). The cut may be anywhere, inside a
line, at the line feed that ends the first line, or behind bytes that end the connection.

Bytes do two things to a registry, and neither sees the other. Their lines are taken, one after the
other, and that does not depend on what is in the inbox (`takeLine_refill`); and the inbox is left
with what is pending (`receive_eq`). The lines of two pieces are those of the whole by
`Splitter.fitting_append`. If a segment over the limit ends the connection, there is no inbox left
that could show where the cut was.
-/

namespace ShowControl

open Splitter RegistryOutput

namespace Registry

variable {r : Registry} {peer : String} {c : RegistryConnection} {bytes : List UInt8}

/-! ### Inboxes -/

/-- The registry where the connection of a peer, if it is open, has this inbox. -/
def refill (r : Registry) (peer : String) (i : Inbox) : Registry :=
  match r.connections.find? peer with
  | none => r
  | some c => { r with connections := r.connections.insert peer { c with inbox := i } }

theorem refill_of_closed (closed : r.connections.find? peer = none) (i : Inbox) :
    r.refill peer i = r := by
  rw [refill, closed]

theorem refill_of_open (found : r.connections.find? peer = some c) (i : Inbox) :
    r.refill peer i =
      { r with connections := r.connections.insert peer { c with inbox := i } } := by
  rw [refill, found]

theorem find?_refill (r : Registry) (peer : String) (i : Inbox) :
    (r.refill peer i).connections.find? peer =
      (r.connections.find? peer).map fun c ↦ { c with inbox := i } := by
  cases found : r.connections.find? peer with
  | none => rw [refill_of_closed found, found, Option.map_none]
  | some c =>
    rw [refill_of_open found, Option.map_some]
    exact Catalog.find?_insert_self ..

theorem find?_refill_of_ne {other : String} (ne : peer ≠ other) (r : Registry) (i : Inbox) :
    (r.refill peer i).connections.find? other = r.connections.find? other := by
  cases found : r.connections.find? peer with
  | none => rw [refill_of_closed found]
  | some c =>
    rw [refill_of_open found]
    exact Catalog.find?_insert_of_ne _ _ ne

theorem Coherent.refill (h : r.Coherent) (peer : String) (i : Inbox) :
    (r.refill peer i).Coherent := by
  cases found : r.connections.find? peer with
  | none => rwa [refill_of_closed found]
  | some c =>
    rw [refill_of_open found]
    exact h.insert (h.port_ne_none found) fun name ↦ (isRegistered_iff found).symm

/-- An inbox that is replaced does not matter. -/
theorem refill_refill (r : Registry) (peer : String) (i j : Inbox) :
    (r.refill peer i).refill peer j = r.refill peer j := by
  cases found : r.connections.find? peer with
  | none => rw [refill_of_closed found]
  | some c =>
    have left : (r.refill peer i).connections.find? peer = some { c with inbox := i } := by
      rw [find?_refill, found, Option.map_some]
    rw [refill_of_open left, refill_of_open found, refill_of_open found,
      Catalog.insert_insert_self]

/-- With a connection its inbox goes. -/
theorem without_refill (r : Registry) (peer : String) (i : Inbox) :
    (r.refill peer i).without peer = r.without peer := by
  cases found : r.connections.find? peer with
  | none => rw [refill_of_closed found]
  | some c =>
    rw [refill_of_open found, without, Catalog.erase_insert_self]
    rfl

theorem forget_refill (r : Registry) (peer : String) (i : Inbox) :
    (r.refill peer i).forget peer = r.forget peer := by
  cases found : r.connections.find? peer with
  | none => rw [refill_of_closed found]
  | some c =>
    have left := find?_refill r peer i
    rw [found, Option.map_some] at left
    cases standing : c.standing with
    | greeting => rw [forget_greeting left standing, forget_greeting found standing, without_refill]
    | registered name =>
      rw [forget_of_isRegistered ⟨_, left, standing⟩, forget_of_isRegistered ⟨c, found, standing⟩,
        without_refill]

theorem drop_refill (r : Registry) (peer : String) (i : Inbox) :
    (r.refill peer i).drop peer = r.drop peer := by
  rw [drop, drop, forget_refill, Catalog.contains, find?_refill, Option.isSome_map]
  cases found : r.connections.find? peer with
  | none => rw [refill_of_closed found, Catalog.contains, found]
  | some c =>
    rw [Catalog.contains, found]
    rfl

theorem canWrite_refill (r : Registry) (peer : String) (i : Inbox) (m : Message) :
    (r.refill peer i).CanWrite peer m ↔ r.CanWrite peer m := by
  refine canWrite_congr ?_ m
  rw [fault?, find?_refill, fault?]
  cases r.connections.find? peer <;> rfl

theorem reject_refill (r : Registry) (peer : String) (i : Inbox) (rejection : Rejection) :
    (r.refill peer i).reject peer rejection =
      ((r.reject peer rejection).1.refill peer i, (r.reject peer rejection).2) := by
  have closed : (r.without peer).connections.find? peer = none := Catalog.find?_erase_self ..
  rw [reject_eq, reject_eq, without_refill, refill_of_closed closed]
  simp only [canWrite_refill]

theorem register_refill (found : r.connections.find? peer = some c) (i : Inbox)
    (wish : Introduction) :
    (r.refill peer i).register peer { c with inbox := i } wish =
      ((r.register peer c wish).1.refill peer i, (r.register peer c wish).2) := by
  have same_table : (r.refill peer i).table = r.table := by rw [refill_of_open found]
  cases inserted : r.table.insert ⟨peer, wish.name⟩ with
  | error reason =>
    rw [register_of_refused inserted, register_of_refused (same_table ▸ inserted)]
    exact reject_refill r peer i _
  | ok table =>
    have inserted' : (r.refill peer i).table.insert ⟨peer, wish.name⟩ = .ok table :=
      same_table ▸ inserted
    by_cases written : r.CanWrite peer (.ack wish.commandId)
    · let welcomed : RegistryConnection := { c with standing := .registered wish.name }
      let registry : Registry := { r with connections := r.connections.insert peer welcomed, table }
      have opened : registry.connections.find? peer = some welcomed := Catalog.find?_insert_self ..
      rw [register_of_written inserted written,
        register_of_written inserted' ((canWrite_refill ..).2 written), refill_of_open found]
      dsimp only
      rw [Catalog.insert_insert_self, ← Catalog.insert_insert_self r.connections peer welcomed]
      exact congrArg (Prod.mk · _) (refill_of_open opened i).symm
    · have closed : (r.without peer).connections.find? peer = none := Catalog.find?_erase_self ..
      rw [register_of_unwritten inserted written,
        register_of_unwritten inserted' fun back ↦ written ((canWrite_refill ..).1 back),
        without_refill, refill_of_closed closed]

/-- What lines do to a registry does not depend on what is left in the inbox. -/
theorem takeLine_refill (peer : String) (i : Inbox) (r : Registry) (line : ByteArray) :
    takeLine peer (r.refill peer i) line =
      ((takeLine peer r line).1.refill peer i, (takeLine peer r line).2) := by
  cases found : r.connections.find? peer with
  | none =>
    have ignored : takeLine peer r line = (r, []) := by rw [takeLine, found]
    rw [refill_of_closed found, ignored, refill_of_closed found]
  | some c =>
    have left : (r.refill peer i).connections.find? peer = some { c with inbox := i } := by
      rw [find?_refill, found, Option.map_some]
    rw [takeLine, takeLine, left, found]
    dsimp only
    split
    · rfl
    · split
      · exact register_refill found i _
      · exact reject_refill r peer i _

theorem run_takeLine_refill (peer : String) (i : Inbox) (r : Registry) (lines : List ByteArray) :
    Transducer.run (takeLine peer) (r.refill peer i) lines =
      ((Transducer.run (takeLine peer) r lines).1.refill peer i,
        (Transducer.run (takeLine peer) r lines).2) :=
  Transducer.run_commutes (takeLine_refill peer i) r lines

/-! ### Pieces -/

/-- The lines with content that can be taken of some bytes. -/
def texts (bytes : List UInt8) : List ByteArray := (contents (fitting bytes)).map List.toByteArray

theorem texts_append (bytes more : List UInt8) :
    texts (bytes ++ more) = texts bytes ++ texts (pending bytes ++ more) := by
  rw [texts, contents_fitting_append, List.map_append]
  rfl

/-- Behind a segment over the limit no line is taken. -/
theorem texts_of_overrun (overrun : oversized bytes = true) (more : List UInt8) :
    texts (pending bytes ++ more) = [] := by
  rw [texts, (stuck (stuck_append (fits_front_pending overrun) more)).1]
  rfl

/-- Once its lines are taken, what is pending of some bytes stays in the inbox, unless it begins
with a segment over the limit, which ends the connection. -/
def stow (r : Registry) (peer : String) (bytes : List UInt8) : Registry × List RegistryOutput :=
  if oversized bytes then r.drop peer else (r.refill peer (.resting (pending bytes)), [])

theorem stow_of_overrun (overrun : oversized bytes = true) (r : Registry) (peer : String) :
    r.stow peer bytes = r.drop peer := by
  rw [stow, if_pos overrun]

theorem stow_of_within (within : oversized bytes = false) (r : Registry) (peer : String) :
    r.stow peer bytes = (r.refill peer (.resting (pending bytes)), []) := by
  rw [stow, if_neg (by simp [within])]

theorem stow_append (r : Registry) (peer : String) (bytes more : List UInt8) :
    r.stow peer (bytes ++ more) = r.stow peer (pending bytes ++ more) := by
  rw [stow, stow, oversized_append, pending_append]

theorem stow_of_closed (closed : r.connections.find? peer = none) (bytes : List UInt8) :
    r.stow peer bytes = (r, []) := by
  rw [stow, drop_closed closed, refill_of_closed closed, ite_self]

theorem stow_refill (r : Registry) (peer : String) (i : Inbox) (bytes : List UInt8) :
    (r.refill peer i).stow peer bytes = r.stow peer bytes := by
  rw [stow, stow, drop_refill, refill_refill]

section Open

variable (found : r.connections.find? peer = some c) (holds : c.inbox.Holds bytes)
include found holds

/-- What bytes from a peer come to, by the bytes that were pending before. -/
theorem receive_eq (chunk : ByteArray) {r' : Registry} {outputs : List RegistryOutput}
    (taken :
      Transducer.run (takeLine peer) r (texts (bytes ++ chunk.data.toList)) = (r', outputs)) :
    r.receive peer chunk =
      ((r'.stow peer (bytes ++ chunk.data.toList)).1,
        outputs ++ (r'.stow peer (bytes ++ chunk.data.toList)).2) := by
  have arrived := holds.append chunk
  rw [receive, found, stow]
  dsimp only
  cases overrun : oversized (bytes ++ chunk.data.toList) with
  | true =>
    obtain ⟨i, drained, -⟩ := arrived.drain
    rw [drained, report, if_pos overrun, ← refill_of_open found, ← texts]
    dsimp only
    rw [run_takeLine_refill, taken, drop_refill, if_pos rfl]
  | false =>
    rw [arrived.drain_eq overrun, ← refill_of_open found, ← texts]
    dsimp only
    rw [run_takeLine_refill, taken, if_neg Bool.false_ne_true, List.append_nil]

/-- The second piece meets the connection as the lines of the first have left it, if they have. -/
theorem receive_append_of_open (first second : ByteArray) :
    r.receive peer (first ++ second) =
      (((r.receive peer first).1.receive peer second).1,
        (r.receive peer first).2 ++ ((r.receive peer first).1.receive peer second).2) := by
  have joined : bytes ++ (first ++ second).data.toList =
      bytes ++ first.data.toList ++ second.data.toList := by
    rw [ByteArray.toList_data_append, List.append_assoc]
  obtain ⟨⟨r', outputs⟩, taken⟩ :
      ∃ s, Transducer.run (takeLine peer) r (texts (bytes ++ first.data.toList)) = s := ⟨_, rfl⟩
  rw [receive_eq found holds first taken]
  generalize bytes ++ first.data.toList = sofar at joined taken ⊢
  have both := Transducer.run_append (takeLine peer) r (texts sofar)
    (texts (pending sofar ++ second.data.toList))
  rw [← texts_append, ← joined, taken] at both
  rw [receive_eq found holds _ both, joined, stow_append]
  cases still : r'.connections.find? peer with
  | none =>
    -- the lines of the first piece have ended the connection
    rw [stow_of_closed still, receive_of_closed still, run_takeLine_closed still,
      stow_of_closed still, List.append_nil]
  | some c' =>
    cases overrun : oversized sofar with
    | true =>
      -- a segment over the limit ends the connection, and nothing behind it is taken
      rw [stow_of_overrun overrun, receive_of_closed (drop_closes ..), texts_of_overrun overrun,
        Transducer.run_nil, List.append_nil, List.append_nil, ← stow_append,
        stow_of_overrun (oversized_append_of_oversized overrun _)]
    | false =>
      have kept : (r'.refill peer (.resting (pending sofar))).connections.find? peer =
          some { c' with inbox := .resting (pending sofar) } := by
        rw [find?_refill, still, Option.map_some]
      rw [stow_of_within overrun, receive_eq kept (Inbox.holds_resting overrun) second
        (run_takeLine_refill ..), stow_refill, List.append_nil, List.append_assoc]

end Open

/-- Where a connection is open, its inbox holds some bytes. -/
def Stocked (r : Registry) (peer : String) : Prop :=
  ∀ c, r.connections.find? peer = some c → ∃ bytes, c.inbox.Holds bytes

theorem Sound.stocked {talks : String → Conversation} (h : r.Sound talks) (peer : String) :
    r.Stocked peer :=
  fun c found ↦ ⟨_, (h.reflects peer c found).inbox⟩

/-- Two pieces come to what they come to as one. -/
theorem Stocked.receive_append (h : r.Stocked peer) (first second : ByteArray) :
    r.receive peer (first ++ second) =
      (((r.receive peer first).1.receive peer second).1,
        (r.receive peer first).2 ++ ((r.receive peer first).1.receive peer second).2) := by
  cases found : r.connections.find? peer with
  | none =>
    rw [receive_of_closed found, receive_of_closed found, receive_of_closed found]
    rfl
  | some c =>
    obtain ⟨bytes, holds⟩ := h c found
    exact receive_append_of_open found holds first second

/-! ### Runs -/

/-- Two runs cannot be told apart. -/
structure Alike (steps steps' : List RegistryStep) : Prop where
  /-- They leave the same names and the same connections, with the same bytes pending on each. -/
  state : (run {} steps').1 = (run {} steps).1
  lines : ∀ peer, linesTo peer (outputs {} steps') = linesTo peer (outputs {} steps)
  told : told {} steps' = told {} steps
  /-- What is written, closed and reported comes in the same order. -/
  outputs : outputs {} steps' = outputs {} steps

/-- Nobody can tell where the bytes of a peer have been cut. -/
theorem run_cut (before after : List RegistryStep) (peer : String) (first second : ByteArray) :
    Alike (before ++ .receive peer (first ++ second) :: after)
      (before ++ .receive peer first :: .receive peer second :: after) := by
  have pieces := ((sound_empty.run before).stocked peer).receive_append first second
  have state : ((run {} before).1.step (.receive peer (first ++ second))).1 =
      ((((run {} before).1.step (.receive peer first)).1).step (.receive peer second)).1 := by
    show ((run {} before).1.receive peer (first ++ second)).1 = _
    rw [pieces]
    rfl
  have written : ((run {} before).1.step (.receive peer (first ++ second))).2.outputs =
      ((run {} before).1.step (.receive peer first)).2.outputs ++
        (((run {} before).1.step (.receive peer first)).1.step
          (.receive peer second)).2.outputs := by
    show ((run {} before).1.receive peer (first ++ second)).2 = _
    rw [pieces]
    rfl
  have all : outputs {} (before ++ .receive peer first :: .receive peer second :: after) =
      outputs {} (before ++ .receive peer (first ++ second) :: after) := by
    rw [outputs_append, outputs_append, outputs_cons, outputs_cons, outputs_cons, state, written,
      List.append_assoc]
  refine ⟨?_, fun other ↦ by rw [all], by rw [told, told, all], all⟩
  rw [run_append, run_append, run_cons, run_cons, run_cons, state]

end Registry

end ShowControl
