import ShowControl.Proofs.Message.Stream
import ShowControl.Proofs.Registry.Dispatch

/-!
# The first line of a connection

Bytes from a peer are kept until they hold a line with content; until then the registry has nothing
to say (`Awaits.receive_of_blank`). A first line is judged by itself and by the names that are taken
(`Verdict.ofLine`), and what the registry does follows from the verdict: it tells the peer and
closes, or it acknowledges the hello and registers the name (`Awaits.receive_of_first`). If this
cannot be written it closes, and the name stays free (`Awaits.receive_of_unwritten`). Lines that
arrive behind the first in the same bytes meet a connection that is closed or registered, so none of
them changes what the first has settled.
-/

namespace ShowControl

open Splitter RegistryOutput

/-- A message is no wish if it is a hello without a name, or no hello. -/
theorem Introduction.cases_of_ofMessage_eq_error {m : Message} {rejection : Rejection}
    (h : Introduction.ofMessage m = .error rejection) :
    (∃ hello, m.payload = .hello hello ∧ hello.name = "" ∧
      rejection = ⟨m.commandId, .missingName⟩) ∨
    (∀ hello, m.payload ≠ .hello hello) ∧ rejection = ⟨m.commandId, .notHello⟩ := by
  rw [ofMessage] at h
  split at h
  · next hello payload =>
    split at h
    · next nameless =>
      exact .inl ⟨hello, payload, String.isEmpty_iff.1 nameless, (Except.error.inj h).symm⟩
    · cases h
  · next other => exact .inr ⟨other, (Except.error.inj h).symm⟩

/-! ### Verdicts -/

/-- What the first line of a connection comes to. -/
inductive Verdict where
  /-- The peer is told why it is refused; the refusal repeats the command id. -/
  | refused (commandId text : String)
  /-- The hello with this command id is acknowledged, and the peer has the name. -/
  | welcomed (commandId name : String)
  deriving DecidableEq

namespace Verdict

/-- The message that answers the first line. -/
def reply : Verdict → Message
  | refused commandId text => .error commandId text
  | welcomed commandId _ => .ack commandId

/-- What is reported of a verdict that the peer cannot be told. -/
def untold : Verdict → List RegistryEvent
  | refused _ text => [.rejected text]
  | welcomed _ _ => []

/-- The verdict on a first line where some names are taken. -/
def ofLine (names : List String) (line : List UInt8) : Verdict :=
  match Message.decodeBytes line.toByteArray with
  | .error e => refused "handshake" e.message
  | .ok m =>
    match m.payload with
    | .hello hello =>
      if hello.name = "" then refused m.commandId "Renderer name must be provided"
      else if hello.name ∈ names then refused m.commandId "Renderer name already in use"
      else welcomed m.commandId hello.name
    | _ => refused m.commandId "Expected hello message"

/-- A rejection as a verdict. -/
def ofRejection (rejection : Rejection) : Verdict :=
  refused rejection.commandId rejection.reason.message

theorem ofLine_of_error {line : List UInt8} {rejection : Rejection} (names : List String)
    (h : Introduction.ofLine line.toByteArray = .error rejection) :
    ofLine names line = ofRejection rejection := by
  rw [Introduction.ofLine] at h
  rw [ofLine]
  rcases decoded : Message.decodeBytes line.toByteArray with e | m
  · rw [decoded] at h
    rw [← Except.error.inj h]
    rfl
  · rw [decoded] at h
    dsimp only at h ⊢
    rcases Introduction.cases_of_ofMessage_eq_error h with
      ⟨hello, payload, nameless, rfl⟩ | ⟨other, rfl⟩
    · rw [payload]
      exact if_pos nameless
    · split
      · next hello payload => exact absurd payload (other hello)
      · rfl

theorem ofLine_of_ok {line : List UInt8} {wish : Introduction} (names : List String)
    (h : Introduction.ofLine line.toByteArray = .ok wish) :
    ofLine names line =
      if wish.name ∈ names then ofRejection ⟨wish.commandId, .nameInUse⟩
      else welcomed wish.commandId wish.name := by
  obtain ⟨m, hello, decoded, payload, named, rfl⟩ := Introduction.ofLine_eq_ok_iff.1 h
  rw [ofLine, decoded]
  dsimp only
  rw [payload]
  exact if_neg named

theorem not_mem_of_welcomed {names : List String} {line : List UInt8} {commandId name : String}
    (h : ofLine names line = welcomed commandId name) : name ∉ names := by
  rw [ofLine] at h
  split at h
  · cases h
  · split at h
    · split at h
      · cases h
      · split at h
        · cases h
        · next free =>
          cases h
          exact free
    · cases h

/-- A hello with a name that is free is welcomed. -/
theorem ofLine_hello {names : List String} {name : String} (named : name ≠ "")
    (free : name ∉ names) (commandId role : String) :
    ofLine names (textBytes (Message.hello commandId role name).encode) =
      welcomed commandId name := by
  have finite : ∀ coordinate ∈ (Message.hello commandId role name).coordinates,
      coordinate.2.isFinite = true := fun _ mem ↦ absurd mem List.not_mem_nil
  rw [ofLine, Message.decodeBytes_encode finite]
  exact (if_neg named).trans (if_neg free)

end Verdict

namespace Registry

variable {r : Registry} {peer : String} {i : Inbox}

/-! ### The first line of a connection -/

/-- The registry with the connection of a peer in the greeting, blocked if it was. -/
def greet (r : Registry) (peer : String) (i : Inbox) : Registry :=
  { r with connections := r.connections.insert peer { inbox := i, fault := r.fault? peer } }

/-- The registry with the connection of a peer registered under a name. -/
def welcome (r : Registry) (peer name : String) (i : Inbox) : Registry :=
  { r with
    connections := r.connections.insert peer { standing := .registered name, inbox := i }
    table := { r.table with ids := r.table.ids.insert name peer } }

theorem find?_greet (r : Registry) (peer : String) (i : Inbox) :
    (r.greet peer i).connections.find? peer = some { inbox := i, fault := r.fault? peer } :=
  Catalog.find?_insert_self ..

theorem canWrite_greet (r : Registry) (peer : String) (i : Inbox) (m : Message) :
    (r.greet peer i).CanWrite peer m ↔ r.CanWrite peer m :=
  canWrite_congr (fault?_of_find? (find?_greet r peer i)) m

theorem without_greet (r : Registry) (peer : String) (i : Inbox) :
    (r.greet peer i).without peer = r.without peer := by
  rw [greet, without, Catalog.erase_insert_self]
  rfl

theorem find?_welcome (r : Registry) (peer name : String) (i : Inbox) :
    (r.welcome peer name i).connections.find? peer =
      some { standing := .registered name, inbox := i } :=
  Catalog.find?_insert_self ..

theorem welcome_greet (r : Registry) (peer name : String) (i : Inbox) :
    (r.greet peer i).welcome peer name i = r.welcome peer name i := by
  rw [greet, welcome, Catalog.insert_insert_self]
  rfl

/-- A registration that ends at once leaves nothing behind. -/
theorem drop_welcome {name : String} (h : (r.welcome peer name i).Coherent)
    (free : name ∉ r.names) :
    (r.welcome peer name i).drop peer =
      (r.without peer, [.closed peer, .event (.disconnected name)]) := by
  have vacant : r.table.ids.find? name = none := by
    rw [names, SessionTable.mem_names_iff, Bool.not_eq_true, Option.isSome_eq_false_iff,
      Option.isNone_iff_eq_none] at free
    exact free
  have session : (r.welcome peer name i).table.find? name = some peer :=
    Catalog.find?_insert_self ..
  rw [h.drop_registered ⟨_, find?_welcome r peer name i, rfl⟩, SessionTable.remove, if_pos session]
  show ((⟨r.port, (r.connections.insert peer _).erase peer,
    ⟨(r.table.ids.insert name peer).erase name, _⟩⟩ : Registry), _) = _
  rw [Catalog.erase_insert_self, Catalog.erase_insert_self, Catalog.erase_of_find?_eq_none vacant]
  rfl

section FirstLine

variable {line : List UInt8} {commandId : String} (open_table : r.table.isClosed = false)
include open_table

/-- A first line is refused, or it is a hello with a name that is free. -/
theorem takeLine_greet (peer : String) (i : Inbox) (line : List UInt8) :
    (∃ rejection, Verdict.ofLine r.names line = .ofRejection rejection ∧
      takeLine peer (r.greet peer i) line.toByteArray = (r.greet peer i).reject peer rejection) ∨
    ∃ wish : Introduction, Verdict.ofLine r.names line = .welcomed wish.commandId wish.name ∧
      (r.greet peer i).table.insert ⟨peer, wish.name⟩ =
        .ok { r.table with ids := r.table.ids.insert wish.name peer } ∧
      takeLine peer (r.greet peer i) line.toByteArray =
        (r.greet peer i).register peer { inbox := i, fault := r.fault? peer } wish := by
  rw [takeLine, find?_greet]
  dsimp only
  split
  · next wish introduced =>
    have ruled := Verdict.ofLine_of_ok r.names introduced
    by_cases taken : wish.name ∈ r.names
    · rw [if_pos taken] at ruled
      refine .inl ⟨_, ruled, register_of_refused ?_ _⟩
      exact (r.greet peer i).table.insert_of_mem open_table taken
    · rw [if_neg taken] at ruled
      exact .inr ⟨wish, ruled, r.table.insert_of_not_mem open_table taken, rfl⟩
  · next rejection refused =>
    exact .inl ⟨rejection, Verdict.ofLine_of_error r.names refused, rfl⟩

section Written

variable (written : r.CanWrite peer (Verdict.ofLine r.names line).reply)
include written

/-- A peer whose first line is refused is told so, and its connection is closed. -/
theorem takeLine_of_refused {text : String}
    (verdict : Verdict.ofLine r.names line = .refused commandId text) :
    takeLine peer (r.greet peer i) line.toByteArray =
      (r.without peer, [.line peer (Message.error commandId text).encode, .closed peer,
        .event (.rejected text)]) := by
  rcases takeLine_greet open_table peer i line with ⟨rejection, refused, taken⟩ | ⟨wish, other, -⟩
  · rw [refused] at written verdict
    obtain ⟨rfl, rfl⟩ := Verdict.refused.inj verdict
    rw [taken, reject_of_canWrite ((canWrite_greet ..).2 written), without_greet]
    rfl
  · cases other.symm.trans verdict

/-- A peer whose first line is a hello with a free name is registered under it. -/
theorem takeLine_of_welcomed {name : String}
    (verdict : Verdict.ofLine r.names line = .welcomed commandId name) :
    takeLine peer (r.greet peer i) line.toByteArray =
      (r.welcome peer name i, [.line peer (Message.ack commandId).encode,
        .event (.registered name)]) := by
  rcases takeLine_greet open_table peer i line with
    ⟨rejection, other, -⟩ | ⟨wish, welcomed, inserted, taken⟩
  · cases other.symm.trans verdict
  · rw [welcomed] at written verdict
    obtain ⟨rfl, rfl⟩ := Verdict.welcomed.inj verdict
    rw [taken, register_of_written inserted ((canWrite_greet ..).2 written), written.2,
      ← welcome_greet]
    rfl

end Written

/-- A peer that cannot be told the verdict on its first line is closed. -/
theorem takeLine_of_unwritten
    (unwritten : ¬r.CanWrite peer (Verdict.ofLine r.names line).reply) :
    takeLine peer (r.greet peer i) line.toByteArray =
      (r.without peer, .closed peer :: (Verdict.ofLine r.names line).untold.map .event) := by
  rw [← canWrite_greet r peer i] at unwritten
  rcases takeLine_greet open_table peer i line with
    ⟨rejection, refused, taken⟩ | ⟨wish, welcomed, inserted, taken⟩
  · rw [refused] at unwritten ⊢
    have untold : ¬(r.greet peer i).CanWrite peer rejection.reply := unwritten
    rw [taken, reject_eq, if_neg untold, without_greet]
    rfl
  · rw [welcomed] at unwritten ⊢
    rw [taken, register_of_unwritten inserted unwritten, without_greet]
    rfl

end FirstLine

/-! ### Bytes of a connection in the greeting -/

/-- The connection of a peer is in the greeting, and no line is among the bytes that have come. -/
structure Awaits (r : Registry) (peer : String) (heard : List UInt8) : Prop where
  connected : ∃ c, r.connections.find? peer = some c ∧ c.standing = .greeting ∧
    c.inbox.Holds (pending heard)
  blank : contents (fitting heard) = []

/-- What the lines of a registered peer report. -/
def reports (name : String) (lines : List (List UInt8)) : List RegistryEvent :=
  lines.filterMap fun line ↦ RegistryEvent.ofLine? name line.toByteArray

/-- What the arrival of a first line comes to, by the verdict on it and by whether a segment over
the limit is among the bytes; the lines `more` arrive with it. -/
inductive Settles (r : Registry) (peer : String) (more : List (List UInt8)) :
    Verdict → Bool → Registry × List RegistryOutput → Prop where
  | refused (commandId text : String) (overrun : Bool) :
      Settles r peer more (.refused commandId text) overrun
        (r.without peer, [.line peer (Message.error commandId text).encode, .closed peer,
          .event (.rejected text)])
  | welcomed (commandId name : String) (i : Inbox) :
      Settles r peer more (.welcomed commandId name) false
        (r.welcome peer name i, [.line peer (Message.ack commandId).encode,
          .event (.registered name)] ++ (reports name more).map .event)
  | overrun (commandId name : String) :
      Settles r peer more (.welcomed commandId name) true
        (r.without peer, [.line peer (Message.ack commandId).encode,
          .event (.registered name)] ++ (reports name more).map .event ++
          [.closed peer, .event (.disconnected name)])

section Bytes

variable {heard : List UInt8} (h : r.Awaits peer heard) {bytes : ByteArray}
include h

theorem Awaits.coherent_greet (coherent : r.Coherent) (i : Inbox) : (r.greet peer i).Coherent := by
  obtain ⟨c, found, waiting, -⟩ := h.connected
  refine coherent.insert (coherent.port_ne_none found) fun name ↦ ?_
  rw [isRegistered_iff found, waiting]

theorem Awaits.receive_eq (bytes : ByteArray) :
    ∃ i : Inbox, i.Holds (pending (heard ++ bytes.data.toList)) ∧
      ∀ r' outputs, Transducer.run (takeLine peer) (r.greet peer i)
          ((contents (fitting (heard ++ bytes.data.toList))).map List.toByteArray) = (r', outputs) →
        r.receive peer bytes =
          if oversized (heard ++ bytes.data.toList) then
            ((r'.drop peer).1, outputs ++ (r'.drop peer).2)
          else (r', outputs) := by
  obtain ⟨⟨c, found, waiting, holds⟩, blank⟩ := h
  obtain ⟨i', drained, holds'⟩ := (holds.append bytes).drain
  rw [contents_fitting_append, blank, List.nil_append, pending_append, oversized_append]
  refine ⟨i', holds', fun r' outputs taken ↦ ?_⟩
  rw [greet, fault?_of_find? found, ← waiting] at taken
  rw [receive, found]
  dsimp only
  rw [drained]
  dsimp only
  rw [taken, report]
  by_cases overrun : oversized (pending heard ++ bytes.data.toList) = true
  · rw [if_pos overrun, if_pos overrun]
  · rw [if_neg overrun, if_neg overrun]

/-- Bytes without a line are kept. -/
theorem Awaits.receive_of_blank (blank : contents (fitting (heard ++ bytes.data.toList)) = [])
    (within : oversized (heard ++ bytes.data.toList) = false) :
    (r.receive peer bytes).2 = [] ∧
      (r.receive peer bytes).1.Awaits peer (heard ++ bytes.data.toList) := by
  obtain ⟨i, holds, received⟩ := h.receive_eq bytes
  have kept := received (r.greet peer i) [] (by rw [blank]; rfl)
  rw [within, if_neg Bool.false_ne_true] at kept
  rw [kept]
  exact ⟨rfl, ⟨_, find?_greet r peer i, rfl, holds⟩, blank⟩

/-- A segment over the limit ends the connection. -/
theorem Awaits.receive_of_oversized (blank : contents (fitting (heard ++ bytes.data.toList)) = [])
    (overrun : oversized (heard ++ bytes.data.toList) = true) :
    r.receive peer bytes = (r.without peer, [.closed peer]) := by
  obtain ⟨i, -, received⟩ := h.receive_eq bytes
  have dropped := received (r.greet peer i) [] (by rw [blank]; rfl)
  rw [if_pos overrun, drop_greeting (find?_greet r peer i) rfl, without_greet] at dropped
  exact dropped

section First

variable {line : List UInt8} {more : List (List UInt8)}
variable (first : contents (fitting (heard ++ bytes.data.toList)) = line :: more)
include first

/-- What comes behind a line that ends the connection is lost. -/
theorem Awaits.receive_of_ended {outputs : List RegistryOutput}
    (ended : ∀ i, takeLine peer (r.greet peer i) line.toByteArray = (r.without peer, outputs)) :
    r.receive peer bytes = (r.without peer, outputs) := by
  obtain ⟨i, -, received⟩ := h.receive_eq bytes
  have settled := received _ _ (by rw [first, List.map_cons, Transducer.run_cons])
  have gone : (r.without peer).connections.find? peer = none := Catalog.find?_erase_self ..
  rw [ended i] at settled
  dsimp only at settled
  rw [run_takeLine_closed gone] at settled
  dsimp only at settled
  rwa [drop_closed gone, List.append_nil, List.append_nil, ite_self] at settled

variable (open_table : r.table.isClosed = false)
include open_table

/-- Where the first line cannot be answered, the connection ends. -/
theorem Awaits.receive_of_unwritten
    (unwritten : ¬r.CanWrite peer (Verdict.ofLine r.names line).reply) :
    r.receive peer bytes =
      (r.without peer, .closed peer :: (Verdict.ofLine r.names line).untold.map .event) :=
  h.receive_of_ended first fun _ ↦ takeLine_of_unwritten open_table unwritten

variable (written : r.CanWrite peer (Verdict.ofLine r.names line).reply)
include written

/-- Where the first line is refused, the peer is told so and the connection ends. -/
theorem Awaits.receive_of_refused {commandId text : String}
    (verdict : Verdict.ofLine r.names line = .refused commandId text) :
    r.receive peer bytes =
      (r.without peer, [.line peer (Message.error commandId text).encode, .closed peer,
        .event (.rejected text)]) :=
  h.receive_of_ended first fun _ ↦ takeLine_of_refused open_table written verdict

/-- Where the first line is welcomed, those behind it are reported. -/
theorem Awaits.receive_of_welcomed (coherent : r.Coherent) {commandId name : String}
    (verdict : Verdict.ofLine r.names line = .welcomed commandId name) :
    ∃ i : Inbox, r.receive peer bytes =
      let outputs := [.line peer (Message.ack commandId).encode, .event (.registered name)] ++
        (reports name more).map .event
      if oversized (heard ++ bytes.data.toList) then
        (r.without peer, outputs ++ [.closed peer, .event (.disconnected name)])
      else (r.welcome peer name i, outputs) := by
  obtain ⟨i, -, received⟩ := h.receive_eq bytes
  have settled := received _ _ (by rw [first, List.map_cons, Transducer.run_cons])
  have welcomed : takeLine peer (r.greet peer i) line.toByteArray = (r.welcome peer name i, _) :=
    takeLine_of_welcomed open_table written verdict
  have coherent' := (spares_takeLine (h.coherent_greet coherent i) peer line.toByteArray).coherent
  rw [welcomed] at settled coherent'
  dsimp only at settled coherent'
  rw [run_takeLine_registered (find?_welcome r peer name i) rfl, List.filterMap_map] at settled
  dsimp only at settled
  rw [drop_welcome coherent' (Verdict.not_mem_of_welcomed verdict)] at settled
  exact ⟨i, settled⟩

/-- The first line settles the handshake, whatever comes behind it. -/
theorem Awaits.receive_of_first (coherent : r.Coherent) :
    r.Settles peer more (Verdict.ofLine r.names line) (oversized (heard ++ bytes.data.toList))
      (r.receive peer bytes) := by
  rcases verdict : Verdict.ofLine r.names line with ⟨commandId, text⟩ | ⟨commandId, name⟩
  · rw [h.receive_of_refused first open_table written verdict]
    exact .refused commandId text _
  · obtain ⟨i, received⟩ := h.receive_of_welcomed first open_table written coherent verdict
    rw [received]
    dsimp only
    rcases oversized (heard ++ bytes.data.toList) with _ | _
    · exact .welcomed commandId name i
    · exact .overrun commandId name

end First

end Bytes

/-! ### Hellos -/

section Hello

variable {name : String}

theorem accept_of_running (running : r.isRunning = true)
    (fresh : r.connections.find? peer = none) :
    r.accept peer = ({ r with connections := r.connections.insert peer {} }, true) := by
  rw [accept, running, Catalog.contains, fresh]
  rfl

/-- A peer that has connected and introduces itself by a free name is registered. -/
theorem receive_hello (connected : r.connections.find? peer = some {})
    (open_table : r.table.isClosed = false) (named : name ≠ "") (free : name ∉ r.names)
    {commandId role : String} (small : (Message.hello commandId role name).Fits)
    (answerable : (Message.ack commandId).Fits) :
    ∃ i : Inbox, i.Holds [] ∧ r.receive peer (frames [(Message.hello commandId role name).encode]) =
      (r.welcome peer name i,
        [.line peer (Message.ack commandId).encode, .event (.registered name)]) := by
  have verdict := Verdict.ofLine_hello named free commandId role
  obtain ⟨i, holds, drained⟩ := Message.drain_frames
    (List.forall_mem_singleton.2 small : ∀ m ∈ [Message.hello commandId role name], m.Fits)
    Inbox.holds_empty
  have clean : r.fault? peer = none := fault?_of_find? connected
  have welcomed : takeLine peer (r.greet peer i) (textBytes _).toByteArray =
      (r.welcome peer name i, _) :=
    takeLine_of_welcomed open_table (by rw [verdict]; exact ⟨answerable, clean⟩) verdict
  rw [List.map_singleton, List.map_singleton, ← toByteArray_textBytes] at drained
  refine ⟨i, holds, ?_⟩
  rw [receive, connected]
  dsimp only
  rw [drained]
  dsimp only
  rw [greet, clean] at welcomed
  rw [Transducer.run_cons, welcomed]
  rfl

end Hello

end Registry

end ShowControl
