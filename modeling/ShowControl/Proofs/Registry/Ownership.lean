import ShowControl.Proofs.Frame.Inbox
import ShowControl.Proofs.Registry.Closing
import ShowControl.Proofs.Registry.Moments

/-!
# Who owns a name

A run leaves a conversation with each peer: the bytes that arrived from it and the lines that were
written to it since it connected last, and whether it has hung up or been closed since then, or
blocked. In every state that a registry comes to, whatever is asked of it and whatever its peers do,
the open connections are those whose conversations go on, and the names are those of the open
connections whose conversations began with a hello and its acknowledgment (`run_ownership`).

The invariant has three parts. The table and the connections agree (`Coherent`), a connection is
open while its conversation goes on, and then it is what its conversation makes of it
(`RegistryConnection.Reflects`): its inbox holds what is pending of the bytes, nothing has been said
while it is in the greeting, and its first line introduced it if it is registered. Most steps spare
the connections, and then only more is written to registered ones; four steps do not, and concern
one connection each.
-/

namespace ShowControl

open Splitter RegistryOutput

/-! ### Conversations -/

/-- What has passed between a registry and a peer since the peer connected last. -/
structure Conversation where
  /-- The bytes that arrived from the peer. -/
  received : List UInt8 := []
  /-- The lines that were written to it. -/
  sent : List String := []
  /-- The peer has connected, and since then it has not hung up and has not been closed. -/
  isOpen : Bool := false
  /-- Why no line could be written to the peer any more, if this has been so. -/
  fault : Option WriteError := none

namespace Conversation

/-- What some outputs do to a conversation. -/
def proceed (peer : String) (talk : Conversation) (outputs : List RegistryOutput) : Conversation :=
  { talk with
    sent := talk.sent ++ linesTo peer outputs
    isOpen := talk.isOpen && !outputs.contains (.closed peer) }

/-- The conversation after a step, by what the step comes to. -/
def after (peer : String) (talk : Conversation) (step : RegistryStep) (outcome : RegistryOutcome) :
    Conversation :=
  let talk := talk.proceed peer outcome.outputs
  match step, outcome.answer with
  | .accept other, .accepted true => if other = peer then { isOpen := true } else talk
  | .receive other bytes, _ =>
    if other = peer then { talk with received := talk.received ++ bytes.data.toList } else talk
  | .hangUp other, _ => if other = peer then { talk with isOpen := false } else talk
  | .block other fault, _ => if other = peer then { talk with fault := some fault } else talk
  | _, _ => talk

/-- The conversation after a run, by what its steps come to. -/
def afterRun (peer : String) (talk : Conversation) (steps : List RegistryStep)
    (outcomes : List RegistryOutcome) : Conversation :=
  (steps.zip outcomes).foldl (fun talk (step, outcome) ↦ talk.after peer step outcome) talk

/-- The lines with content among the bytes that arrived. -/
def lines (talk : Conversation) : List (List UInt8) := contents (segments talk.received).1

/-- The first line with content is a hello with this command id and this name. -/
def Introduces (talk : Conversation) (name commandId : String) : Prop :=
  ∃ line m hello, talk.lines.head? = some line ∧ Message.decodeBytes line.toByteArray = .ok m ∧
    m.payload = .hello hello ∧ hello.name = name ∧ m.commandId = commandId

/-- The peer introduced itself by this name, and the first line it was sent acknowledges that. -/
def Welcomes (talk : Conversation) (name : String) : Prop :=
  ∃ commandId, talk.Introduces name commandId ∧
    talk.sent.head? = some (Message.ack commandId).encode

variable {talk talk' : Conversation} {name name' commandId commandId' : String}

theorem Introduces.unique (h : talk.Introduces name commandId)
    (h' : talk.Introduces name' commandId') : name = name' ∧ commandId = commandId' := by
  obtain ⟨line, m, hello, first, decoded, payload, rfl, rfl⟩ := h
  obtain ⟨line', m', hello', first', decoded', payload', rfl, rfl⟩ := h'
  obtain rfl : line = line' := Option.some_inj.1 (first.symm.trans first')
  obtain rfl : m = m' := Except.ok.inj (decoded.symm.trans decoded')
  rw [payload, Payload.hello.injEq] at payload'
  exact ⟨congrArg Hello.name payload', rfl⟩

theorem proceed_nil (peer : String) (talk : Conversation) : talk.proceed peer [] = talk := by
  simp [proceed]

theorem after_accept (talk : Conversation) (peer other : String) (accepted : Bool) :
    talk.after peer (.accept other) { answer := .accepted accepted } =
      if accepted ∧ other = peer then { isOpen := true } else talk := by
  cases accepted <;> simp [after, proceed_nil]

/-- What passes later does not change who the peer is. -/
theorem Welcomes.extend (h : talk.Welcomes name) {lines : List (List UInt8)} {sent : List String}
    (heard : talk'.lines = talk.lines ++ lines) (said : talk'.sent = talk.sent ++ sent) :
    talk'.Welcomes name := by
  obtain ⟨commandId, ⟨line, m, hello, first, decoded⟩, acknowledged⟩ := h
  refine ⟨commandId, ⟨line, m, hello, ?_, decoded⟩, ?_⟩
  · rw [heard, List.head?_append, first, Option.some_or]
  · rw [said, List.head?_append, acknowledged, Option.some_or]

/-- As long as no line is over the limit, the lines that more bytes add are those of the pending
bytes with them. -/
theorem lines_append {bytes : List UInt8} (heard : talk'.received = talk.received ++ bytes)
    (within : oversized (talk.received ++ bytes) = false)
    (before : oversized talk.received = false) :
    talk'.lines = talk.lines ++ contents (fitting (pending talk.received ++ bytes)) := by
  rw [lines, lines, heard, ← fitting_eq within, ← fitting_eq before, fitting_append,
    contents_append]

end Conversation

/-! ### What a conversation makes of a connection -/

/-- Nothing has passed in the greeting, and who is registered has been welcomed. -/
def Standing.Reflects : Standing → Conversation → Prop
  | .greeting, talk => talk.lines = [] ∧ talk.sent = []
  | .registered name, talk => name ≠ "" ∧ talk.Welcomes name

/-- A connection is what its conversation makes of it. -/
structure RegistryConnection.Reflects (c : RegistryConnection) (talk : Conversation) : Prop where
  inbox : c.inbox.Holds (pending talk.received)
  within : oversized talk.received = false
  standing : c.standing.Reflects talk
  fault : c.fault = talk.fault

theorem RegistryConnection.reflects_empty : ({} : RegistryConnection).Reflects { isOpen := true }
    where
  inbox := Inbox.holds_empty
  within := rfl
  standing := ⟨rfl, rfl⟩
  fault := rfl

variable {talk talk' : Conversation}

/-- The standing that the next lines give reflects the conversation with those lines. -/
theorem Standing.Reflects.answer {standing standing' : Standing} (h : standing.Reflects talk)
    {lines : List (List UInt8)} {sent : List String}
    (answers : Registry.Answers standing (lines.map List.toByteArray) sent standing')
    (heard : talk'.lines = talk.lines ++ lines) (said : talk'.sent = talk.sent ++ sent) :
    standing'.Reflects talk' := by
  generalize texts : lines.map List.toByteArray = taken at answers
  cases answers with
  | waiting =>
    obtain ⟨unheard, unsaid⟩ := h
    rw [List.map_eq_nil_iff.1 texts, unheard] at heard
    rw [unsaid] at said
    exact ⟨heard, said⟩
  | @welcomed line wish introduced rest =>
    obtain ⟨unheard, unsaid⟩ := h
    -- the first line of the conversation is the one that was taken first now
    obtain ⟨m, hello, decoded, payload, named, rfl⟩ := Introduction.ofLine_eq_ok_iff.1 introduced
    obtain ⟨first, others, rfl, rfl, -⟩ := List.map_eq_cons_iff.1 texts
    rw [unheard] at heard
    rw [unsaid] at said
    refine ⟨named, m.commandId, ⟨first, m, hello, ?_, decoded, payload, rfl, rfl⟩, ?_⟩
    · rw [heard]
      rfl
    · rw [said]
      rfl
  | registered name _ => exact ⟨h.1, h.2.extend heard said⟩

/-! ### The invariant -/

namespace Registry

variable {r r' : Registry} {talks : String → Conversation} {peer name : String}
variable {c : RegistryConnection} {outputs : List RegistryOutput} {P : String → Prop}

/-- The open connections are what the conversations make of them. -/
def Reflects (r : Registry) (talks : String → Conversation) : Prop :=
  ∀ peer c, r.connections.find? peer = some c → c.Reflects (talks peer)

/-- The invariant of a registry with the conversations that it has with its peers. -/
structure Sound (r : Registry) (talks : String → Conversation) : Prop where
  coherent : r.Coherent
  reflects : r.Reflects talks
  connected : ∀ peer, r.IsOpen peer ↔ (talks peer).isOpen = true

theorem sound_empty : ({} : Registry).Sound fun _ ↦ {} where
  coherent := coherent_empty
  reflects _ _ found := by cases found
  connected _ := iff_of_false Bool.false_ne_true Bool.false_ne_true

/-- A peer that is spared has at most been written to. -/
theorem Spares.reflects (spares : Spares P r outputs r') (h : r.Reflects talks) (spared : P peer)
    (found : r'.connections.find? peer = some c) :
    c.Reflects ((talks peer).proceed peer outputs) := by
  obtain ⟨before, silent⟩ := spares.kept peer spared c found
  obtain ⟨inbox, within, standing, fault⟩ := h peer c before
  refine ⟨inbox, within, ?_, fault⟩
  cases stands : c.standing with
  | greeting =>
    rw [stands] at standing
    refine ⟨standing.1, ?_⟩
    show (talks peer).sent ++ linesTo peer outputs = []
    rw [silent stands, List.append_nil, standing.2]
  | registered name =>
    rw [stands] at standing
    exact ⟨standing.1, standing.2.extend (List.append_nil _).symm rfl⟩

/-- What closes a connection ends its conversation. -/
theorem Closes.connected (closes : Closes r outputs r')
    (connected : ∀ peer, r.IsOpen peer ↔ (talks peer).isOpen = true) (peer : String) :
    r'.IsOpen peer ↔ ((talks peer).proceed peer outputs).isOpen = true := by
  rw [closes, connected, Conversation.proceed]
  simp

/-- A step that spares all peers keeps the invariant. -/
theorem Sound.spares (h : r.Sound talks) (spares : Spares (fun _ ↦ True) r outputs r')
    (closes : Closes r outputs r') : r'.Sound fun peer ↦ (talks peer).proceed peer outputs :=
  ⟨spares.coherent, fun _ _ found ↦ spares.reflects h.reflects trivial found,
    closes.connected h.connected⟩

/-- A new connection reflects a conversation that begins, and one that was there goes on. -/
theorem Sound.accept (h : r.Sound talks)
    (left : (r.accept peer).1.connections.find? peer = some c) :
    c.Reflects (if (r.accept peer).2 then { isOpen := true } else talks peer) := by
  rw [Registry.accept] at left ⊢
  split at left
  · next possible =>
    obtain rfl := Option.some_inj.1 ((Catalog.find?_insert_self ..).symm.trans left)
    rw [if_pos possible]
    exact RegistryConnection.reflects_empty
  · next impossible =>
    rw [if_neg impossible]
    exact h.reflects peer c left

/-- A connection to which bytes have come reflects the conversation with them. -/
theorem Sound.receive (h : r.Sound talks) {bytes : ByteArray} {c' : RegistryConnection}
    (left : (r.receive peer bytes).1.connections.find? peer = some c') :
    c'.Reflects { (talks peer).proceed peer (r.receive peer bytes).2 with
      received := (talks peer).received ++ bytes.data.toList } := by
  cases found : r.connections.find? peer with
  | none =>
    rw [Registry.receive, found] at left
    rw [found] at left
    cases left
  | some c =>
    obtain ⟨inbox, within, standing, fault⟩ := h.reflects peer c found
    obtain ⟨i, drained, holds⟩ := (inbox.append bytes).drain
    obtain ⟨unreported, rfl, kept, answers⟩ := receive_left found drained left
    have within' : oversized ((talks peer).received ++ bytes.data.toList) = false := by
      rw [oversized_append]
      cases large : oversized (pending (talks peer).received ++ bytes.data.toList) with
      | false => rfl
      | true => simp [report, large] at unreported
    -- an open connection has taken all lines, so its bytes are split as they would be without limit
    refine ⟨?_, within', standing.answer answers ?_ rfl, kept.trans fault⟩
    · show c'.inbox.Holds (pending ((talks peer).received ++ bytes.data.toList))
      rw [pending_append]
      exact holds
    · exact Conversation.lines_append rfl within' within

/-- A connection that has been blocked reflects that. -/
theorem Sound.block (h : r.Sound talks) {fault : WriteError}
    (left : (r.block peer fault).connections.find? peer = some c) :
    c.Reflects { talks peer with fault := some fault } := by
  rw [find?_block, if_pos rfl] at left
  obtain ⟨c', found, rfl⟩ := Option.map_eq_some_iff.1 left
  obtain ⟨inbox, within, standing, -⟩ := h.reflects peer c' found
  exact ⟨inbox, within, by cases stands : c'.standing <;> rwa [stands] at standing, rfl⟩

/-- A step that spares all other peers keeps the invariant if it is reflected in the connection of
the one. -/
theorem Sound.spares_others (h : r.Sound talks) (spares : Spares (· ≠ peer) r outputs r')
    (closes : Closes r outputs r') {talks' : String → Conversation}
    (ends : (talks' peer).isOpen = ((talks peer).proceed peer outputs).isOpen)
    (reflects : ∀ c, r'.connections.find? peer = some c → c.Reflects (talks' peer)) :
    r'.Sound fun other ↦
      if peer = other then talks' other else (talks other).proceed other outputs := by
  refine ⟨spares.coherent, fun other c found ↦ ?_, fun other ↦ ?_⟩
  · by_cases same : peer = other
    · subst same
      rw [if_pos rfl]
      exact reflects c found
    · rw [if_neg same]
      exact spares.reflects h.reflects (Ne.symm same) found
  · rw [closes.connected h.connected other]
    split
    · next same => rw [← same, ends]
    · rfl

/-- Every step keeps the invariant. -/
theorem Sound.step (h : r.Sound talks) (step : RegistryStep) :
    (r.step step).1.Sound fun peer ↦ (talks peer).after peer step (r.step step).2 := by
  cases step with
  | start bound => exact h.spares (spares_start h.coherent bound) (closes_start r bound)
  | stop => exact h.spares (spares_stop h.coherent) (closes_stop r)
  | accept peer =>
    have spares := spares_accept h.coherent peer
    -- whether the peer could connect is what the conversation is told
    have told (other : String) :
        (talks other).after other (.accept peer) (r.step (.accept peer)).2 =
          if (r.accept peer).2 ∧ peer = other then { isOpen := true } else talks other :=
      Conversation.after_accept ..
    refine ⟨spares.coherent, fun other c found ↦ ?_, fun other ↦ ?_⟩
    · rw [told]
      by_cases same : peer = other
      · subst same
        simpa using h.accept found
      · rw [if_neg fun both ↦ same both.2]
        have kept := spares.reflects h.reflects (Ne.symm same) found
        rwa [Conversation.proceed_nil] at kept
    · refine (isOpen_accept r peer other).trans ?_
      rw [told, h.connected]
      split
      · next entered => exact iff_of_true (.inl entered) rfl
      · next absent => exact or_iff_right absent
  | receive peer bytes =>
    exact h.spares_others (spares_receive h.coherent peer bytes) (closes_receive r peer bytes) rfl
      fun c found ↦ h.receive found
  | hangUp peer =>
    refine ⟨h.coherent.forget peer, fun other c found ↦ ?_, fun other ↦ ?_⟩
    · have ne : peer ≠ other := by
        rintro rfl
        cases (forget_closes r peer).symm.trans found
      show c.Reflects (if peer = other then _ else _)
      rw [if_neg ne]
      have spares := spares_forget (P := fun _ ↦ True) h.coherent peer
      exact spares.reflects h.reflects trivial found
    · refine (isOpen_forget r peer other).trans ?_
      show _ ↔ Conversation.isOpen (if peer = other then _ else _) = true
      split
      · next same => exact iff_of_false (fun both ↦ both.2 same.symm) Bool.false_ne_true
      · next ne =>
        have unclosed : .closed other ∉ (r.step (.hangUp peer)).2.outputs :=
          closed_not_mem_forget r peer other
        rw [and_iff_left (Ne.symm ne), h.connected, Conversation.proceed]
        simp [unclosed]
  | block peer fault =>
    refine h.spares_others (spares_block h.coherent peer fault) (closes_block r peer fault) rfl
      fun c found ↦ ?_
    show c.Reflects { (talks peer).proceed peer [] with fault := some fault }
    rw [Conversation.proceed_nil]
    exact h.block found
  | timeOut peer => exact h.spares (spares_timeOut h.coherent peer) (closes_timeOut r peer)
  | send name m => exact h.spares (spares_send h.coherent name m) (closes_send r name m)
  | broadcast m => exact h.spares (spares_broadcast h.coherent m) (closes_broadcast r m)

/-- Every run keeps the invariant. -/
theorem Sound.run (h : r.Sound talks) (steps : List RegistryStep) :
    (r.run steps).1.Sound fun peer ↦ (talks peer).afterRun peer steps (r.run steps).2 := by
  induction steps generalizing r talks with
  | nil => exact h
  | cons step steps ih =>
    have rest := ih (h.step step)
    rw [Registry.run, Transducer.run_cons]
    exact rest

/-- The conversation with a peer after a run. -/
def conversation (steps : List RegistryStep) (peer : String) : Conversation :=
  Conversation.afterRun peer {} steps (run {} steps).2

theorem conversation_append_singleton (steps : List RegistryStep) (step : RegistryStep)
    (peer : String) :
    conversation (steps ++ [step]) peer =
      (conversation steps peer).after peer step ((run {} steps).1.step step).2 := by
  rw [conversation, run_append, run_cons, Conversation.afterRun,
    List.zip_append (length_run {} steps).symm, List.foldl_append]
  rfl

theorem sound_run (steps : List RegistryStep) :
    (run {} steps).1.Sound (conversation steps) :=
  sound_empty.run steps

/-! ### Names -/

/-- How the names of a registry belong to the peers that it has these conversations with. -/
structure Ownership (r : Registry) (talks : String → Conversation) : Prop where
  nonempty : ∀ name ∈ r.names, name ≠ ""
  sorted : r.names.Pairwise (· < ·)
  size : r.size = r.names.length
  /-- The names are those under which exactly one connection is open and registered; its first line
  was a hello with the name, and the hello has been acknowledged. -/
  listed : ∀ name, name ∈ r.names ↔ ∃ peer, r.IsRegistered peer name ∧
    (∀ other, r.IsRegistered other name → other = peer) ∧ (talks peer).Welcomes name
  unshared : ∀ name peer other, r.IsRegistered peer name → r.IsRegistered other name → peer = other
  /-- An open connection is registered under the name of its hello, and under no name without. -/
  introduced : ∀ peer c name, r.connections.find? peer = some c →
    (c.standing = .registered name ↔ ∃ commandId, (talks peer).Introduces name commandId)
  /-- The open connections are those of the peers that have connected and have neither hung up nor
  been closed since, -/
  connected : ∀ peer, r.connections.contains peer = (talks peer).isOpen
  /-- and lines can be written to them unless they have been blocked since. -/
  blocked : ∀ peer c, r.connections.find? peer = some c → c.fault = (talks peer).fault
  stopped : r.isRunning = false →
    r.names = [] ∧ r.port.getD 0 = 0 ∧ ∀ peer, r.connections.find? peer = none

theorem Sound.welcomes (h : r.Sound talks) (registered : r.IsRegistered peer name) :
    name ≠ "" ∧ (talks peer).Welcomes name := by
  obtain ⟨c, found, standing⟩ := registered
  have reflects := (h.reflects peer c found).standing
  rwa [standing] at reflects

theorem Sound.introduces_iff (h : r.Sound talks) (found : r.connections.find? peer = some c) :
    c.standing = .registered name ↔ ∃ commandId, (talks peer).Introduces name commandId := by
  have reflects := (h.reflects peer c found).standing
  constructor
  · intro standing
    rw [standing] at reflects
    obtain ⟨-, commandId, introduces, -⟩ := reflects
    exact ⟨commandId, introduces⟩
  · rintro ⟨commandId, introduces⟩
    cases standing : c.standing with
    | greeting =>
      -- there is no line yet, so none that introduces anybody
      rw [standing] at reflects
      obtain ⟨line, m, hello, first, -⟩ := introduces
      rw [reflects.1] at first
      cases first
    | registered name' =>
      rw [standing] at reflects
      obtain ⟨-, commandId', introduces', -⟩ := reflects
      rw [(introduces.unique introduces').1]

theorem Coherent.mem_names_iff (h : r.Coherent) :
    name ∈ r.names ↔ ∃ peer, r.IsRegistered peer name := by
  rw [names, SessionTable.mem_names_iff, Option.isSome_iff_exists]
  exact exists_congr fun peer ↦ h.owned name peer

theorem Coherent.eq_of_isRegistered (h : r.Coherent) {other : String}
    (registered : r.IsRegistered peer name) (registered' : r.IsRegistered other name) :
    peer = other := by
  have owner := (h.owned name peer).2 registered
  rw [(h.owned name other).2 registered'] at owner
  exact (Option.some_inj.1 owner).symm

theorem Sound.ownership (h : r.Sound talks) : r.Ownership talks where
  nonempty name listed := by
    obtain ⟨peer, registered⟩ := h.coherent.mem_names_iff.1 listed
    exact (h.welcomes registered).1
  sorted := r.table.names_sorted
  size := r.table.size_eq
  listed name := by
    rw [h.coherent.mem_names_iff]
    constructor
    · rintro ⟨peer, registered⟩
      refine ⟨peer, registered, fun other registered' ↦ ?_, (h.welcomes registered).2⟩
      exact h.coherent.eq_of_isRegistered registered' registered
    · rintro ⟨peer, registered, -⟩
      exact ⟨peer, registered⟩
  unshared name peer other := h.coherent.eq_of_isRegistered
  introduced peer c name found := h.introduces_iff found
  connected peer := Bool.eq_iff_iff.2 (h.connected peer)
  blocked peer c found := (h.reflects peer c found).fault
  stopped idle := by
    have port : r.port = none := by simpa [isRunning] using idle
    have closed := h.coherent.idle port
    refine ⟨List.eq_nil_iff_forall_not_mem.2 fun name listed ↦ ?_, by rw [port]; rfl, closed⟩
    obtain ⟨peer, c, found, -⟩ := h.coherent.mem_names_iff.1 listed
    rw [closed peer] at found
    cases found

/-- After every run the names belong to the peers that introduced themselves by them. -/
theorem run_ownership (steps : List RegistryStep) :
    (run {} steps).1.Ownership fun peer ↦
      Conversation.afterRun peer {} steps (run {} steps).2 :=
  (sound_empty.run steps).ownership

end Registry

end ShowControl
