import ShowControl.Proofs.Registry.Handshake
import ShowControl.Proofs.Registry.Pieces

/-!
# What registered renderers report

Behind its hello a renderer sends reports. Those of its lines that are acknowledgments or errors
become events, each once and in order, and all others are passed over in silence (`Recounts`),
wherever the lines are cut and whatever ends the connection.

A connection is followed from when it is accepted, by the bytes that have been heard on it and the
events that it has caused (`Tracks`). Bytes that arrive complete lines: in the greeting the first of
them decides (`Begins`), and from a registered peer they are reported (`Hears`). Every other step
leaves the connection alone or ends it (`Touches`). So there is one lemma for a step
(`Registry.Coherent.tracks_step`), and the run is an induction (`Registry.Coherent.tracks_run`).
-/

namespace ShowControl

open Splitter RegistryOutput

/-! ### Reports -/

/-- The events are what the lines of a renderer report, one line after the other. -/
inductive Recounts (name : String) : List (List UInt8) → List RegistryEvent → Prop where
  | nil : Recounts name [] []
  | acknowledged {line : List UInt8} {lines : List (List UInt8)} {told : List RegistryEvent}
      {m : Message} {commandId : String}
      (decoded : Message.decodeBytes line.toByteArray = .ok m)
      (payload : m.payload = .ack commandId) (more : Recounts name lines told) :
      Recounts name (line :: lines) (.acknowledged name commandId :: told)
  | failed {line : List UInt8} {lines : List (List UInt8)} {told : List RegistryEvent}
      {m : Message} {commandId message : String}
      (decoded : Message.decodeBytes line.toByteArray = .ok m)
      (payload : m.payload = .error commandId message) (more : Recounts name lines told) :
      Recounts name (line :: lines) (.commandFailed name commandId message :: told)
  /-- A message that is neither says nothing, -/
  | other {line : List UInt8} {lines : List (List UInt8)} {told : List RegistryEvent} {m : Message}
      (decoded : Message.decodeBytes line.toByteArray = .ok m)
      (no_ack : ∀ commandId, m.payload ≠ .ack commandId)
      (no_error : ∀ commandId message, m.payload ≠ .error commandId message)
      (more : Recounts name lines told) : Recounts name (line :: lines) told
  /-- and neither does a line that is no message. -/
  | undecodable {line : List UInt8} {lines : List (List UInt8)} {told : List RegistryEvent}
      {e : DecodeError} (undecoded : Message.decodeBytes line.toByteArray = .error e)
      (more : Recounts name lines told) : Recounts name (line :: lines) told

/-- The first line introduces a renderer by this name, and these lines follow. -/
def Opens (name : String) (bytes : List UInt8) (more : List (List UInt8)) : Prop :=
  ∃ line wish, contents (fitting bytes) = line :: more ∧
    Introduction.ofLine line.toByteArray = .ok wish ∧ wish.name = name

theorem Opens.append {name : String} {bytes : List UInt8} {more : List (List UInt8)}
    (h : Opens name bytes more) (chunk : List UInt8) :
    Opens name (bytes ++ chunk) (more ++ contents (fitting (pending bytes ++ chunk))) := by
  obtain ⟨line, wish, lines, introduced, named⟩ := h
  refine ⟨line, wish, ?_, introduced, named⟩
  rw [contents_fitting_append, lines, List.cons_append]

namespace Registry

variable {r : Registry} {peer name : String}

theorem reports_cons (name : String) (line : List UInt8) (lines : List (List UInt8)) :
    reports name (line :: lines) =
      (RegistryEvent.ofLine? name line.toByteArray).toList ++ reports name lines := by
  rw [reports, List.filterMap_cons]
  cases RegistryEvent.ofLine? name line.toByteArray <;> rfl

theorem recounts_reports (name : String) (lines : List (List UInt8)) :
    Recounts name lines (reports name lines) := by
  induction lines with
  | nil => exact .nil
  | cons line lines ih =>
    rw [reports_cons, RegistryEvent.ofLine?]
    rcases decoded : Message.decodeBytes line.toByteArray with e | m
    · exact .undecodable decoded ih
    · dsimp only
      rw [RegistryEvent.ofMessage?]
      cases payload : m.payload with
      | ack commandId => exact .acknowledged decoded payload ih
      | error commandId message => exact .failed decoded payload ih
      | _ => exact .other decoded (by simp [payload]) (by simp [payload]) ih

/-- What lines report is settled by the lines. -/
theorem eq_reports_of_recounts {lines : List (List UInt8)} {told : List RegistryEvent}
    (recounts : Recounts name lines told) : told = reports name lines := by
  induction recounts with
  | nil => rfl
  | acknowledged decoded payload more ih =>
    rw [reports_cons, RegistryEvent.ofLine?, decoded, ih]
    simp [RegistryEvent.ofMessage?, payload]
  | failed decoded payload more ih =>
    rw [reports_cons, RegistryEvent.ofLine?, decoded, ih]
    simp [RegistryEvent.ofMessage?, payload]
  | other decoded no_ack no_error more ih =>
    rw [reports_cons, RegistryEvent.ofLine?, decoded, ih]
    dsimp only
    rw [RegistryEvent.ofMessage?]
    split
    · next commandId payload => exact absurd payload (no_ack commandId)
    · next commandId message payload => exact absurd payload (no_error commandId message)
    · rfl
  | undecodable undecoded more ih =>
    rw [reports_cons, RegistryEvent.ofLine?, undecoded, ih]
    rfl

/-- The lines of messages report what the messages do. -/
theorem reports_encode (name : String) {messages : List Message}
    (finite : ∀ m ∈ messages, ∀ coordinate ∈ m.coordinates, coordinate.2.isFinite = true) :
    reports name (messages.map fun m ↦ textBytes m.encode) =
      messages.filterMap (RegistryEvent.ofMessage? name) := by
  rw [reports, List.filterMap_map]
  refine List.filterMap_congr fun m mem ↦ ?_
  rw [Function.comp, RegistryEvent.ofLine?, Message.decodeBytes_encode (finite m mem)]

theorem reports_append (name : String) (lines more : List (List UInt8)) :
    reports name (lines ++ more) = reports name lines ++ reports name more :=
  List.filterMap_append

/-- No line of a registered peer registers anybody. -/
theorem registered_not_mem_reports (name other : String) (lines : List (List UInt8)) :
    .registered other ∉ reports name lines := by
  intro mem
  obtain ⟨line, -, reported⟩ := List.mem_filterMap.1 mem
  exact isReport_of_ofLine? reported

/-! ### Bytes that arrive -/

/-- What bytes of a registered peer come to, where their lines report some events and these are all
bytes so far: the events are reported, and nothing else changes but the inbox, unless a segment over
the limit follows the lines and ends the connection. -/
inductive Hears (r : Registry) (peer name : String) (told : List RegistryEvent)
    (bytes : List UInt8) : Registry × List RegistryOutput → Prop where
  | goes_on (i : Inbox) (within : oversized bytes = false) (holds : i.Holds (pending bytes)) :
      Hears r peer name told bytes (r.refill peer i, told.map .event)
  | overrun (overrun : oversized bytes = true) :
      Hears r peer name told bytes
        ((r.drop peer).1, told.map .event ++ [.closed peer, .event (.disconnected name)])

/-- What bytes come to in the greeting, where these are all bytes so far. -/
inductive Begins (r : Registry) (peer : String) (bytes : List UInt8) :
    Registry × List RegistryOutput → Prop where
  | waits (i : Inbox) (holds : i.Holds (pending bytes)) (blank : contents (fitting bytes) = []) :
      Begins r peer bytes (r.refill peer i, [])
  | ended {r' : Registry} {outputs : List RegistryOutput}
      (closed : r'.connections.find? peer = none)
      (never : ∀ name, .registered name ∉ events outputs) : Begins r peer bytes (r', outputs)
  /-- The first line is welcomed, and those behind it are those of a registered peer. -/
  | welcomed {line : List UInt8} {more : List (List UInt8)} {wish : Introduction} {i : Inbox}
      {r' : Registry} {outputs : List RegistryOutput}
      (lines : contents (fitting bytes) = line :: more)
      (introduced : Introduction.ofLine line.toByteArray = .ok wish)
      (hears : Hears (r.welcome peer wish.name i) peer wish.name (reports wish.name more) bytes
        (r', outputs)) :
      Begins r peer bytes (r', .line peer (Message.ack wish.commandId).encode ::
        .event (.registered wish.name) :: outputs)

variable {i : Inbox} {c : RegistryConnection} {heard : List UInt8}

theorem Coherent.hears (h : r.Coherent) (registered : r.IsRegistered peer name)
    (told : List RegistryEvent) (bytes : List UInt8) :
    Hears r peer name told bytes
      ((r.stow peer bytes).1, told.map .event ++ (r.stow peer bytes).2) := by
  rcases overrun : oversized bytes with _ | _
  · rw [stow_of_within overrun, List.append_nil]
    exact .goes_on _ overrun (Inbox.holds_resting overrun)
  · have outputs : (r.drop peer).2 = [.closed peer, .event (.disconnected name)] := by
      rw [h.drop_registered registered]
    rw [stow_of_overrun overrun, outputs]
    exact .overrun overrun

theorem Coherent.receive_of_registered (h : r.Coherent)
    (found : r.connections.find? peer = some c) (standing : c.standing = .registered name)
    (holds : c.inbox.Holds (pending heard)) (bytes : ByteArray) :
    Hears r peer name (reports name (contents (fitting (pending heard ++ bytes.data.toList))))
      (heard ++ bytes.data.toList) (r.receive peer bytes) := by
  have taken := run_takeLine_registered found standing (texts (pending heard ++ bytes.data.toList))
  rw [texts, List.filterMap_map] at taken
  rw [receive_eq found holds bytes taken, ← stow_append]
  exact h.hears ⟨c, found, standing⟩ _ _

section Greeting

variable (found : r.connections.find? peer = some c) (waiting : c.standing = .greeting)
include found waiting

/-- The first line of a connection ends it or is welcomed. -/
theorem takeLine_of_greeting (line : ByteArray) :
    ((takeLine peer r line).1.connections.find? peer = none ∧
        ∀ name, .registered name ∉ events (takeLine peer r line).2) ∨
      ∃ wish, Introduction.ofLine line = .ok wish ∧
        takeLine peer r line = (r.welcome peer wish.name c.inbox,
          [.line peer (Message.ack wish.commandId).encode, .event (.registered wish.name)]) := by
  have gone : (r.without peer).connections.find? peer = none := Catalog.find?_erase_self ..
  have rejected (rejection : Rejection) :
      (r.reject peer rejection).1.connections.find? peer = none ∧
        ∀ name, .registered name ∉ events (r.reject peer rejection).2 := by
    rw [events_reject, reject_eq]
    exact ⟨gone, by simp⟩
  rw [takeLine, found]
  dsimp only
  rw [waiting]
  dsimp only
  split
  · next wish introduced =>
    cases inserted : r.table.insert ⟨peer, wish.name⟩ with
    | error reason =>
      rw [register_of_refused inserted]
      exact .inl (rejected _)
    | ok table =>
      by_cases written : r.CanWrite peer (.ack wish.commandId)
      · obtain ⟨-, -, rfl⟩ := SessionTable.insert_eq_ok_iff.1 inserted
        have clean : c.fault = none := (fault?_of_find? found).symm.trans written.2
        rw [register_of_written inserted written, clean]
        exact .inr ⟨wish, introduced, rfl⟩
      · rw [register_of_unwritten inserted written]
        exact .inl ⟨gone, by simp [events, event?]⟩
  · next rejection _ => exact .inl (rejected rejection)

theorem Coherent.receive_of_greeting (h : r.Coherent) (holds : c.inbox.Holds (pending heard))
    (blank : contents (fitting heard) = []) (bytes : ByteArray) :
    Begins r peer (heard ++ bytes.data.toList) (r.receive peer bytes) := by
  have all : contents (fitting (heard ++ bytes.data.toList)) =
      contents (fitting (pending heard ++ bytes.data.toList)) := by
    rw [contents_fitting_append, blank, List.nil_append]
  obtain ⟨⟨r', outputs⟩, taken⟩ :
      ∃ s, Transducer.run (takeLine peer) r (texts (pending heard ++ bytes.data.toList)) = s :=
    ⟨_, rfl⟩
  rw [receive_eq found holds bytes taken, ← stow_append]
  rcases lines : contents (fitting (heard ++ bytes.data.toList)) with _ | ⟨line, more⟩
  · rw [texts, ← all, lines] at taken
    cases taken
    rcases overrun : oversized (heard ++ bytes.data.toList) with _ | _
    · rw [stow_of_within overrun]
      exact .waits _ (Inbox.holds_resting overrun) lines
    · rw [stow_of_overrun overrun, drop_greeting found waiting]
      exact .ended (Catalog.find?_erase_self ..) (by simp [events, event?])
  · rw [texts, ← all, lines, List.map_cons, Transducer.run_cons] at taken
    rcases takeLine_of_greeting found waiting line.toByteArray with
      ⟨closed, never⟩ | ⟨wish, introduced, welcomed⟩
    · rw [run_takeLine_closed closed, List.append_nil] at taken
      cases taken
      rw [stow_of_closed closed, List.append_nil]
      exact .ended closed never
    · have coherent := (spares_takeLine h peer line.toByteArray).coherent
      rw [welcomed] at taken coherent
      dsimp only at taken coherent
      have opened := find?_welcome r peer wish.name c.inbox
      rw [run_takeLine_registered opened rfl, List.filterMap_map] at taken
      cases taken
      exact .welcomed lines introduced (coherent.hears ⟨_, opened, rfl⟩ _ _)

end Greeting

/-! ### Other steps -/

/-- What comes of a connection that nothing arrives on: it stays, perhaps blocked, or it ends, and
then it is disconnected if it was registered. -/
inductive Touches (c : RegistryConnection) :
    Option RegistryConnection → List RegistryEvent → Prop where
  | stays (fault : Option WriteError) : Touches c (some { c with fault }) []
  | lost {told : List RegistryEvent} (waiting : c.standing = .greeting)
      (never : ∀ name, .registered name ∉ told) : Touches c none told
  | disconnected {name : String} (registered : c.standing = .registered name) :
      Touches c none [.disconnected name]

/-- A step of the owner leaves the connections that it does not end as they are. -/
theorem Coherent.spares_step_of_owner (h : r.Coherent) {step : RegistryStep}
    (owner : step.peer? = none) :
    Spares (fun _ ↦ True) r (r.step step).2.outputs (r.step step).1 := by
  cases RegistryStep.isOwners owner with
  | start bound => exact spares_start h bound
  | stop => exact spares_stop h
  | send name m => exact spares_send h name m
  | broadcast m => exact spares_broadcast h m

section Touched

variable (h : r.Coherent) (found : r.connections.find? peer = some c) {step : RegistryStep}
include h found

theorem Coherent.touches_of_owner (owner : step.peer? = none) :
    Touches c ((r.step step).1.connections.find? peer)
      (RegistryMoment.contributed ⟨r, step⟩ peer) := by
  have ends := h.ends_step owner
  have kept (c' : RegistryConnection) (left : (r.step step).1.connections.find? peer = some c') :
      c = c' := by
    obtain ⟨before, -⟩ := (h.spares_step_of_owner owner).kept peer trivial c' left
    exact Option.some_inj.1 (found.symm.trans before)
  have told : RegistryMoment.told ⟨r, step⟩ = (r.severed step).map .disconnected := ends.told
  rw [RegistryMoment.contributed_of_owner owner, told]
  dsimp only
  rw [standing?_of_find? found]
  rcases standing : c.standing with _ | name
  · rcases left : (r.step step).1.connections.find? peer with _ | c'
    · exact .lost standing fun _ mem ↦ absurd mem List.not_mem_nil
    · obtain rfl := kept c' left
      exact .stays c.fault
  · have stands := ends.registered peer name ⟨c, found, standing⟩
    dsimp only
    rw [about_map_disconnected ends.nodup]
    by_cases mem : name ∈ r.severed step
    · rw [if_pos mem] at stands ⊢
      rw [standing?_eq_none_iff.1 stands]
      exact .disconnected standing
    · rw [if_neg mem] at stands ⊢
      obtain ⟨c', left, -⟩ := standing?_eq_some_iff.1 stands
      obtain rfl := kept c' left
      rw [left]
      exact .stays c.fault

theorem Coherent.touches_of_peer (about : step.peer? = some peer)
    (unheard : ∀ bytes, step ≠ .receive peer bytes)
    (once : ¬RegistryMoment.Connects ⟨r, step⟩ peer) :
    Touches c ((r.step step).1.connections.find? peer)
      (RegistryMoment.contributed ⟨r, step⟩ peer) := by
  rw [RegistryMoment.contributed_of_peer about, if_pos rfl]
  cases RegistryStep.isAbout about with
  | accept =>
    have same : (r.accept peer).1 = r := accept_of_refused fun accepted ↦ once ⟨rfl, accepted⟩
    show Touches c ((r.accept peer).1.connections.find? peer) []
    rw [same, found]
    exact .stays c.fault
  | receive bytes => exact absurd rfl (unheard bytes)
  | hangUp =>
    show Touches c ((r.forget peer).1.connections.find? peer) (events (r.forget peer).2)
    rw [forget_closes]
    rcases standing : c.standing with _ | name
    · rw [forget_greeting found standing]
      exact .lost standing fun _ mem ↦ absurd mem List.not_mem_nil
    · rw [h.forget_registered ⟨c, found, standing⟩]
      exact .disconnected standing
  | block fault =>
    show Touches c ((r.block peer fault).connections.find? peer) []
    rw [find?_block, if_pos rfl, found, Option.map_some]
    exact .stays (some fault)
  | timeOut =>
    show Touches c ((r.timeOut peer).1.connections.find? peer) (events (r.timeOut peer).2)
    rw [timeOut, found, Option.map_some]
    rcases standing : c.standing with _ | name
    · dsimp only
      have closed (rejection : Rejection) :
          (r.reject peer rejection).1.connections.find? peer = none := by
        rw [reject_eq]
        exact Catalog.find?_erase_self ..
      rw [closed, events_reject]
      exact .lost standing (by simp)
    · dsimp only
      rw [found]
      exact .stays c.fault

theorem Coherent.touches_step (unheard : ∀ bytes, step ≠ .receive peer bytes)
    (once : ¬RegistryMoment.Connects ⟨r, step⟩ peer) :
    Touches c ((r.step step).1.connections.find? peer)
      (RegistryMoment.contributed ⟨r, step⟩ peer) := by
  rcases about : step.peer? with _ | other
  · exact h.touches_of_owner found about
  · by_cases same : other = peer
    · exact h.touches_of_peer found (same ▸ about) unheard once
    · rw [RegistryMoment.contributed_of_peer about, if_neg same, find?_step_of_ne about same, found]
      exact .stays c.fault

end Touched

/-! ### Connections -/

/-- How a connection stands on which these bytes have been heard, and the events that it has
caused. -/
inductive Tracks (bytes : List UInt8) : Option RegistryConnection → List RegistryEvent → Prop where
  | greeting {c : RegistryConnection} (waiting : c.standing = .greeting)
      (holds : c.inbox.Holds (pending bytes)) (blank : contents (fitting bytes) = []) :
      Tracks bytes (some c) []
  | registered {c : RegistryConnection} {name : String} {more : List (List UInt8)}
      (standing : c.standing = .registered name) (holds : c.inbox.Holds (pending bytes))
      (opens : Opens name bytes more) :
      Tracks bytes (some c) (.registered name :: reports name more)
  | unregistered {told : List RegistryEvent} (never : ∀ name, .registered name ∉ told) :
      Tracks bytes none told
  | disconnected {name : String} {more : List (List UInt8)} (opens : Opens name bytes more) :
      Tracks bytes none (.registered name :: reports name more ++ [.disconnected name])

theorem Tracks.touches {bytes : List UInt8} {told told' : List RegistryEvent}
    {left : Option RegistryConnection} (tracks : Tracks bytes (some c) told)
    (touches : Touches c left told') : Tracks bytes left (told ++ told') := by
  cases touches with
  | stays fault =>
    rw [List.append_nil]
    cases tracks with
    | greeting waiting holds blank => exact .greeting waiting holds blank
    | registered standing holds opens => exact .registered standing holds opens
  | lost waiting never =>
    cases tracks with
    | greeting _ holds blank => exact .unregistered never
    | registered standing holds opens => cases standing.symm.trans waiting
  | disconnected registered =>
    cases tracks with
    | greeting waiting holds blank => cases waiting.symm.trans registered
    | registered standing holds opens =>
      obtain rfl := Standing.registered.inj (standing.symm.trans registered)
      exact .disconnected opens

end Registry

/-- The bytes that a step brings to the connection of a peer, if it is open. -/
def RegistryMoment.heard (moment : RegistryMoment) (peer : String) : List UInt8 :=
  match moment.before.standing? peer with
  | none => []
  | some _ => moment.step.bytesFrom peer

theorem RegistryMoment.heard_of_open {moment : RegistryMoment} {peer : String} {standing : Standing}
    (stands : moment.before.standing? peer = some standing) :
    moment.heard peer = moment.step.bytesFrom peer := by
  rw [heard, stands]

namespace Registry

variable {r : Registry} {peer name : String} {i : Inbox} {c : RegistryConnection}
variable {bytes : List UInt8} {told : List RegistryEvent}

/-- The bytes that arrive from a peer during some steps while its connection is open. -/
def heard (r : Registry) (peer : String) (steps : List RegistryStep) : List UInt8 :=
  (r.moments steps).flatMap (·.heard peer)

theorem heard_cons (r : Registry) (peer : String) (step : RegistryStep)
    (steps : List RegistryStep) :
    r.heard peer (step :: steps) =
      RegistryMoment.heard ⟨r, step⟩ peer ++ (r.step step).1.heard peer steps := by
  rw [Registry.heard, moments, List.flatMap_cons]
  rfl

/-- After bytes of a registered peer its connection is open or has been disconnected. -/
theorem Hears.tracks (found : r.connections.find? peer = some c)
    (standing : c.standing = .registered name) {more : List (List UInt8)}
    (opens : Opens name bytes more) {reported : List RegistryEvent}
    (all : told ++ reported = .registered name :: reports name more)
    {result : Registry × List RegistryOutput} (hears : Hears r peer name reported bytes result) :
    Tracks bytes (result.1.connections.find? peer) (told ++ events result.2) := by
  cases hears with
  | goes_on i within holds =>
    rw [find?_refill, found, events_map_event, all]
    exact .registered standing holds opens
  | overrun overrun =>
    have outputs : events (reported.map .event ++ [.closed peer, .event (.disconnected name)]) =
        reported ++ [.disconnected name] := by
      rw [events_append, events_map_event]
      rfl
    rw [drop_closes, outputs, ← List.append_assoc, all]
    exact .disconnected opens

theorem Begins.tracks (found : r.connections.find? peer = some c)
    (waiting : c.standing = .greeting) {result : Registry × List RegistryOutput}
    (begins : Begins r peer bytes result) :
    Tracks bytes (result.1.connections.find? peer) (events result.2) := by
  cases begins with
  | waits i holds blank =>
    rw [find?_refill, found]
    exact .greeting waiting holds blank
  | ended closed never =>
    rw [closed]
    exact .unregistered never
  | welcomed lines introduced hears =>
    exact hears.tracks (find?_welcome ..) rfl ⟨_, _, lines, introduced, rfl⟩
      (rfl : [.registered _] ++ reports _ _ = _)

section Runs

variable (h : r.Coherent) (tracks : Tracks bytes (r.connections.find? peer) told)
include h tracks

theorem Coherent.tracks_receive (found : r.connections.find? peer = some c) (chunk : ByteArray) :
    Tracks (bytes ++ chunk.data.toList) ((r.receive peer chunk).1.connections.find? peer)
      (told ++ events (r.receive peer chunk).2) := by
  rw [found] at tracks
  cases tracks with
  | greeting waiting holds blank =>
    exact (h.receive_of_greeting found waiting holds blank chunk).tracks found waiting
  | @registered _ name more standing holds opens =>
    refine (h.receive_of_registered found standing holds chunk).tracks found standing
      (opens.append _) ?_
    rw [reports_append, List.cons_append]

/-- Every step goes on with what has been heard on a connection and with what it has caused. -/
theorem Coherent.tracks_step {step : RegistryStep}
    (once : ¬RegistryMoment.Connects ⟨r, step⟩ peer) :
    Tracks (bytes ++ RegistryMoment.heard ⟨r, step⟩ peer) ((r.step step).1.connections.find? peer)
      (told ++ RegistryMoment.contributed ⟨r, step⟩ peer) := by
  rcases found : r.connections.find? peer with _ | c
  · have closed : r.standing? peer = none := standing?_eq_none_iff.2 found
    obtain ⟨silent, still⟩ := (h.course_step once).closed closed
    have unheard : RegistryMoment.heard ⟨r, step⟩ peer = [] := by rw [RegistryMoment.heard, closed]
    rw [found] at tracks
    rw [unheard, silent, standing?_eq_none_iff.1 still, List.append_nil, List.append_nil]
    exact tracks
  · rw [RegistryMoment.heard_of_open (standing?_of_find? found)]
    by_cases arrives : ∃ chunk, step = .receive peer chunk
    · obtain ⟨chunk, rfl⟩ := arrives
      rw [RegistryStep.bytesFrom, if_pos rfl, RegistryMoment.contributed_of_peer rfl, if_pos rfl]
      exact h.tracks_receive tracks found chunk
    · have unheard : ∀ chunk, step ≠ .receive peer chunk := not_exists.1 arrives
      have nothing : step.bytesFrom peer = [] := by
        cases step with
        | receive other chunk => exact if_neg fun same : other = peer ↦ unheard chunk (same ▸ rfl)
        | _ => rfl
      rw [found] at tracks
      rw [nothing, List.append_nil]
      exact tracks.touches (h.touches_step found unheard once)

theorem Coherent.tracks_run {steps : List RegistryStep}
    (once : ∀ moment ∈ r.moments steps, ¬moment.Connects peer) :
    Tracks (bytes ++ r.heard peer steps) ((r.run steps).1.connections.find? peer)
      (told ++ r.contributions peer steps) := by
  induction steps generalizing r bytes told with
  | nil =>
    rw [Registry.heard, contributions, Registry.moments, List.flatMap_nil, List.flatMap_nil,
      List.append_nil, List.append_nil]
    exact tracks
  | cons step steps ih =>
    obtain ⟨first, others⟩ := List.forall_mem_cons.1 once
    rw [heard_cons, contributions_cons, run_cons, ← List.append_assoc, ← List.append_assoc]
    exact ih (h.step step) (h.tracks_step tracks first) others

end Runs

/-! ### Visits -/

section Visits

variable {before after : List RegistryStep}

theorem Visit.tracks (visit : Visit peer before after) :
    Tracks ((entered before peer).heard peer after)
      (((entered before peer).run after).1.connections.find? peer)
      ((entered before peer).contributions peer after) := by
  have begun : Tracks [] ((entered before peer).connections.find? peer) [] := by
    rw [visit.find?_entered]
    exact .greeting rfl Inbox.holds_empty rfl
  exact (coherent_entered before peer).tracks_run begun visit.once

/-- What a peer says that is registered during a visit is reported, and nothing else comes of it. -/
structure Reporting (peer name : String) (before after : List RegistryStep) : Prop where
  /-- Of all lines that are heard while the connection is open, the first introduces the peer and
  the others are reported, each once and in order, before the disconnection if there is one. -/
  told : ∃ more told, Opens name ((entered before peer).heard peer after) more ∧
    Recounts name more told ∧
    (entered before peer).contributions peer after = .registered name :: told ++
      if ((entered before peer).run after).1.connections.find? peer = none then
        [.disconnected name] else []
  /-- With the bytes that complete its first line the peer is welcomed, and the lines behind it are
  lines of a registered peer. -/
  welcomed : ∀ first bytes rest, after = first ++ .receive peer bytes :: rest →
    .registered name ∈ events (((entered before peer).run first).1.receive peer bytes).2 →
      ∃ line more told wish i r outputs,
        contents (fitting ((entered before peer).heard peer first ++ bytes.data.toList)) =
          line :: more ∧
        Introduction.ofLine line.toByteArray = .ok wish ∧ wish.name = name ∧
        ((entered before peer).run first).1.receive peer bytes =
          (r, .line peer (Message.ack wish.commandId).encode :: .event (.registered name) ::
            outputs) ∧
        Recounts name more told ∧
        Hears (((entered before peer).run first).1.welcome peer name i) peer name told
          ((entered before peer).heard peer first ++ bytes.data.toList) (r, outputs)
  /-- Later the lines that bytes complete are reported, and nobody is answered. -/
  reported : ∀ first bytes rest, after = first ++ .receive peer bytes :: rest →
    ((entered before peer).run first).1.IsRegistered peer name →
      ∃ told, Recounts name (contents (fitting
          (pending ((entered before peer).heard peer first) ++ bytes.data.toList))) told ∧
        Hears ((entered before peer).run first).1 peer name told
          ((entered before peer).heard peer first ++ bytes.data.toList)
          (((entered before peer).run first).1.receive peer bytes)

theorem Tracks.exists_recounts {left : Option RegistryConnection} (tracks : Tracks bytes left told)
    (registered : .registered name ∈ told) :
    ∃ more reported, Opens name bytes more ∧ Recounts name more reported ∧
      told = .registered name :: reported ++ if left = none then [.disconnected name] else [] := by
  have same {other : String} {more : List (List UInt8)} {last : List RegistryEvent}
      (mem : .registered name ∈ .registered other :: reports other more ++ last)
      (ended : .registered name ∉ last) : other = name := by
    rcases List.mem_cons.1 mem with first | later
    · exact (RegistryEvent.registered.inj first).symm
    · rcases List.mem_append.1 later with reported | last
      · exact absurd reported (registered_not_mem_reports other name more)
      · exact absurd last ended
  cases tracks with
  | greeting => cases registered
  | unregistered never => exact absurd registered (never name)
  | @registered _ other more standing holds opens =>
    obtain rfl := same (List.mem_append_left [] registered) List.not_mem_nil
    exact ⟨more, _, opens, recounts_reports other more, (List.append_nil _).symm⟩
  | @disconnected other more opens =>
    obtain rfl := same registered (by simp)
    exact ⟨more, _, opens, recounts_reports other more, rfl⟩

/-- Bytes of a registered peer register nobody. -/
theorem Hears.registered_not_mem {lines : List (List UInt8)} {other : String}
    {result : Registry × List RegistryOutput}
    (hears : Hears r peer name (reports name lines) bytes result) :
    .registered other ∉ events result.2 := by
  have unreported := registered_not_mem_reports name other lines
  cases hears with
  | goes_on i within holds => rwa [events_map_event]
  | overrun overrun =>
    rw [events_append, events_map_event, List.mem_append, not_or]
    exact ⟨unreported, by simp [events, event?]⟩

/-- Bytes that are reported to register a peer complete its first line. -/
theorem Begins.exists_welcomed {result : Registry × List RegistryOutput}
    (begins : Begins r peer bytes result) (registered : .registered name ∈ events result.2) :
    ∃ line more told wish i r' outputs, contents (fitting bytes) = line :: more ∧
      Introduction.ofLine line.toByteArray = .ok wish ∧ wish.name = name ∧
      result = (r', .line peer (Message.ack wish.commandId).encode :: .event (.registered name) ::
        outputs) ∧
      Recounts name more told ∧
      Hears (r.welcome peer name i) peer name told bytes (r', outputs) := by
  cases begins with
  | waits i holds blank => cases registered
  | ended closed never => exact absurd registered (never name)
  | @welcomed line more wish i r' outputs lines introduced hears =>
    obtain first | later : _ ∨ .registered name ∈ events outputs := List.mem_cons.1 registered
    · obtain rfl := RegistryEvent.registered.inj first
      exact ⟨line, more, _, wish, i, r', outputs, lines, introduced, rfl, rfl,
        recounts_reports wish.name more, hears⟩
    · exact absurd later hears.registered_not_mem

/-- The lines of a registered renderer are reported, each once, and do nothing else. -/
theorem run_reporting (visit : Visit peer before after)
    (registered : .registered name ∈ (entered before peer).contributions peer after) :
    Reporting peer name before after := by
  have coherent (first : List RegistryStep) : ((entered before peer).run first).1.Coherent :=
    (coherent_entered before peer).run first
  refine ⟨visit.tracks.exists_recounts registered, ?_, ?_⟩
  · rintro first chunk rest rfl told
    have tracks := visit.left.tracks
    rcases found : ((entered before peer).run first).1.connections.find? peer with _ | c
    · rw [receive_of_closed found] at told
      cases told
    · rw [found] at tracks
      generalize (entered before peer).contributions peer first = sofar at tracks
      cases tracks with
      | greeting waiting holds blank =>
        have begins := (coherent first).receive_of_greeting found waiting holds blank chunk
        exact begins.exists_welcomed told
      | registered standing holds opens =>
        have hears := (coherent first).receive_of_registered found standing holds chunk
        exact absurd told hears.registered_not_mem
  · rintro first chunk rest rfl ⟨c, found, standing⟩
    have tracks := visit.left.tracks
    rw [found] at tracks
    generalize (entered before peer).contributions peer first = sofar at tracks
    cases tracks with
    | greeting waiting => cases waiting.symm.trans standing
    | registered standing' holds opens =>
      obtain rfl := Standing.registered.inj (standing'.symm.trans standing)
      exact ⟨_, recounts_reports ..,
        (coherent first).receive_of_registered found standing holds chunk⟩

/-- Behind a hello an acknowledgment, another hello and an error arrive, and an acknowledgment that
no line feed ends. -/
theorem run_reporting_unended :
    let hello := Message.hello "cmd-1" "renderer" "left"
    let messages : List Message := [⟨"msg-1", .ack "cmd-2"⟩, hello,
      ⟨"msg-2", .error "cmd-3" "no such cue"⟩]
    let unended : Message := ⟨"msg-3", .ack "cmd-4"⟩
    let visit : List RegistryStep := [.receive "peer" (frames [hello.encode]),
      .receive "peer" (frames (messages.map Message.encode) ++ unended.encode.toUTF8),
      .hangUp "peer"]
    Visit "peer" [.start (some 4455)] visit ∧
      (entered [.start (some 4455)] "peer").contributions "peer" visit =
        [.registered "left", .acknowledged "left" "cmd-2",
          .commandFailed "left" "cmd-3" "no such cue", .disconnected "left"] := by
  intro hello messages unended visit
  have small : ∀ m ∈ hello :: messages, m.Fits := by
    simp only [Message.Fits, Message.utf8ByteSize_encode]
    decide +kernel
  have answerable : (Message.ack "cmd-1").Fits := by
    rw [Message.Fits, Message.utf8ByteSize_encode]
    decide +kernel
  have connected : Visit "peer" [.start (some 4455)] visit :=
    ⟨by decide +kernel, not_connects (by simp [visit])⟩
  obtain ⟨i, -, welcomed⟩ := receive_hello connected.find?_entered (by decide +kernel)
    (by decide : "left" ≠ "") (by decide +kernel) (small hello List.mem_cons_self) answerable
  have opened : ((entered [.start (some 4455)] "peer").receive "peer"
      (frames [hello.encode])).1.standing? "peer" = some (.registered "left") := by
    rw [welcomed]
    exact standing?_of_find? (find?_welcome ..)
  have registered : .registered "left" ∈
      (entered [.start (some 4455)] "peer").contributions "peer" visit := by
    rw [contributions_cons, RegistryMoment.contributed_of_peer rfl, if_pos rfl]
    refine List.mem_append_left _ ?_
    show _ ∈ events ((entered [.start (some 4455)] "peer").receive "peer" _).2
    rw [welcomed]
    exact List.mem_singleton_self _
  have heard : (entered [.start (some 4455)] "peer").heard "peer" visit =
      Message.stream (hello :: messages) ++ textBytes unended.encode := by
    have silent (r : Registry) : r.heard "peer" [.hangUp "peer"] = [] := by
      rw [heard_cons, RegistryMoment.heard]
      split <;> rfl
    rw [heard_cons, RegistryMoment.heard_of_open (standing?_of_find? connected.find?_entered),
      heard_cons, RegistryMoment.heard_of_open opened, silent, List.append_nil]
    show (frames [hello.encode]).data.toList ++ (frames (messages.map Message.encode) ++
      unended.encode.toUTF8).data.toList = _
    have first : (frames [hello.encode]).data.toList = Message.stream [hello] :=
      Message.toList_data_frames [hello]
    rw [first, ByteArray.toList_data_append, Message.toList_data_frames, Message.stream_cons,
      Message.stream_cons hello messages, List.append_assoc, List.append_assoc]
    rfl
  have lines : contents (fitting ((entered [.start (some 4455)] "peer").heard "peer" visit)) =
      (hello :: messages).map fun m ↦ textBytes m.encode := by
    rw [heard, fitting_append_of_not_mem _ unended.lineFeed_not_mem_encode,
      Message.contents_stream small]
  have gone : ((entered [.start (some 4455)] "peer").run visit).1.connections.find? "peer" =
      none := by
    rw [run_cons, run_cons, run_cons]
    exact forget_closes _ _
  obtain ⟨more, told, ⟨line, wish, all, -, -⟩, recounts, caused⟩ :=
    (run_reporting connected registered).told
  obtain ⟨-, rfl⟩ := List.cons.inj (lines.symm.trans all)
  refine ⟨connected, ?_⟩
  rw [caused, gone, eq_reports_of_recounts recounts, reports_encode "left" (by decide)]
  rfl

end Visits

end Registry

end ShowControl
