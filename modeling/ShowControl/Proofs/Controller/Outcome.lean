import ShowControl.Controller.Session
import ShowControl.Proofs.Controller.Waiting
import ShowControl.Proofs.Renderer.Acceptance

/-!
# How a run of a controller ends

A run of a controller asks at most twice, so its outcome is decided by the first two lines of the
peer: the hello must be acknowledged by the first, and the command by the second, whatever else the
peer says, whenever it says it and in whatever pieces (`run_decided`). Which command it is plays no
part, except that a definition has to be there before anything else happens.
-/

namespace ShowControl

/-- The line acknowledges the command with this id. -/
def Reading.Acknowledges (commandId : String) (reading : Reading) : Prop :=
  ∃ m, reading = .ok m ∧ m.payload = .ack commandId

theorem Reading.verdict_eq_ok_iff (commandId : String) (reading : Reading) :
    reading.verdict commandId = .ok () ↔ reading.Acknowledges commandId := by
  cases reading with
  | error e => exact ⟨nofun, fun ⟨_, ok, _⟩ ↦ nomatch ok⟩
  | ok m =>
    obtain ⟨id, payload⟩ := m
    rw [verdict, Client.checkReply]
    constructor
    · intro accepted
      cases payload with
      | ack answered =>
        dsimp only at accepted
        split at accepted
        · next same => exact ⟨_, rfl, congrArg Payload.ack same⟩
        · cases accepted
      | error answered text =>
        dsimp only at accepted
        split at accepted <;> cases accepted
      | _ => cases accepted
    · rintro ⟨_, ⟨⟩, acknowledged⟩
      dsimp only at acknowledged ⊢
      rw [acknowledged]
      exact if_pos rfl

/-- The content of a file is the text of this definition, and it can be drawn. -/
def Definition.IsKept (content : Option ByteArray) (d : Definition) : Prop :=
  ∃ text, fileText content = .ok text ∧ Definition.decode text = .ok d ∧
    d.scene.IsDrawable d.feeds

theorem Definition.isKept_of_ofFile {content : Option ByteArray} {d : Definition}
    (read : ofFile content = .ok d) : d.IsKept content := by
  cases content with
  | none => cases read
  | some bytes =>
    obtain ⟨text, read, decoded, passes⟩ := ofFile_eq_ok_iff.1 read
    exact ⟨text, read, decoded, Scene.check_eq_ok_iff.1 passes⟩

namespace ControllerOptions

variable (o : ControllerOptions) (files : String → Option ByteArray) (helloId commandId : String)
variable (speech : List String → List Arrival)

/-- The hello of a run. -/
def introduction : Message := Client.introduction helloId o.name

/-- The lines of a run may be sent. -/
structure Fits : Prop where
  hello : (o.introduction helloId).Fits
  command : ∀ payload, o.command.payload files = .ok (some payload) →
    (Message.mk commandId payload).Fits

/-- What arrives on the hello, from a peer that says this to each line. -/
def onHello : List Arrival := speech [(o.introduction helloId).encode]

/-- What arrives on the hello and then on the command. -/
def onCommand (payload : Payload) : List Arrival :=
  o.onHello helloId speech ++
    speech [(o.introduction helloId).encode, (Message.mk commandId payload).encode]

/-- The first line of the peer acknowledges the hello. -/
def HelloAcknowledged : Prop :=
  ∃ reading ∈ (readings (o.onHello helloId speech))[0]?, reading.Acknowledges helloId

/-- The second line of the peer acknowledges the command. -/
def CommandAcknowledged (payload : Payload) : Prop :=
  ∃ reading ∈ (readings (o.onCommand helloId commandId speech payload))[1]?,
    reading.Acknowledges commandId

/-- What a run comes to that sends this after its hello, to a peer that says this to each line. -/
structure Outcome (sent : Option Payload) (report : ControllerReport) : Prop where
  succeeds : report.result = .ok () ↔
    o.HelloAcknowledged helloId speech ∧
      ∀ payload ∈ sent, o.CommandAcknowledged helloId commandId speech payload
  /-- The command is sent behind the hello once this is acknowledged. -/
  greeted : o.HelloAcknowledged helloId speech → report.written =
    (o.introduction helloId).encode ::
      (sent.map fun payload ↦ (Message.mk commandId payload).encode).toList
  /-- Otherwise nothing is sent behind the hello. -/
  rebuffed : ¬o.HelloAcknowledged helloId speech →
    report.written = [(o.introduction helloId).encode]

/-- A run on a connection, once it is settled what to send and how to ask. -/
def session (sent : Option Payload) (ask : Client.Ask) : ControllerReport :=
  match ask ⟨o.address, some {}⟩ [] (o.introduction helloId) with
  | (_, hello, .error reason) => { result := .error (.client reason), written := hello }
  | (client, hello, .ok ()) =>
    match sent with
    | none => { result := .ok (), written := hello, printed := ["hello acknowledged"] }
    | some payload =>
      let m : Message := ⟨commandId, payload⟩
      match ask client hello m with
      | (_, command, .error reason) =>
        { result := .error (.client reason), written := hello ++ command }
      | (_, command, .ok ()) =>
        { result := .ok (), written := hello ++ command,
          printed := [m.type.text ++ " " ++ m.commandId] }

variable {o files helloId commandId speech}

/-- A run is a session, and is told at once what its peer says to each line. -/
theorem run_eq_session {sent : Option Payload} (settled : o.command.payload files = .ok sent) :
    o.run files helloId commandId (.ok ()) (fun lines ↦ .ok (.joined (speech lines))) =
      o.session helloId commandId sent (Client.askAtOnce speech) := by
  rw [run, settled]
  rfl

/-- The run fails with the hello if this is not acknowledged. -/
theorem outcome_of_rebuffed {sent : Option Payload} {report : ControllerReport}
    (rebuffed : ¬o.HelloAcknowledged helloId speech) (failed : ∃ e, report.result = .error e)
    (written : report.written = [(o.introduction helloId).encode]) :
    o.Outcome helloId commandId speech sent report where
  succeeds := by
    obtain ⟨e, failed⟩ := failed
    rw [failed]
    exact ⟨nofun, fun ⟨heard, _⟩ ↦ absurd heard rebuffed⟩
  greeted heard := absurd heard rebuffed
  rebuffed _ := written

/-- Behind an acknowledged hello the command decides. -/
theorem outcome_of_greeted {sent : Option Payload} {report : ControllerReport}
    (greeted : o.HelloAcknowledged helloId speech)
    (decided : report.result = .ok () ↔
      ∀ payload ∈ sent, o.CommandAcknowledged helloId commandId speech payload)
    (written : report.written = (o.introduction helloId).encode ::
      (sent.map fun payload ↦ (Message.mk commandId payload).encode).toList) :
    o.Outcome helloId commandId speech sent report where
  succeeds := decided.trans ⟨fun all ↦ ⟨greeted, all⟩, And.right⟩
  greeted _ := written
  rebuffed h := absurd greeted h

/-- Asking succeeds if the next line acknowledges, and then the connection is still there. -/
theorem acknowledges_iff_settle {sofar : List Arrival} {taken : ℕ} {c : Client}
    {heard? : Option (Except ClientError Message)} (id : String)
    (h : Client.Hears sofar taken c heard?) :
    (∃ reading ∈ (readings sofar)[taken]?, reading.Acknowledges id) ↔
      Client.settle id heard? = .ok () := by
  cases h with
  | @takes _ _ reading here =>
    rw [here, Client.settle_mapError, Reading.verdict_eq_ok_iff]
    simp
  | waits nothing =>
    rw [nothing]
    simp [Client.settle]
  | fails reason all =>
    rw [Client.getElem?_readings_of_all all]
    simp [Client.settle]

theorem exists_follows_of_settle {sofar : List Arrival} {taken : ℕ} {c : Client}
    {heard? : Option (Except ClientError Message)} {id : String}
    (h : Client.Hears sofar taken c heard?) (settled : Client.settle id heard? = .ok ()) :
    ∃ (address : String) (s : Incoming), c = ⟨address, some s⟩ ∧ s.Follows sofar (taken + 1) := by
  cases h with
  | takes here follows => exact ⟨_, _, rfl, follows⟩
  | waits => cases settled
  | fails => cases settled

theorem outcome_of_asks {ask : Client.Ask} (asks : Client.Asks speech ask) {sent : Option Payload}
    (settled : o.command.payload files = .ok sent) (fits : o.Fits files helloId commandId) :
    o.Outcome helloId commandId speech sent (o.session helloId commandId sent ask) := by
  obtain ⟨c, heard?, hears, asked⟩ :=
    asks o.address {} [] 0 [] (o.introduction helloId) Incoming.follows_empty fits.hello
  have hello : o.HelloAcknowledged helloId speech ↔ Client.settle helloId heard? = .ok () :=
    acknowledges_iff_settle helloId hears
  rw [session, asked]
  cases first : Client.settle (o.introduction helloId).commandId heard? with
  | error reason =>
    refine outcome_of_rebuffed (fun acknowledged ↦ ?_) ⟨_, rfl⟩ rfl
    exact nomatch first.symm.trans (hello.1 acknowledged)
  | ok _ =>
    have greeted := hello.2 first
    cases sent with
    | none => exact outcome_of_greeted greeted ⟨fun _ ↦ nofun, fun _ ↦ rfl⟩ rfl
    | some payload =>
      obtain ⟨address, s, rfl, follows⟩ := exists_follows_of_settle hears first
      obtain ⟨c', heard'?, hears', asked'⟩ := asks address s _ 1 [(o.introduction helloId).encode]
        ⟨commandId, payload⟩ follows (fits.command payload settled)
      have command : o.CommandAcknowledged helloId commandId speech payload ↔
          Client.settle commandId heard'? = .ok () := acknowledges_iff_settle commandId hears'
      dsimp only
      rw [asked']
      cases second : Client.settle (Message.mk commandId payload).commandId heard'? with
      | error reason =>
        refine outcome_of_greeted greeted ⟨nofun, fun all ↦ ?_⟩ rfl
        exact nomatch second.symm.trans (command.1 (all payload rfl))
      | ok _ =>
        refine outcome_of_greeted greeted ⟨fun _ other sent ↦ ?_, fun _ ↦ rfl⟩ rfl
        obtain rfl := Option.mem_some_iff.1 sent
        exact command.2 second

theorem payload_eq_none_iff {sent : Option Payload}
    (settled : o.command.payload files = .ok sent) : sent = none ↔ o.command = .hello := by
  cases command : o.command with
  | loadDefinition path =>
    rw [command, ControllerCommand.payload] at settled
    split at settled <;> cases settled
    exact ⟨nofun, nofun⟩
  | _ =>
    rw [command] at settled
    cases settled
    simp

variable (o files helloId commandId speech)

/-- How the runs of a controller end. -/
structure Decided : Prop where
  /-- What is sent is settled first; then the peer decides. -/
  settled : ∀ sent, o.command.payload files = .ok sent → o.Outcome helloId commandId speech sent
    (o.run files helloId commandId (.ok ()) fun lines ↦ .ok (.joined (speech lines)))
  /-- It decides in the same way if the controller waits for each reply piece by piece. -/
  pieces : ∀ sent, o.command.payload files = .ok sent → o.Outcome helloId commandId speech sent
    (o.session helloId commandId sent (Client.askInPieces speech))
  /-- Every command but the bare hello sends a line of its own. -/
  commands : ∀ sent, o.command.payload files = .ok sent → (sent = none ↔ o.command = .hello)
  /-- Without a definition in its file there is nothing to send, and the run has failed before it
  comes to the network, however the attempt to connect and the peer would have turned out. -/
  unsettled : ∀ path, o.command = .loadDefinition path →
    (¬∃ d, Definition.IsKept (files path) d) →
      ∃ reason, ∀ dialed peer, o.run files helloId commandId dialed peer =
        { result := .error (.definition ⟨path, reason⟩) }

variable {o files helloId commandId speech}

/-- A run succeeds if the first two lines of its peer acknowledge the hello and the command. -/
theorem run_decided (fits : o.Fits files helloId commandId) :
    o.Decided files helloId commandId speech where
  settled _ settled := by
    rw [run_eq_session settled]
    exact outcome_of_asks (Client.asks_atOnce speech) settled fits
  pieces _ settled := outcome_of_asks (Client.asks_inPieces speech) settled fits
  commands _ := payload_eq_none_iff
  unsettled path command missing := by
    cases read : Definition.ofFile (files path) with
    | ok d => exact absurd ⟨d, Definition.isKept_of_ofFile read⟩ missing
    | error reason =>
      refine ⟨reason, fun dialed peer ↦ ?_⟩
      rw [run, command, ControllerCommand.payload, read]

/-- A peer that acknowledges the command before it has got it, in two pieces. -/
theorem run_decided_early :
    let o : ControllerOptions :=
      { host := "wall", port := 7000, name := "desk", timeout := 10, verbose := false,
        command := .playCue "cut" }
    let acks : List Message := [.ack "cmd-1", .ack "cmd-2"]
    let bytes := Message.stream acks
    let speech : List String → List Arrival := fun lines ↦
      if lines.length = 1 then
        [{ bytes := (bytes.take 20).toByteArray }, { bytes := (bytes.drop 20).toByteArray }]
      else []
    o.Decided (fun _ ↦ none) "cmd-1" "cmd-2" speech ∧
      (o.session "cmd-1" "cmd-2" (some (.playCue ⟨"cut"⟩)) (Client.askInPieces speech)).result =
        .ok () := by
  intro o acks bytes speech
  have fits : o.Fits (fun _ ↦ none) "cmd-1" "cmd-2" := by
    refine ⟨?_, ?_⟩
    · simp only [Message.Fits, Message.utf8ByteSize_encode]
      decide +kernel
    · rintro payload ⟨⟩
      simp only [Message.Fits, Message.utf8ByteSize_encode]
      decide +kernel
  have decided : o.Decided (fun _ ↦ none) "cmd-1" "cmd-2" speech := run_decided fits
  have read : Reading.ofLines (Splitter.fitting bytes) = acks.map .ok := by
    refine Reading.ofLines_stream (by decide) ?_
    simp only [Message.Fits, Message.utf8ByteSize_encode]
    decide +kernel
  have first : readings (o.onHello "cmd-1" speech) = acks.map .ok := by
    have joined : heard (o.onHello "cmd-1" speech) = bytes := by
      simp [onHello, heard, speech]
    rw [readings, joined, read]
  have second (payload : Payload) :
      readings (o.onCommand "cmd-1" "cmd-2" speech payload) = acks.map .ok := by
    have joined : heard (o.onCommand "cmd-1" "cmd-2" speech payload) = bytes := by
      simp [onCommand, onHello, heard, speech]
    rw [readings, joined, read]
  refine ⟨decided, (decided.pieces _ rfl).succeeds.2 ⟨⟨.ok (.ack "cmd-1"), ?_, _, rfl, rfl⟩,
    fun payload _ ↦ ⟨.ok (.ack "cmd-2"), ?_, _, rfl, rfl⟩⟩⟩
  · rw [first]
    rfl
  · rw [second]
    rfl

end ControllerOptions

end ShowControl
