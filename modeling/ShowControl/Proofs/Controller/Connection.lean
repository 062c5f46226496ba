import ShowControl.Proofs.Controller.Correlation
import ShowControl.Proofs.Lasting

/-!
# The connection of a client

A client has one connection or none, and it gets and loses it many times. What it does to it shows
in the answers of its calls: a call that connects starts a connection, and a disconnect or an answer
that tells of a loss (`ClientError.isLoss`) ends it. So the calls so far tell whether there is a
connection (`Client.Life.connected`), and no other answer changes it.

Behind that is what the connection holds. The arrivals that count are those since it was made
(`Client.overheard`), and a connected client follows these alone (`Client.Tuned`): what is left of
an earlier connection, a line that was cut in two among it, is gone with that connection. The step
lemma is `Client.Tuned.step`; it says at once what becomes of the connection and where a line comes
from that a call returns. A request is a sending and a receiving, and a handshake may connect before
it, so each of these has one lemma that lists its outcomes (`Client.sending`, `Client.receiving`).
-/

namespace ShowControl

/-! ### Answers that tell of the connection -/

/-- The failure tells that the connection is lost. -/
def ClientError.isLoss : ClientError → Bool
  | .transport (.sendFailed _) => true
  | .transport (.receiveFailed _) => true
  | .transport .closed => true
  | _ => false

/-- The failure that a call comes back with. -/
def ClientAnswer.failure? : ClientAnswer → Option ClientError
  | .finished (.error reason) => some reason
  | .received (some (.error reason)) => some reason
  | _ => none

namespace ClientStep

/-- The call makes a connection where there is none. -/
def connects : ClientStep → Bool
  | .connect (.ok ()) => true
  | .handshake (.ok ()) _ _ _ => true
  | _ => false

/-- A handshake asks as a request does, once there is a connection. -/
def asRequest : ClientStep → ClientStep
  | .handshake _ commandId name reaction =>
    .request (Client.introduction commandId name) reaction
  | step => step

end ClientStep

/-- A call with what it comes to. -/
abbrev ClientCall := ClientStep × ClientOutcome

namespace ClientCall

/-- The call disconnects, or tells that the connection is lost. -/
def ends : ClientCall → Bool
  | (.disconnect, _) => true
  | (_, outcome) => outcome.answer.failure?.any ClientError.isLoss

/-- The call connects, and does not lose the connection again. -/
def starts (call : ClientCall) : Bool := call.1.connects && !call.ends

/-- What arrives with the call. -/
def arrival? (call : ClientCall) : Option Arrival := call.1.asRequest.arrival?

end ClientCall

namespace Client

/-! ### What has been heard over the present connection -/

/-- What has arrived over the connection that a call works with: nothing over a new one. -/
def opened (step : ClientStep) : Option (List Arrival) → Option (List Arrival)
  | some sofar => some sofar
  | none => if step.connects then some [] else none

/-- What has arrived over the connection that there is after a call, by what had arrived before. -/
def overhear (sofar? : Option (List Arrival)) (call : ClientCall) : Option (List Arrival) :=
  if call.ends then none
  else (opened call.1 sofar?).map fun sofar ↦ sofar ++ call.arrival?.toList

/-- What has arrived over the connection that there is after some calls. -/
def overheard (calls : List ClientCall) : Option (List Arrival) := calls.foldl overhear none

/-- A client over whose connection this has arrived. -/
inductive Tuned (address : String) : Option (List Arrival) → Client → Prop where
  | off : Tuned address none ⟨address, none⟩
  | on {s : Incoming} {sofar : List Arrival} {taken : ℕ}
    (follows : s.Follows sofar taken) : Tuned address (some sofar) ⟨address, some s⟩

variable {address : String} {c : Client} {sofar? : Option (List Arrival)}

theorem Tuned.isConnected_eq (h : Tuned address sofar? c) : c.isConnected = sofar?.isSome := by
  cases h <;> rfl

theorem Tuned.eq_of_isConnected (h : Tuned address sofar? c) (off : c.isConnected = false) :
    c = { address } := by
  cases h with
  | off => rfl
  | on => cases off

theorem overhear_of_ends {call : ClientCall} (ends : call.ends = true) :
    overhear sofar? call = none := if_pos ends

theorem overhear_of_stays {call : ClientCall} (stays : call.ends = false) :
    overhear sofar? call =
      (opened call.1 sofar?).map fun sofar ↦ sofar ++ call.arrival?.toList :=
  if_neg (Bool.eq_false_iff.1 stays)

theorem isSome_overhear (sofar? : Option (List Arrival)) (call : ClientCall) :
    (overhear sofar? call).isSome = true ↔
      call.starts = true ∨ (sofar?.isSome = true ∧ ¬call.ends = true) := by
  rw [ClientCall.starts]
  rcases ends : call.ends with _ | _
  · rw [overhear_of_stays ends, Option.isSome_map]
    rcases sofar? with _ | sofar
    · rw [opened]
      rcases call.1.connects with _ | _ <;> simp
    · simp [opened]
  · rw [overhear_of_ends ends]
    simp

/-! ### The parts of a call -/

/-- What sending comes to. -/
inductive Sending (c : Client) (m : Message) (reaction : Reaction) :
    Client × List String × Except ClientError Unit → Prop where
  | unconnected (off : c.connection = none) :
    Sending c m reaction (c, [], .error (.transport .notConnected))
  | fails {s : Incoming} (on : c.connection = some s) (reason : StreamError) :
    Sending c m reaction (c.disconnect, [], .error (.transport (.sendFailed reason)))
  | sends {s : Incoming} {a : Arrival} (on : c.connection = some s)
    (reacts : reaction m.encode = .ok a) :
    Sending c m reaction ({ c with connection := some (s.arrive a) }, [m.encode], .ok ())

theorem sending (c : Client) (m : Message) (reaction : Reaction) :
    Sending c m reaction (c.send m reaction) := by
  rcases on : c.connection with _ | s
  · rw [send, on]
    exact .unconnected on
  · rw [send, on]
    dsimp only
    rcases sent : m.line? with reason | line
    · exact .fails on _
    · obtain ⟨-, rfl⟩ := Message.line?_eq_ok_iff.1 sent
      dsimp only
      rcases reacts : reaction m.encode with reason | a
      · exact .fails on _
      · exact .sends on reacts

/-- What receiving comes to. -/
inductive Receiving (c : Client) : Client × Option (Except ClientError Message) → Prop where
  | unconnected (off : c.connection = none) :
    Receiving c (c, some (.error (.transport .notConnected)))
  | fails {s : Incoming} (on : c.connection = some s) {reason : ClientError}
    (loss : reason.isLoss = true) : Receiving c (c.disconnect, some (.error reason))
  | waits {s s' : Incoming} (on : c.connection = some s) (next : s.next = (s', .waiting)) :
    Receiving c ({ c with connection := some s' }, none)
  | takes {s s' : Incoming} {text : ByteArray} (on : c.connection = some s)
    (next : s.next = (s', .line text)) :
    Receiving c ({ c with connection := some s' },
      some ((Message.decodeBytes text).mapError .decode))

theorem receiving (c : Client) : Receiving c c.receive := by
  rcases on : c.connection with _ | s
  · rw [receive, on]
    exact .unconnected on
  · rw [receive, on]
    dsimp only
    rcases next : s.next with ⟨s', _ | text | reason | _ | reason⟩
    · exact .waits on next
    · exact .takes on next
    · exact .fails on rfl
    · exact .fails on rfl
    · exact .fails on rfl

/-- What receiving comes to, by what has been heard. -/
inductive Finds (address : String) (sofar? : Option (List Arrival)) :
    Client → Option (Except ClientError Message) → Prop where
  | unconnected {c : Client} (off : sofar? = none) (tuned : Tuned address none c) :
    Finds address sofar? c (some (.error (.transport .notConnected)))
  | loses {c : Client} {reason : ClientError} (tuned : Tuned address none c)
    (loss : reason.isLoss = true) : Finds address sofar? c (some (.error reason))
  | waits {c : Client} {sofar : List Arrival} (on : sofar? = some sofar)
    (tuned : Tuned address (some sofar) c) : Finds address sofar? c none
  | takes {c : Client} {sofar : List Arrival} {reading : Reading} (on : sofar? = some sofar)
    (tuned : Tuned address (some sofar) c) (heard : reading ∈ readings sofar) :
    Finds address sofar? c (some (reading.mapError .decode))

theorem Tuned.receive (h : Tuned address sofar? c) :
    Finds address sofar? c.receive.1 c.receive.2 := by
  have found := c.receiving
  obtain ⟨⟨c', result⟩, eq⟩ : ∃ r, c.receive = r := ⟨_, rfl⟩
  rw [eq] at found ⊢
  dsimp only
  cases h with
  | off =>
    cases found with
    | unconnected => exact .unconnected rfl .off
    | _ on => cases on
  | @on s sofar taken follows =>
    have takes := follows.next
    cases found with
    | unconnected off => cases off
    | fails on loss => exact .loses .off loss
    | waits on next =>
      obtain rfl := Option.some.inj on
      rw [next] at takes
      cases takes with
      | waiting none follows' => exact .waits rfl (.on follows')
    | takes on next =>
      obtain rfl := Option.some.inj on
      rw [next] at takes
      cases takes with
      | line here follows' =>
        refine .takes rfl (.on follows') (List.mem_of_getElem? (i := taken) ?_)
        rw [getElem?_readings, here, Option.map_some]

/-- What sending comes to, by what has been heard. -/
inductive Writes (address : String) (sofar? : Option (List Arrival)) (m : Message)
    (reaction : Reaction) : Client → Except ClientError Unit → Prop where
  | unconnected {c : Client} (off : sofar? = none) (tuned : Tuned address none c) :
    Writes address sofar? m reaction c (.error (.transport .notConnected))
  | loses {c : Client} {reason : ClientError} (tuned : Tuned address none c)
    (loss : reason.isLoss = true) : Writes address sofar? m reaction c (.error reason)
  | sends {c : Client} {sofar : List Arrival} {a : Arrival} (on : sofar? = some sofar)
    (reacts : reaction m.encode = .ok a) (tuned : Tuned address (some (sofar ++ [a])) c) :
    Writes address sofar? m reaction c (.ok ())

theorem Tuned.send (h : Tuned address sofar? c) (m : Message) (reaction : Reaction) :
    Writes address sofar? m reaction (c.send m reaction).1 (c.send m reaction).2.2 := by
  have sent := c.sending m reaction
  obtain ⟨⟨c', written, result⟩, eq⟩ : ∃ r, c.send m reaction = r := ⟨_, rfl⟩
  rw [eq] at sent ⊢
  dsimp only
  cases h with
  | off =>
    cases sent with
    | unconnected => exact .unconnected rfl .off
    | _ on => cases on
  | on follows =>
    cases sent with
    | unconnected off => cases off
    | fails on reason => exact .loses .off rfl
    | sends on reacts =>
      obtain rfl := Option.some.inj on
      exact .sends rfl reacts (.on (follows.arrive _))

/-- What a request comes to, by what has been heard. -/
inductive Requests (address : String) (sofar? : Option (List Arrival)) (m : Message)
    (reaction : Reaction) : Client → Except ClientError Unit → Prop where
  | unconnected {c : Client} (off : sofar? = none) (tuned : Tuned address none c) :
    Requests address sofar? m reaction c (.error (.transport .notConnected))
  | loses {c : Client} {reason : ClientError} (tuned : Tuned address none c)
    (loss : reason.isLoss = true) : Requests address sofar? m reaction c (.error reason)
  | late {c : Client} {sofar : List Arrival} {a : Arrival} (on : sofar? = some sofar)
    (reacts : reaction m.encode = .ok a) (tuned : Tuned address (some (sofar ++ [a])) c) :
    Requests address sofar? m reaction c (.error (.transport .timedOut))
  | answered {c : Client} {sofar : List Arrival} {a : Arrival} {reading : Reading}
    (on : sofar? = some sofar) (reacts : reaction m.encode = .ok a)
    (tuned : Tuned address (some (sofar ++ [a])) c) (heard : reading ∈ readings (sofar ++ [a])) :
    Requests address sofar? m reaction c (reading.verdict m.commandId)

theorem Tuned.request (h : Tuned address sofar? c) (m : Message) (reaction : Reaction) :
    Requests address sofar? m reaction (c.request m reaction).1 (c.request m reaction).2.2 := by
  have sent := h.send m reaction
  obtain ⟨⟨c', written, result⟩, eq⟩ : ∃ r, c.send m reaction = r := ⟨_, rfl⟩
  rw [eq] at sent
  rw [Client.request, eq]
  cases sent with
  | unconnected off tuned => exact .unconnected off tuned
  | loses tuned loss => exact .loses tuned loss
  | sends on reacts tuned =>
    have found := tuned.receive
    obtain ⟨⟨c'', heard?⟩, eq'⟩ : ∃ r, c'.receive = r := ⟨_, rfl⟩
    rw [eq'] at found
    dsimp only
    rw [eq']
    cases found with
    | unconnected off => cases off
    | loses tuned' loss => exact .loses tuned' loss
    | waits on' tuned' =>
      obtain rfl := Option.some.inj on'
      exact .late on reacts tuned'
    | @takes _ reading on' tuned' heard =>
      obtain rfl := Option.some.inj on'
      have answered : Requests address sofar? m reaction c'' (reading.verdict m.commandId) :=
        .answered on reacts tuned' heard
      rcases reading with reason | reply
      · exact answered
      · exact answered

/-! ### One call -/

/-- What a call does to a client, by what has been heard: the client goes on with what has been
heard behind the call, and what the call returns of a line is among it. -/
structure Tracks (address : String) (sofar? : Option (List Arrival)) (step : ClientStep)
    (c' : Client) (outcome : ClientOutcome) : Prop where
  tuned : Tuned address (overhear sofar? (step, outcome)) c'
  returned : step.asRequest.completes outcome.answer = true →
    ∃ sofar, overhear sofar? (step, outcome) = some sofar ∧
      ∃ reading ∈ readings sofar, step.asRequest.Answers reading outcome.answer

/-- What a line says is no loss. -/
theorem not_isLoss_verdict (commandId : String) (reading : Reading) :
    (ClientAnswer.finished (reading.verdict commandId)).failure?.any ClientError.isLoss =
      false := by
  rcases reading with reason | reply
  · rfl
  · rw [Reading.verdict, checkReply]
    split
    · split <;> rfl
    · split <;> rfl
    · rfl

/-- A loss comes from no line. -/
theorem completes_of_isLoss {reason : ClientError} (loss : reason.isLoss = true) (m : Message)
    (reaction : Reaction) :
    (ClientStep.request m reaction).completes (.finished (.error reason)) = false := by
  cases reason with
  | transport reason => rfl
  | _ => cases loss

theorem ends_eq {step : ClientStep} (other : step ≠ .disconnect) (outcome : ClientOutcome) :
    ClientCall.ends (step, outcome) = outcome.answer.failure?.any ClientError.isLoss := by
  cases step with
  | disconnect => exact absurd rfl other
  | _ => rfl

/-- A request by itself, or behind the connecting of a handshake. -/
theorem Requests.tracks {start? : Option (List Arrival)} {m : Message} {reaction : Reaction}
    {c' : Client} {result : Except ClientError Unit}
    (h : Requests address start? m reaction c' result)
    {step : ClientStep} (start : opened step sofar? = start?)
    (asks : step.asRequest = .request m reaction) (written : List String) :
    Tracks address sofar? step c' { answer := .finished result, written } := by
  subst start
  have other : step ≠ .disconnect := by
    rintro rfl
    cases asks
  have ends := ends_eq other { answer := .finished result, written }
  -- where the request goes through, what arrives on it is all that the call adds
  have goes_on {sofar : List Arrival} {a : Arrival} (on : opened step sofar? = some sofar)
      (reacts : reaction m.encode = .ok a)
      (stays : (ClientAnswer.finished result).failure?.any ClientError.isLoss = false) :
      overhear sofar? (step, { answer := .finished result, written }) = some (sofar ++ [a]) := by
    rw [overhear_of_stays (ends.trans stays), on, ClientCall.arrival?, asks, ClientStep.arrival?,
      reacts]
    rfl
  constructor
  case tuned =>
    cases h with
    | unconnected off tuned =>
      rw [overhear_of_stays ends, off]
      exact tuned
    | loses tuned loss =>
      rw [overhear_of_ends (ends.trans loss)]
      exact tuned
    | late on reacts tuned =>
      rw [goes_on on reacts rfl]
      exact tuned
    | answered on reacts tuned heard =>
      rw [goes_on on reacts (not_isLoss_verdict _ _)]
      exact tuned
  case returned =>
    rw [asks]
    intro completes
    cases h with
    | unconnected off tuned => cases completes
    | loses tuned loss =>
      rw [completes_of_isLoss loss] at completes
      cases completes
    | late on reacts tuned => cases completes
    | answered on reacts tuned heard =>
      exact ⟨_, goes_on on reacts (not_isLoss_verdict _ _), _, heard,
        ClientStep.answers_request m reaction _⟩

/-- Sending returns nothing of a line. -/
theorem Writes.tracks {m : Message} {reaction : Reaction} {c' : Client}
    {result : Except ClientError Unit} (h : Writes address sofar? m reaction c' result)
    (written : List String) :
    Tracks address sofar? (.send m reaction) c' { answer := .finished result, written } := by
  refine ⟨?_, fun completes ↦ by cases completes⟩
  cases h with
  | unconnected off tuned =>
    rw [off]
    exact tuned
  | @loses reason tuned loss =>
    have lost : ClientCall.ends
        (.send m reaction, { answer := .finished (.error reason), written }) = true := loss
    rw [overhear_of_ends lost]
    exact tuned
  | sends on reacts tuned =>
    have arrives (outcome : ClientOutcome) :
        ClientCall.arrival? (.send m reaction, outcome) = (reaction m.encode).toOption := rfl
    rw [overhear_of_stays rfl, on, arrives, reacts]
    exact tuned

/-- Receiving adds nothing to what has been heard. -/
theorem Finds.tracks {c' : Client} {heard? : Option (Except ClientError Message)}
    (h : Finds address sofar? c' heard?) :
    Tracks address sofar? .receive c' { answer := .received heard? } := by
  have same {sofar : List Arrival} {outcome : ClientOutcome} (on : sofar? = some sofar)
      (stays : ClientCall.ends (.receive, outcome) = false) :
      overhear sofar? (.receive, outcome) = some sofar := by
    rw [overhear_of_stays stays, on]
    exact congrArg some (List.append_nil sofar)
  cases h with
  | unconnected off tuned =>
    refine ⟨?_, fun completes ↦ by cases completes⟩
    rw [off]
    exact tuned
  | @loses reason tuned loss =>
    have lost : ClientCall.ends
        (.receive, { answer := .received (some (.error reason)) }) = true := loss
    refine ⟨?_, fun completes ↦ ?_⟩
    · rw [overhear_of_ends lost]
      exact tuned
    · cases reason with
      | transport reason => cases completes
      | _ => cases loss
  | waits on tuned =>
    refine ⟨?_, fun completes ↦ by cases completes⟩
    rw [same on rfl]
    exact tuned
  | @takes sofar reading on tuned heard =>
    have stays : ClientCall.ends
        (.receive, { answer := .received (some (reading.mapError .decode)) }) = false := by
      rcases reading with reason | reply <;> rfl
    refine ⟨?_, fun _ ↦ ⟨sofar, same on stays, reading, heard, ?_⟩⟩
    · rw [same on stays]
      exact tuned
    · exact ClientStep.answers_receive reading

/-- The connection and what has been heard over it go on together. -/
theorem Tuned.step (h : Tuned address sofar? c) (step : ClientStep) :
    Tracks address sofar? step (c.step step).1 (c.step step).2 := by
  cases step with
  | connect dialed =>
    refine ⟨?_, fun completes ↦ by cases completes⟩
    cases h with
    | off =>
      rcases dialed with reason | ⟨⟩
      · rcases reason with reason | _
        · exact .off
        · exact .off
      · exact .on Incoming.follows_empty
    | @on s sofar taken follows =>
      show Tuned address (some (sofar ++ [])) _
      rw [List.append_nil]
      exact .on follows
  | disconnect =>
    refine ⟨?_, fun completes ↦ by cases completes⟩
    cases h with
    | off => exact .off
    | on => exact .off
  | arrive a =>
    refine ⟨?_, fun completes ↦ by cases completes⟩
    cases h with
    | off => exact .off
    | on follows => exact .on (follows.arrive a)
  | send m reaction => exact (h.send m reaction).tracks _
  | receive => exact h.receive.tracks
  | request m reaction =>
    refine (h.request m reaction).tracks ?_ rfl _
    rcases sofar? with _ | sofar <;> rfl
  | handshake dialed commandId name reaction =>
    cases h with
    | off =>
      rcases dialed with reason | ⟨⟩
      · refine ⟨?_, fun completes ↦ by cases completes⟩
        rcases reason with reason | _
        · exact .off
        · exact .off
      · exact (Tuned.on Incoming.follows_empty).request _ reaction |>.tracks rfl rfl _
    | on follows => exact (Tuned.on follows).request _ reaction |>.tracks rfl rfl _

/-! ### Runs -/

/-- The calls of a run, each with what it comes to. -/
def history (c : Client) (steps : List ClientStep) : List ClientCall := steps.zip (c.run steps).2

theorem history_concat (c : Client) (steps : List ClientStep) (step : ClientStep) :
    c.history (steps ++ [step]) =
      c.history steps ++ [(step, ((c.run steps).1.step step).2)] := by
  rw [history, run_concat, List.zip_append (c.length_run steps).symm, history]
  rfl

theorem overheard_concat (calls : List ClientCall) (call : ClientCall) :
    overheard (calls ++ [call]) = overhear (overheard calls) call := List.foldl_concat ..

/-- After a run a client follows what has arrived over the connection that it has. -/
theorem tuned_run (address : String) (steps : List ClientStep) :
    Tuned address (overheard (history { address } steps)) (run { address } steps).1 := by
  induction steps using List.reverseRecOn with
  | nil => exact .off
  | append_singleton steps step ih =>
    rw [history_concat, overheard_concat, run_concat]
    exact (ih.step step).tuned

/-- One of the calls has made a connection, and none behind it has ended it. -/
def Linked (calls : List ClientCall) : Prop :=
  Lasting (fun call ↦ call.starts = true) (fun call ↦ call.ends = true) calls

theorem linked_concat_iff {calls : List ClientCall} {call : ClientCall} :
    Linked (calls ++ [call]) ↔ call.starts = true ∨ (Linked calls ∧ ¬call.ends = true) :=
  lasting_concat_iff

theorem isSome_overheard_iff (calls : List ClientCall) :
    (overheard calls).isSome = true ↔ Linked calls := by
  induction calls using List.reverseRecOn with
  | nil => exact iff_of_false Bool.false_ne_true not_lasting_nil
  | append_singleton calls call ih =>
    rw [overheard_concat, isSome_overhear, ih, linked_concat_iff]

/-- The last calls of a history are those on the present connection: there was none before them, the
first of them has made it, and no other of them has ended it. -/
structure OnPresent (calls since : List ClientCall) : Prop where
  unlinked : ∃ before, calls = before ++ since ∧ ¬Linked before
  made : ∃ first rest, since = first :: rest ∧ first.starts = true ∧
    ∀ later ∈ rest, ¬later.ends = true

theorem onPresent_singleton {calls : List ClientCall} (unlinked : ¬Linked calls)
    {call : ClientCall} (starts : call.starts = true) : OnPresent (calls ++ [call]) [call] :=
  ⟨⟨calls, rfl, unlinked⟩, call, [], rfl, starts, List.forall_mem_nil _⟩

theorem OnPresent.concat {calls since : List ClientCall} (h : OnPresent calls since)
    {call : ClientCall} (stays : call.ends = false) :
    OnPresent (calls ++ [call]) (since ++ [call]) := by
  obtain ⟨⟨before, rfl, unlinked⟩, first, rest, rfl, starts, lasts⟩ := h
  refine ⟨⟨before, List.append_assoc .., unlinked⟩, first, rest ++ [call], rfl, starts, ?_⟩
  exact List.forall_mem_append.2 ⟨lasts, List.forall_mem_singleton.2 (by simp [stays])⟩

/-- What has arrived with some calls. -/
def arrived (calls : List ClientCall) : List Arrival :=
  arrivals (calls.map fun call ↦ call.1.asRequest)

theorem arrived_concat (calls : List ClientCall) (call : ClientCall) :
    arrived (calls ++ [call]) = arrived calls ++ call.arrival?.toList := by
  rw [arrived, List.map_append, List.map_singleton, arrivals_concat]
  rfl

/-- What has been heard is what has arrived with the calls on the present connection. -/
theorem onPresent_of_overheard {calls : List ClientCall} {sofar : List Arrival}
    (h : overheard calls = some sofar) :
    ∃ since, OnPresent calls since ∧ sofar = arrived since := by
  induction calls using List.reverseRecOn generalizing sofar with
  | nil => cases h
  | append_singleton calls call ih =>
    rw [overheard_concat] at h
    have stays : call.ends = false := by
      rw [Bool.eq_false_iff]
      intro ends
      rw [overhear_of_ends ends] at h
      cases h
    rw [overhear_of_stays stays] at h
    rcases before : overheard calls with _ | sofar'
    · have unlinked : ¬Linked calls := by simp [← isSome_overheard_iff, before]
      rw [before, opened] at h
      rcases connects : call.1.connects with _ | _
      · rw [connects] at h
        cases h
      · rw [connects] at h
        obtain rfl := Option.some.inj h
        have starts : call.starts = true := by rw [ClientCall.starts, connects, stays]; rfl
        exact ⟨[call], onPresent_singleton unlinked starts, (arrived_concat [] call).symm⟩
    · obtain ⟨since, present, rfl⟩ := ih before
      rw [before] at h
      obtain rfl := Option.some.inj h
      exact ⟨since ++ [call], present.concat stays, (arrived_concat since call).symm⟩

/-! ### The life of a connection -/

theorem step_connect_of_connected (on : c.isConnected = true) (dialed : Except DialError Unit) :
    c.step (.connect dialed) = (c, { answer := .finished (.ok ()) }) := by
  obtain ⟨address, _ | s⟩ := c
  · cases on
  · rfl

/-- What there is to say of the connection of a client of a renderer at an address, after these
calls. -/
structure Life (address : String) (calls : List ClientCall) (c : Client) : Prop where
  /-- There is a connection exactly if a call has made one that none behind it has ended. -/
  connected : c.isConnected = true ↔ Linked calls
  /-- A call makes one only by connecting, -/
  gains : c.isConnected = false → ∀ step : ClientStep,
    ((c.step step).1.isConnected = true ↔ ClientCall.starts (step, (c.step step).2) = true)
  /-- and one is gone exactly with a disconnect or an answer that tells of the loss. -/
  loses : c.isConnected = true → ∀ step : ClientStep,
    ((c.step step).1.isConnected = false ↔ ClientCall.ends (step, (c.step step).2) = true)
  /-- Connecting where there is a connection changes nothing. -/
  idempotent : c.isConnected = true → ∀ dialed,
    c.step (.connect dialed) = (c, { answer := .finished (.ok ()) })
  /-- Where there is none, a call that needs one says so and does nothing. -/
  unconnected : c.isConnected = false →
    (∀ m reaction, c.step (.send m reaction) =
      (c, { answer := .finished (.error (.transport .notConnected)) })) ∧
    c.step .receive = (c, { answer := .received (some (.error (.transport .notConnected))) }) ∧
    ∀ m reaction, c.step (.request m reaction) =
      (c, { answer := .finished (.error (.transport .notConnected)) })
  /-- Nothing is left of a connection that is gone. -/
  forgotten : c.isConnected = false → c = { address }
  /-- A call that comes back with what a line says has the line from the present connection. -/
  returned : ∀ step : ClientStep, step.asRequest.completes (c.step step).2.answer = true →
    ∃ since, OnPresent (calls ++ [(step, (c.step step).2)]) since ∧
      ∃ reading ∈ readings (arrived since), step.asRequest.Answers reading (c.step step).2.answer

/-- The connection of a client is made and lost in this way in every run, whatever the peer does. -/
theorem run_linked (address : String) (steps : List ClientStep) :
    Life address (history { address } steps) (run { address } steps).1 := by
  have tuned := tuned_run address steps
  have connected := tuned.isConnected_eq
  have changes (step : ClientStep) := (tuned.step step).tuned.isConnected_eq.symm ▸
    isSome_overhear (overheard (history { address } steps))
      (step, ((run { address } steps).1.step step).2)
  constructor
  case connected => rw [connected, isSome_overheard_iff]
  case gains =>
    intro off step
    rw [changes step, ← connected, off]
    simp
  case loses =>
    intro on step
    rw [← Bool.not_eq_true, changes step, ← connected, on, ClientCall.starts]
    rcases ClientCall.ends (step, ((run { address } steps).1.step step).2) with _ | _ <;> simp
  case idempotent => exact step_connect_of_connected
  case unconnected =>
    intro off
    rw [tuned.eq_of_isConnected off]
    exact ⟨fun _ _ ↦ rfl, rfl, fun _ _ ↦ rfl⟩
  case forgotten => exact tuned.eq_of_isConnected
  case returned =>
    intro step completes
    obtain ⟨sofar, heard, reading, here, answers⟩ := (tuned.step step).returned completes
    rw [← overheard_concat] at heard
    obtain ⟨since, present, rfl⟩ := onPresent_of_overheard heard
    exact ⟨since, present, reading, here, answers⟩

end Client

end ShowControl
