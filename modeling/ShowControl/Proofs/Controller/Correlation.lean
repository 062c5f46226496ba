import ShowControl.Controller.ClientRun
import ShowControl.Proofs.Controller.Hearing

/-!
# Calls and lines

A client takes the lines of its peer one after the other, each once. A call that waits for a line
takes the first that no call before it has taken, and is answered by that line alone
(`ClientStep.Answers`); one that finds no such line leaves everything as it is, so that the line may
still come. What one call does to a client that follows its peer is said in `Follows.step`; a run of
calls is an induction from there (`run_correlated`).
-/

namespace ShowControl

/-- What a line says about the command with an id. -/
def Reading.verdict (commandId : String) : Reading → Except ClientError Unit
  | .error e => .error (.decode e)
  | .ok reply => Client.checkReply commandId reply

/-! ### Calls -/

namespace ClientStep

/-- The calls that wait for a line. -/
def awaits : ClientStep → Bool
  | .receive => true
  | .request _ _ => true
  | _ => false

/-- What arrives with a step. -/
def arrival? : ClientStep → Option Arrival
  | .arrive a => some a
  | .send m reaction => (reaction m.encode).toOption
  | .request m reaction => (reaction m.encode).toOption
  | _ => none

/-- The steps on one connection whose lines can all be written. -/
inductive Succeeds : ClientStep → Prop where
  | arrive (a : Arrival) : Succeeds (.arrive a)
  | receive : Succeeds .receive
  | send {m : Message} {reaction : Reaction} {a : Arrival} (fits : m.Fits)
    (reacts : reaction m.encode = .ok a) : Succeeds (.send m reaction)
  | request {m : Message} {reaction : Reaction} {a : Arrival} (fits : m.Fits)
    (reacts : reaction m.encode = .ok a) : Succeeds (.request m reaction)

/-- A call that waited for a line has come back with what a line says; the failures of the
connection come from no line. -/
def completes : ClientStep → ClientAnswer → Bool
  | .receive, .received (some (.error (.transport _))) => false
  | .receive, .received (some _) => true
  | .request _ _, .finished (.error (.transport _)) => false
  | .request _ _, .finished _ => true
  | _, _ => false

/-- The answer of a call that has taken this line. -/
inductive Answers : ClientStep → Reading → ClientAnswer → Prop where
  | received (m : Message) : Answers .receive (.ok m) (.received (some (.ok m)))
  | undecodable (e : DecodeError) :
    Answers .receive (.error e) (.received (some (.error (.decode e))))
  | acknowledged {m reply : Message} {reaction : Reaction}
    (ack : reply.payload = .ack m.commandId) :
    Answers (.request m reaction) (.ok reply) (.finished (.ok ()))
  | rejected {m reply : Message} {reaction : Reaction} {text : String}
    (error : reply.payload = .error m.commandId text) :
    Answers (.request m reaction) (.ok reply)
      (.finished (.error (.rejected m.commandId text)))
  | undecodableReply {m : Message} {reaction : Reaction} (e : DecodeError) :
    Answers (.request m reaction) (.error e) (.finished (.error (.decode e)))
  | unexpected {m reply : Message} {reaction : Reaction}
    (other : reply.replied? ≠ some m.commandId) :
    Answers (.request m reaction) (.ok reply)
      (.finished (.error (.unexpectedReply m.commandId reply.type)))

theorem Answers.completes_eq {step : ClientStep} {reading : Reading} {answer : ClientAnswer}
    (h : step.Answers reading answer) : step.completes answer = true := by
  cases h <;> rfl

theorem answers_receive (reading : Reading) :
    receive.Answers reading (.received (some (reading.mapError .decode))) := by
  cases reading with
  | error e => exact .undecodable e
  | ok m => exact .received m

theorem answers_request (m : Message) (reaction : Reaction) (reading : Reading) :
    (request m reaction).Answers reading (.finished (reading.verdict m.commandId)) := by
  cases reading with
  | error e => exact .undecodableReply e
  | ok reply =>
    rw [Reading.verdict, Client.checkReply]
    obtain ⟨id, payload⟩ := reply
    cases payload with
    | ack answered =>
      dsimp only
      split
      · next same => exact .acknowledged (congrArg Payload.ack same)
      · next other => exact .unexpected fun same ↦ other (Option.some.inj same)
    | error answered text =>
      dsimp only
      split
      · next same =>
        subst same
        exact .rejected rfl
      · next other => exact .unexpected fun same ↦ other (Option.some.inj same)
    | _ => exact .unexpected nofun

end ClientStep

namespace Client

/-! ### Following a peer -/

/-- A client at whose connection these arrivals have come, after so many of the lines have been
taken. It loses the connection only when no line can come any more. -/
inductive Follows (arrivals : List Arrival) (taken : ℕ) : Client → Prop where
  | connected {address : String} {s : Incoming} (follows : s.Follows arrivals taken) :
    Follows arrivals taken ⟨address, some s⟩
  | lost {address : String} (all : taken = (heardLines arrivals).length) (gone : IsOver arrivals) :
    Follows arrivals taken ⟨address, none⟩

variable {c : Client} {sofar : List Arrival} {taken : ℕ}

theorem getElem?_readings_of_all (all : taken = (heardLines sofar).length) :
    (readings sofar)[taken]? = none := by
  rw [getElem?_readings, List.getElem?_eq_none (Nat.le_of_eq all.symm), Option.map_none]

/-- More of the peer. -/
theorem Follows.arrive (h : c.Follows sofar taken) (a : Arrival) :
    (c.arrive a).Follows (sofar ++ [a]) taken := by
  cases h with
  | connected follows => exact .connected (follows.arrive a)
  | lost all finished =>
    obtain ⟨finished', same⟩ := finished.append [a]
    exact .lost (same ▸ all) finished'

/-- What looking for a message comes to after so many lines: the next line is taken if there is one;
otherwise it has not come yet, or the connection is lost. -/
inductive Hears (sofar : List Arrival) (taken : ℕ) :
    Client → Option (Except ClientError Message) → Prop where
  | takes {address : String} {s : Incoming} {reading : Reading}
    (here : (readings sofar)[taken]? = some reading) (follows : s.Follows sofar (taken + 1)) :
    Hears sofar taken ⟨address, some s⟩ (some (reading.mapError .decode))
  | waits {c : Client} (none : (readings sofar)[taken]? = none) (follows : c.Follows sofar taken) :
    Hears sofar taken c .none
  | fails {address : String} (reason : TransportError) (all : taken = (heardLines sofar).length)
    (finished : IsOver sofar) :
    Hears sofar taken ⟨address, none⟩ (some (.error (.transport reason)))

theorem Follows.receive (h : c.Follows sofar taken) :
    Hears sofar taken c.receive.1 c.receive.2 := by
  cases h with
  | lost all finished => exact .fails .notConnected all finished
  | @connected address s follows =>
    have all (none : (heardLines sofar)[taken]? = none) : taken = (heardLines sofar).length :=
      follows.count.antisymm (List.getElem?_eq_none_iff.1 none)
    have next := follows.next
    obtain ⟨⟨s', received⟩, eq⟩ : ∃ r, s.next = r := ⟨_, rfl⟩
    rw [eq] at next
    dsimp only at next
    rw [Client.receive]
    dsimp only
    rw [eq]
    cases next with
    | waiting none follows' =>
      exact .waits (getElem?_readings_of_all (all none)) (.connected follows')
    | line here follows' =>
      exact .takes (by rw [getElem?_readings, here, Option.map_some]) follows'
    | tooLarge reason none finished => exact .fails _ (all none) finished
    | ended none finished => exact .fails _ (all none) finished
    | broken reason none finished => exact .fails _ (all none) finished

/-- What a command comes to, by what has been read while its reply was waited for. -/
def settle (commandId : String) : Option (Except ClientError Message) → Except ClientError Unit
  | none => .error (.transport .timedOut)
  | some (.error reason) => .error reason
  | some (.ok reply) => checkReply commandId reply

theorem settle_mapError (commandId : String) (reading : Reading) :
    settle commandId (some (reading.mapError .decode)) = reading.verdict commandId := by
  cases reading <;> rfl

theorem send_of_fits {m : Message} {reaction : Reaction} {a : Arrival} (address : String)
    (s : Incoming) (fits : m.Fits) (reacts : reaction m.encode = .ok a) :
    send ⟨address, some s⟩ m reaction = (⟨address, some (s.arrive a)⟩, [m.encode], .ok ()) := by
  rw [send]
  dsimp only
  rw [Message.line?_of_fits fits]
  dsimp only
  rw [reacts]

theorem request_of_fits {m : Message} {reaction : Reaction} {a : Arrival} (address : String)
    (s : Incoming) (fits : m.Fits) (reacts : reaction m.encode = .ok a) :
    request ⟨address, some s⟩ m reaction =
      ((receive ⟨address, some (s.arrive a)⟩).1, [m.encode],
        settle m.commandId (receive ⟨address, some (s.arrive a)⟩).2) := by
  rw [request, send_of_fits address s fits reacts]
  dsimp only
  rcases receive ⟨address, some (s.arrive a)⟩ with ⟨c', _ | _ | _⟩ <;> rfl

/-! ### One step -/

/-- What has arrived with some steps. -/
def arrivals (steps : List ClientStep) : List Arrival := steps.filterMap ClientStep.arrival?

/-- What a step does to a client after these arrivals, its own among them, and so many lines: it
takes the next line, or nothing. -/
inductive Advances (arrivals : List Arrival) (taken : ℕ) (step : ClientStep) (c' : Client)
    (answer : ClientAnswer) : Prop where
  | takes {reading : Reading} (awaits : step.awaits = true)
    (here : (readings arrivals)[taken]? = some reading) (answers : step.Answers reading answer)
    (follows : c'.Follows arrivals (taken + 1))
  | passes (none : step.awaits = true → (readings arrivals)[taken]? = none)
    (incomplete : step.completes answer = false) (follows : c'.Follows arrivals taken)

/-- A client that has lost its connection takes nothing, and there is nothing to be taken. -/
theorem advances_of_lost {address : String} (all : taken = (heardLines sofar).length)
    (finished : IsOver sofar) {step : ClientStep} (succeeds : step.Succeeds) :
    Advances (sofar ++ step.arrival?.toList) taken step (Client.step ⟨address, none⟩ step).1
      (Client.step ⟨address, none⟩ step).2.answer := by
  obtain ⟨finished', same⟩ := finished.append step.arrival?.toList
  rw [← same] at all
  refine .passes (fun _ ↦ getElem?_readings_of_all all) ?_ ?_
  · cases succeeds <;> rfl
  · cases succeeds <;> exact .lost all finished'

/-- A call that looks for a line, where this is what it comes to. -/
theorem Hears.advances {step : ClientStep} {c' : Client}
    {heard? : Option (Except ClientError Message)} (h : Hears sofar taken c' heard?)
    (answer : Option (Except ClientError Message) → ClientAnswer) (awaits : step.awaits = true)
    (answers : ∀ reading : Reading,
      step.Answers reading (answer (some (reading.mapError .decode))))
    (waits : step.completes (answer none) = false)
    (fails : ∀ reason, step.completes (answer (some (.error (.transport reason)))) = false) :
    Advances sofar taken step c' (answer heard?) := by
  cases h with
  | takes here follows => exact .takes awaits here (answers _) (.connected follows)
  | waits nothing follows => exact .passes (fun _ ↦ nothing) waits follows
  | fails reason all finished =>
    exact .passes (fun _ ↦ getElem?_readings_of_all all) (fails reason) (.lost all finished)

/-- A step of a client that follows its peer. -/
theorem Follows.step (h : c.Follows sofar taken) {step : ClientStep} (succeeds : step.Succeeds) :
    Advances (sofar ++ step.arrival?.toList) taken step (c.step step).1 (c.step step).2.answer := by
  cases h with
  | lost all finished => exact advances_of_lost all finished succeeds
  | @connected address s follows =>
    cases succeeds with
    | arrive a => exact .passes nofun rfl (.connected (follows.arrive a))
    | @send m reaction a fits reacts =>
      rw [ClientStep.arrival?, reacts, Client.step, send_of_fits address s fits reacts]
      exact .passes nofun rfl (.connected (follows.arrive a))
    | receive =>
      show Advances (sofar ++ []) taken .receive _ _
      rw [List.append_nil]
      exact (Follows.connected follows).receive.advances .received rfl ClientStep.answers_receive
        rfl fun _ ↦ rfl
    | @request m reaction a fits reacts =>
      have written : Follows (sofar ++ [a]) taken ⟨address, some (s.arrive a)⟩ :=
        .connected (follows.arrive a)
      rw [ClientStep.arrival?, reacts, Client.step, request_of_fits address s fits reacts]
      refine written.receive.advances (fun heard? ↦ .finished (settle m.commandId heard?)) rfl
        (fun reading ↦ ?_) rfl fun _ ↦ rfl
      rw [settle_mapError]
      exact ClientStep.answers_request m reaction reading

/-! ### Runs -/

theorem run_concat (c : Client) (steps : List ClientStep) (step : ClientStep) :
    c.run (steps ++ [step]) =
      (((c.run steps).1.step step).1, (c.run steps).2 ++ [((c.run steps).1.step step).2]) := by
  rw [run, Transducer.run_append, Transducer.run_cons, Transducer.run_nil, List.append_nil]
  rfl

theorem length_run (c : Client) (steps : List ClientStep) :
    (c.run steps).2.length = steps.length := by
  induction steps using List.reverseRecOn with
  | nil => rfl
  | append_singleton steps step ih =>
    rw [run_concat, List.length_append, ih, List.length_append, List.length_singleton,
      List.length_singleton]

/-- The calls of a run that come back with what a line says, each with what it comes to, in
order. -/
def completed (c : Client) (steps : List ClientStep) : List (ClientStep × ClientOutcome) :=
  (steps.zip (c.run steps).2).filter fun call ↦ call.1.completes call.2.answer

theorem completed_concat (c : Client) (steps : List ClientStep) (step : ClientStep) :
    c.completed (steps ++ [step]) =
      c.completed steps ++
        if step.completes ((c.run steps).1.step step).2.answer then
          [(step, ((c.run steps).1.step step).2)]
        else [] := by
  rw [completed, run_concat, List.zip_append (c.length_run steps).symm, List.filter_append,
    completed]
  congr 1
  rw [List.zip_cons_cons, List.zip_nil_right, List.filter_singleton, Bool.cond_eq_ite]

theorem arrivals_concat (steps : List ClientStep) (step : ClientStep) :
    arrivals (steps ++ [step]) = arrivals steps ++ step.arrival?.toList := by
  rw [arrivals, List.filterMap_append, arrivals, List.filterMap_cons, List.filterMap_nil]
  cases step.arrival? <;> rfl

/-- How the calls of a run on one connection and the lines of the peer go together. -/
structure Correlated (c : Client) (steps : List ClientStep) : Prop where
  /-- The first call that completes has taken the first line, the second the second, and so on. -/
  answered : List.Forall₂ (fun call reading ↦ call.1.Answers reading call.2.answer)
    (c.completed steps) ((readings (arrivals steps)).take (c.completed steps).length)
  /-- Another call that waits for a line completes exactly if there is one that has not been
  taken. -/
  prompt : ∀ step : ClientStep, step.awaits = true → step.Succeeds →
    (step.completes ((c.run steps).1.step step).2.answer = true ↔
      (c.completed steps).length < (readings (arrivals (steps ++ [step]))).length)

/-- The lines that have been taken stay the first. -/
theorem take_readings (h : taken ≤ (readings sofar).length) (a : Option Arrival) :
    (readings (sofar ++ a.toList)).take taken = (readings sofar).take taken := by
  cases a with
  | none => rw [Option.toList_none, List.append_nil]
  | some a =>
    obtain ⟨more, all⟩ := readings_prefix_append sofar [a]
    rw [Option.toList_some, ← all, List.take_append_of_le_length h]

theorem Follows.le_length (h : c.Follows sofar taken) : taken ≤ (readings sofar).length := by
  rw [length_readings]
  cases h with
  | connected follows => exact follows.count
  | lost all => exact all.le

/-- After a run the client follows its peer, and the calls that have completed have taken one line
each, in order. -/
theorem follows_run {c : Client} (fresh : c.connection = some {}) {steps : List ClientStep}
    (succeed : ∀ step ∈ steps, step.Succeeds) :
    (c.run steps).1.Follows (arrivals steps) (c.completed steps).length ∧
      List.Forall₂ (fun call reading ↦ call.1.Answers reading call.2.answer) (c.completed steps)
        ((readings (arrivals steps)).take (c.completed steps).length) := by
  induction steps using List.reverseRecOn with
  | nil =>
    obtain ⟨address, connection⟩ := c
    obtain rfl : connection = some {} := fresh
    exact ⟨.connected Incoming.follows_empty, .nil⟩
  | append_singleton steps step ih =>
    obtain ⟨before, last⟩ := List.forall_mem_append.1 succeed
    obtain ⟨follows, answered⟩ := ih before
    have same := take_readings follows.le_length step.arrival?
    have advances := follows.step (last step List.mem_cons_self)
    rw [run_concat, completed_concat, arrivals_concat]
    cases advances with
    | @takes reading awaits here answers follows' =>
      rw [if_pos answers.completes_eq, List.length_append, List.length_singleton,
        List.take_add_one, same, here]
      exact ⟨follows', List.rel_append answered (.cons answers .nil)⟩
    | passes none incomplete follows' =>
      rw [if_neg (by simp [incomplete]), List.append_nil, same]
      exact ⟨follows', answered⟩

/-- Calls and lines go together in every run on one connection whose lines can be written, whatever
arrives and however it comes in pieces. -/
theorem run_correlated {c : Client} (fresh : c.connection = some {}) {steps : List ClientStep}
    (succeed : ∀ step ∈ steps, step.Succeeds) : Correlated c steps := by
  obtain ⟨follows, answered⟩ := follows_run fresh succeed
  refine ⟨answered, fun step awaits succeeds ↦ ?_⟩
  rw [arrivals_concat, ← not_iff_not, Nat.not_lt, ← List.getElem?_eq_none_iff,
    Bool.not_eq_true]
  cases follows.step succeeds with
  | takes _ here answers => simp [here, answers.completes_eq]
  | passes none incomplete => exact ⟨fun _ ↦ none awaits, fun _ ↦ incomplete⟩

/-- The acknowledgment of a command comes too late and is cut in two; the next command takes it, and
its own acknowledgment is left for the call after that. -/
theorem run_correlated_late :
    let acks : List Message := [.ack "cmd-1", .ack "cmd-2"]
    let bytes := Message.stream acks
    let steps : List ClientStep :=
      [.request ⟨"cmd-1", .playCue ⟨"fade"⟩⟩ fun _ ↦ .ok { bytes := (bytes.take 20).toByteArray },
        .arrive {},
        .request ⟨"cmd-2", .playCue ⟨"cut"⟩⟩ fun _ ↦ .ok { bytes := (bytes.drop 20).toByteArray },
        .receive]
    let c : Client := { address := "wall:7000", connection := some {} }
    Correlated c steps ∧ readings (arrivals steps) = acks.map .ok := by
  intro acks bytes steps c
  have fits : ∀ m ∈ [(⟨"cmd-1", .playCue ⟨"fade"⟩⟩ : Message), ⟨"cmd-2", .playCue ⟨"cut"⟩⟩],
      m.Fits := by
    simp only [Message.Fits, Message.utf8ByteSize_encode]
    decide +kernel
  have succeed : ∀ step ∈ steps, step.Succeeds := by
    simp only [steps, List.forall_mem_cons]
    exact ⟨.request (fits _ (by simp)) rfl, .arrive _, .request (fits _ (by simp)) rfl, .receive,
      nofun⟩
  refine ⟨run_correlated rfl succeed, ?_⟩
  have joined : heard (arrivals steps) = bytes := by
    show heard [{ bytes := (bytes.take 20).toByteArray }, {},
      { bytes := (bytes.drop 20).toByteArray }] = _
    simp [heard]
  rw [readings, joined]
  refine Reading.ofLines_stream (by decide) ?_
  simp only [Message.Fits, Message.utf8ByteSize_encode]
  decide +kernel

end Client

end ShowControl
