import ShowControl.Proofs.Frame.Taking
import ShowControl.Proofs.Renderer.Link

/-!
# How a renderer gets registered

A renderer that has introduced itself is told by the first line that comes back whether it is
registered (`Link.Verdict`). Of the lines behind the first none is lost and none is answered early,
also where the first one arrives in a piece with them (`Link.establishes`).

While the link waits, its inbox holds what has not been taken; once it is registered, the service
has answered what has come behind the first line. This is what one piece after the other preserves
(`Link.Opening.receive`).
-/

namespace ShowControl

open Splitter Reading
open Service (Answered)

namespace Link

variable {σ : Type} {h : Handler σ} {name helloId : String} {state : σ}
variable {l : Link σ} {written : List String} {chunks : List ByteArray}

/-! ### What the first line says -/

/-- What is settled by the lines that have come back, and by whether a line over the limit follows
them. -/
inductive Verdict (helloId : String) : List Reading → Bool → LinkStatus → Prop where
  | waiting : Verdict helloId [] false .waiting
  | tooLarge (e : FrameTooLarge) :
    Verdict helloId [] true (.failed (.transport (.receiveFailed (.tooLarge e))))
  | undecodable (e : DecodeError) (lines : List Reading) (overrun : Bool) :
    Verdict helloId (.error e :: lines) overrun (.failed (.decode e))
  | rejected {m : Message} {id text : String} (payload : m.payload = .error id text)
    (lines : List Reading) (overrun : Bool) :
    Verdict helloId (.ok m :: lines) overrun (.failed (.rejected text))
  | unexpected {m : Message} (type : m.type ≠ .error) (payload : m.payload ≠ .ack helloId)
    (lines : List Reading) (overrun : Bool) :
    Verdict helloId (.ok m :: lines) overrun (.failed (.unexpectedReply m.type))
  | registered {m : Message} (payload : m.payload = .ack helloId) (lines : List Reading)
    (overrun : Bool) :
    Verdict helloId (.ok m :: lines) overrun .registered

/-- A line registers the renderer, or fails for the reason that it gives. -/
theorem checkLine_cases (helloId : String) (text : ByteArray) :
    (checkLine helloId text = .ok () ∧
        ∃ m, Message.decodeBytes text = .ok m ∧ m.payload = .ack helloId) ∨
      ∃ reason, checkLine helloId text = .error reason ∧
        ∀ lines overrun,
          Verdict helloId (Message.decodeBytes text :: lines) overrun (.failed reason) := by
  rw [checkLine]
  rcases Message.decodeBytes text with e | m
  · exact .inr ⟨_, rfl, .undecodable e⟩
  · dsimp only
    rw [checkReply]
    obtain ⟨commandId, payload⟩ := m
    cases payload with
    | ack id =>
      by_cases same : id = helloId
      · exact .inl ⟨if_pos same, _, rfl, congrArg Payload.ack same⟩
      · exact .inr ⟨_, if_neg same, .unexpected (by rintro ⟨⟩) fun eq ↦ same (Payload.ack.inj eq)⟩
    | error id text => exact .inr ⟨_, rfl, .rejected rfl⟩
    | _ => exact .inr ⟨_, rfl, .unexpected (by rintro ⟨⟩) (by rintro ⟨⟩)⟩

namespace Verdict

variable {lines : List Reading} {overrun : Bool} {status : LinkStatus} {bytes : List UInt8}

section Iff

variable (verdict : Verdict helloId lines overrun status)
include verdict

theorem registered_iff :
    status = .registered ↔ ∃ m, lines.head? = some (.ok m) ∧ m.payload = .ack helloId := by
  cases verdict <;> simp_all

theorem rejected_iff (text : String) :
    status = .failed (.rejected text) ↔
      ∃ m id, lines.head? = some (.ok m) ∧ m.payload = .error id text := by
  cases verdict with
  | @unexpected m type =>
    have other (id : String) : m.payload ≠ .error id text :=
      fun eq ↦ type (congrArg Payload.type eq)
    simp [other]
  | _ => simp_all

theorem unexpected_iff (type : MessageType) :
    status = .failed (.unexpectedReply type) ↔
      ∃ m, lines.head? = some (.ok m) ∧ m.type = type ∧ m.type ≠ .error ∧
        m.payload ≠ .ack helloId := by
  cases verdict <;> simp_all [Message.type, Payload.type]

theorem undecodable_iff (e : DecodeError) :
    status = .failed (.decode e) ↔ lines.head? = some (.error e) := by
  cases verdict <;> simp_all

theorem tooLarge_iff :
    (∃ e, status = .failed (.transport (.receiveFailed (.tooLarge e)))) ↔
      lines = [] ∧ overrun = true := by
  cases verdict <;> simp_all

theorem waiting_iff : status = .waiting ↔ lines = [] ∧ overrun = false := by
  cases verdict <;> simp_all

/-- It is not for the lines to say that the registry has hung up, or that it is late. -/
theorem late_iff {reason : TransportError} (late : reason = .closed ∨ reason = .timedOut) :
    (if status = .waiting then .failed (.transport reason) else status) =
        .failed (.transport reason) ↔
      lines = [] ∧ overrun = false := by
  rcases late with rfl | rfl <;> cases verdict <;> simp

end Iff

/-- A failure is not mended by what comes later. -/
theorem append {reason : LinkError}
    (verdict : Verdict helloId (ofLines (fitting bytes)) (oversized bytes) (.failed reason))
    (more : List UInt8) :
    Verdict helloId (ofLines (fitting (bytes ++ more))) (oversized (bytes ++ more))
      (.failed reason) := by
  cases overrun : oversized bytes with
  | true =>
    rw [overrun] at verdict
    rwa [fitting_append_of_oversized overrun, oversized_append_of_oversized overrun]
  | false =>
    rw [overrun] at verdict
    rw [fitting_append, ofLines_append]
    generalize ofLines (fitting bytes) = lines at verdict
    cases verdict with
    | undecodable => exact .undecodable ..
    | rejected payload => exact .rejected payload ..
    | unexpected type payload => exact .unexpected type payload ..

end Verdict

/-! ### One piece after the other -/

/-- A link and what it has written behind its hello, when these bytes have come back. -/
inductive Opening (h : Handler σ) (name helloId : String) (state : σ) (bytes : List UInt8) :
    Link σ → List String → Prop where
  | waits {i : Inbox} (none : contents (fitting bytes) = []) (within : oversized bytes = false)
    (holds : i.Holds (pending bytes)) :
    Opening h name helloId state bytes { name, helloId, service := { state, inbox := i } } []
  | fails {reason : LinkError}
    (verdict : Verdict helloId (ofLines (fitting bytes)) (oversized bytes) (.failed reason)) :
    Opening h name helloId state bytes
      { name, helloId, status := .failed reason, service := { state, isOpen := false } } []
  /-- The service has been sent what has come behind the first line. -/
  | serves {m : Message} {more : List UInt8} {s : Service σ} {written : List String}
    (first : ofLines (fitting bytes) = .ok m :: ofLines (fitting more))
    (acknowledged : m.payload = .ack helloId) (behind : pending more = pending bytes)
    (answered : (∀ reply ∈ h.replies state (ofLines (fitting more)), reply.Fits) →
      Answered h state more s written) :
    Opening h name helloId state bytes { name, helloId, status := .registered, service := s }
      written

namespace Opening

variable {bytes : List UInt8}

theorem verdict (opening : Opening h name helloId state bytes l written) :
    Verdict helloId (ofLines (fitting bytes)) (oversized bytes) l.status := by
  cases opening with
  | waits none within holds =>
    rw [ofLines, none, within]
    exact .waiting
  | fails verdict => exact verdict
  | serves first acknowledged behind answered =>
    rw [first]
    exact .registered acknowledged ..

/-- A link that waits is settled by the first line that it can take. -/
theorem receive_waiting {i : Inbox} (none : contents (fitting bytes) = [])
    (holds : i.Holds (pending bytes)) (chunk : ByteArray) :
    Opening h name helloId state (bytes ++ chunk.data.toList)
      (Link.receive h { name, helloId, service := { state, inbox := i } } chunk).1
      (Link.receive h { name, helloId, service := { state, inbox := i } } chunk).2 := by
  have takes := (holds.append chunk).next
  have lines := contents_fitting_append bytes chunk.data.toList
  rw [none, List.nil_append] at lines
  rw [Link.receive]
  dsimp only
  generalize (i.append chunk).next = result at takes ⊢
  obtain ⟨i', found⟩ := result
  cases takes with
  | nothing none within holds =>
    rw [← lines] at none
    rw [← oversized_append] at within
    rw [← pending_append] at holds
    exact .waits none within holds
  | tooLarge size none overrun holds =>
    rw [← oversized_append] at overrun
    refine .fails ?_
    rw [ofLines, lines, none, overrun]
    exact .tooLarge _
  | @line text more first behind holds =>
    rw [← lines] at first
    rw [← pending_append] at behind
    have read : ofLines (fitting (bytes ++ chunk.data.toList)) =
        Message.decodeBytes text.toByteArray :: ofLines (fitting more) := by
      rw [ofLines, first, List.map_cons, ofLines]
    dsimp only
    rcases checkLine_cases helloId text.toByteArray with
      ⟨accepted, m, decoded, acknowledged⟩ | ⟨reason, refused, verdict⟩
    · rw [accepted]
      rw [decoded] at read
      refine .serves read acknowledged behind fun small ↦ ?_
      -- the lines that have come with the first one are answered at once
      have nothing : more ++ ByteArray.empty.data.toList = more := List.append_nil _
      rw [← nothing] at small ⊢
      exact Service.receive_of_fits holds .empty small
    · rw [refused]
      refine .fails ?_
      rw [read]
      exact verdict ..

/-- One more piece. -/
theorem receive (opening : Opening h name helloId state bytes l written) (chunk : ByteArray) :
    Opening h name helloId state (bytes ++ chunk.data.toList) (l.receive h chunk).1
      (written ++ (l.receive h chunk).2) := by
  cases opening with
  | waits none within holds => exact receive_waiting none holds chunk
  | fails verdict => exact .fails (verdict.append _)
  | @serves m more s written first acknowledged behind answered =>
    have grown : ofLines (fitting (bytes ++ chunk.data.toList)) =
        .ok m :: ofLines (fitting (more ++ chunk.data.toList)) := by
      rw [fitting_append, ofLines_append, first, List.cons_append, ← behind, ← ofLines_append,
        ← fitting_append]
    refine .serves grown acknowledged ?_ fun small ↦ ?_
    · rw [pending_append, behind, ← pending_append]
    · have before := small
      rw [fitting_append, ofLines_append, Handler.replies_append, List.forall_mem_append] at before
      exact (answered before.1).receive chunk small

/-- More pieces. -/
theorem run (opening : Opening h name helloId state bytes l written) (chunks : List ByteArray) :
    Opening h name helloId state (bytes ++ Inbox.joined chunks)
      (Transducer.run (Link.receive h) l chunks).1
      (written ++ (Transducer.run (Link.receive h) l chunks).2) := by
  induction chunks generalizing bytes l written with
  | nil => rwa [Inbox.joined_nil, Transducer.run_nil, List.append_nil, List.append_nil]
  | cons chunk chunks ih =>
    rw [Inbox.joined_cons, ← List.append_assoc, Transducer.run_cons, ← List.append_assoc]
    exact ih (opening.receive chunk)

end Opening

theorem opening_empty (h : Handler σ) (name helloId : String) (state : σ) :
    Opening h name helloId state [] { name, helloId, service := { state } } [] :=
  .waits rfl (by decide) Inbox.holds_empty

theorem status_hangUp (l : Link σ) :
    l.hangUp.status = if l.status = .waiting then .failed (.transport .closed) else l.status := by
  obtain ⟨name, helloId, status, service⟩ := l
  cases status <;> rfl

theorem status_timeOut (l : Link σ) :
    l.timeOut.status =
      if l.status = .waiting then .failed (.transport .timedOut) else l.status := by
  obtain ⟨name, helloId, status, service⟩ := l
  cases status <;> rfl

/-! ### Nobody is served before -/

/-- What has been settled stays so, whatever arrives. -/
theorem status_receive (settled : l.status ≠ .waiting) (bytes : ByteArray) :
    (l.receive h bytes).1.status = l.status := by
  obtain ⟨name, helloId, status, service⟩ := l
  cases status with
  | waiting => exact absurd rfl settled
  | registered => rfl
  | failed reason => rfl

theorem status_run (settled : l.status ≠ .waiting) (chunks : List ByteArray) :
    (Transducer.run (receive h) l chunks).1.status = l.status := by
  induction chunks generalizing l with
  | nil => rfl
  | cons chunk chunks ih =>
    have same := status_receive (h := h) settled chunk
    rw [Transducer.run_cons]
    exact (ih (by rwa [same])).trans same

/-- As long as a renderer is not registered its handler makes no difference. -/
theorem receive_congr (other : Handler σ) {bytes : ByteArray}
    (unregistered : (l.receive h bytes).1.status ≠ .registered) :
    l.receive other bytes = l.receive h bytes := by
  obtain ⟨name, helloId, status, service⟩ := l
  cases status with
  | failed reason => rfl
  | registered => exact absurd rfl unregistered
  | waiting =>
    rw [receive] at unregistered ⊢
    rw [receive]
    dsimp only at unregistered ⊢
    generalize (service.inbox.append bytes).next = found at unregistered ⊢
    rcases found with ⟨inbox, _ | line | size⟩
    · rfl
    · dsimp only at unregistered ⊢
      cases checked : checkLine helloId line with
      | error reason => rfl
      | ok _ =>
        rw [checked] at unregistered
        exact absurd rfl unregistered
    · rfl

theorem run_congr (other : Handler σ)
    (unregistered : (Transducer.run (receive h) l chunks).1.status ≠ .registered) :
    Transducer.run (receive other) l chunks = Transducer.run (receive h) l chunks := by
  induction chunks generalizing l with
  | nil => rfl
  | cons chunk chunks ih =>
    rw [Transducer.run_cons] at unregistered
    have before : (l.receive h chunk).1.status ≠ .registered := fun registered ↦ by
      have settled := status_run (h := h) (by rw [registered]; decide) chunks
      exact unregistered (settled.trans registered)
    rw [Transducer.run_cons, Transducer.run_cons, receive_congr other before, ih unregistered]

/-! ### Establishing a link -/

/-- A renderer introduces itself, and these pieces come back: its link, and all lines that it has
written. -/
def establish (h : Handler σ) (name helloId : String) (state : σ) (chunks : List ByteArray) :
    Except LinkError (Link σ × List String) :=
  match start name helloId state with
  | .error reason => .error reason
  | .ok (l, hello) =>
    let (l, replies) := Transducer.run (receive h) l chunks
    .ok (l, hello :: replies)

theorem establish_of_fits (small : (introduction helloId name).Fits) :
    establish h name helloId state chunks =
      .ok ((Transducer.run (receive h) { name, helloId, service := { state } } chunks).1,
        (introduction helloId name).encode ::
          (Transducer.run (receive h) { name, helloId, service := { state } } chunks).2) := by
  rw [establish, start, Message.line?_of_fits small]

/-- What comes of the introduction of a renderer. -/
structure Establishes (h : Handler σ) (name helloId : String) (state : σ)
    (chunks : List ByteArray) (l : Link σ) (written : List String) : Prop where
  /-- The renderer is registered exactly if the first line acknowledges its hello. -/
  registered : l.status = .registered ↔
    ∃ m, (Service.readings chunks).head? = some (.ok m) ∧ m.payload = .ack helloId
  /-- It is refused by an error, of whatever command. -/
  rejected : ∀ text, l.status = .failed (.rejected text) ↔
    ∃ m id, (Service.readings chunks).head? = some (.ok m) ∧ m.payload = .error id text
  /-- All other messages are unexpected, also if they acknowledge another command. -/
  unexpected : ∀ type, l.status = .failed (.unexpectedReply type) ↔
    ∃ m, (Service.readings chunks).head? = some (.ok m) ∧ m.type = type ∧ m.type ≠ .error ∧
      m.payload ≠ .ack helloId
  undecodable : ∀ e, l.status = .failed (.decode e) ↔
    (Service.readings chunks).head? = some (.error e)
  tooLarge : (∃ e, l.status = .failed (.transport (.receiveFailed (.tooLarge e)))) ↔
    Service.readings chunks = [] ∧ oversized (Inbox.joined chunks) = true
  /-- Until then nothing is settled. The registry may hang up before, and it may be late. -/
  waiting : l.status = .waiting ↔
    Service.readings chunks = [] ∧ oversized (Inbox.joined chunks) = false
  closed : l.hangUp.status = .failed (.transport .closed) ↔
    Service.readings chunks = [] ∧ oversized (Inbox.joined chunks) = false
  timedOut : l.timeOut.status = .failed (.transport .timedOut) ↔
    Service.readings chunks = [] ∧ oversized (Inbox.joined chunks) = false
  /-- What has been settled stays so, whatever happens then. -/
  settled : l.status ≠ .waiting → l.hangUp.status = l.status ∧ l.timeOut.status = l.status ∧
    ∀ more, ∃ l' written', establish h name helloId state (chunks ++ more) = .ok (l', written') ∧
      l'.status = l.status
  /-- A renderer that is registered answers all later lines one by one, and writes nothing else. -/
  served : l.status = .registered →
    (∀ reply ∈ h.replies state (Service.readings chunks).tail, reply.Fits) →
    written = (Message.hello helloId Role.renderer.text name).encode ::
        (h.replies state (Service.readings chunks).tail).map Message.encode ∧
      List.Forall₂ IsAnswered ((Service.readings chunks).tail.filter asksReply)
        (h.replies state (Service.readings chunks).tail) ∧
      l.service.state = h.after state (Service.readings chunks).tail ∧
      (l.isRunning = true ↔ oversized (Inbox.joined chunks) = false)
  /-- Otherwise its handler is never asked: any other would do. -/
  unserved : l.status ≠ .registered →
    written = [(Message.hello helloId Role.renderer.text name).encode] ∧
      l.service.state = state ∧
      ∀ other : Handler σ, establish other name helloId state chunks = .ok (l, written)

namespace Opening

variable {bytes : List UInt8}

theorem silent (opening : Opening h name helloId state bytes l written)
    (unregistered : l.status ≠ .registered) : written = [] ∧ l.service.state = state := by
  cases opening with
  | waits => exact ⟨rfl, rfl⟩
  | fails => exact ⟨rfl, rfl⟩
  | serves => exact absurd rfl unregistered

/-- What a registered renderer has done about the lines behind the first one. -/
theorem answered (opening : Opening h name helloId state bytes l written)
    (registered : l.status = .registered)
    (small : ∀ reply ∈ h.replies state (ofLines (fitting bytes)).tail, reply.Fits) :
    written = (h.replies state (ofLines (fitting bytes)).tail).map Message.encode ∧
      l.service.state = h.after state (ofLines (fitting bytes)).tail ∧
      l.service.isOpen = !oversized bytes := by
  cases opening with
  | waits => cases registered
  | fails => cases registered
  | serves first acknowledged behind answered =>
    rw [first, List.tail_cons] at small ⊢
    have answered := answered small
    have overrun := answered.isOpen
    rw [oversized, behind, ← oversized] at overrun
    exact ⟨answered.written, answered.state, overrun⟩

end Opening

/-- The first line that comes back settles whether a renderer is registered, however the stream is
cut, and no line behind it is lost. -/
theorem establishes (h : Handler σ) (state : σ) (chunks : List ByteArray)
    (small : (introduction helloId name).Fits) :
    ∃ l written, establish h name helloId state chunks = .ok (l, written) ∧
      Establishes h name helloId state chunks l written := by
  have opening := (opening_empty h name helloId state).run chunks
  rw [List.nil_append, List.nil_append] at opening
  have verdict := opening.verdict
  refine ⟨_, _, establish_of_fits small, ?_⟩
  exact
    { registered := verdict.registered_iff
      rejected := verdict.rejected_iff
      unexpected := verdict.unexpected_iff
      undecodable := verdict.undecodable_iff
      tooLarge := by
        rw [verdict.tooLarge_iff, Service.readings]
      waiting := by
        rw [verdict.waiting_iff, Service.readings]
      closed := by
        rw [status_hangUp, verdict.late_iff (.inl rfl), Service.readings]
      timedOut := by
        rw [status_timeOut, verdict.late_iff (.inr rfl), Service.readings]
      settled := fun settled ↦ by
        refine ⟨?_, ?_, fun more ↦ ⟨_, _, establish_of_fits small, ?_⟩⟩
        · rw [status_hangUp, if_neg settled]
        · rw [status_timeOut, if_neg settled]
        · rw [Transducer.run_append]
          exact status_run settled more
      served := fun registered small ↦ by
        obtain ⟨written, state', isOpen⟩ := opening.answered registered small
        refine ⟨congrArg _ written, h.forall₂_replies state _, state', ?_⟩
        simp [isRunning, registered, isOpen]
      unserved := fun unregistered ↦ by
        obtain ⟨silent, unchanged⟩ := opening.silent unregistered
        refine ⟨congrArg _ silent, unchanged, fun other ↦ ?_⟩
        rw [establish_of_fits small, run_congr other unregistered] }

/-- An acknowledgment that comes in two pieces, and a cue that comes with the second. -/
theorem establishes_stage :
    let bytes := Message.stream [.ack "cmd-1", ⟨"cmd-2", .playCue ⟨"cue-1"⟩⟩]
    let chunks := [(bytes.take 20).toByteArray, (bytes.drop 20).toByteArray]
    (introduction "cmd-1" "left").Fits ∧
      ∃ l written, Establishes Handler.stage "left" "cmd-1" {} chunks l written ∧
        l.status = .registered ∧ l.service.state = { lastCue := some ⟨"cue-1"⟩ } ∧
        written = [Message.hello "cmd-1" "renderer" "left", .ack "cmd-2"].map Message.encode := by
  intro bytes chunks
  have small : (introduction "cmd-1" "left").Fits := by
    simp only [Message.Fits, Message.utf8ByteSize_encode]
    decide +kernel
  have read : Service.readings chunks =
      [.ok (.ack "cmd-1"), .ok ⟨"cmd-2", .playCue ⟨"cue-1"⟩⟩] := by
    have joined : Inbox.joined chunks = bytes := by simp [chunks, Inbox.joined]
    rw [Service.readings, joined]
    refine Reading.ofLines_stream (by decide) ?_
    simp only [Message.Fits, Message.utf8ByteSize_encode]
    decide +kernel
  have answerable : (Message.ack "cmd-2").Fits := by
    simp only [Message.Fits, Message.utf8ByteSize_encode]
    decide +kernel
  obtain ⟨l, written, -, establishes⟩ := establishes Handler.stage {} chunks small
  have registered : l.status = .registered := by
    rw [establishes.registered, read]
    exact ⟨_, rfl, rfl⟩
  have served := establishes.served registered
  rw [read] at served
  obtain ⟨written_eq, -, state, -⟩ := served (List.forall_mem_singleton.2 answerable)
  exact ⟨small, l, written, establishes, registered, state, written_eq⟩

end Link

end ShowControl
