import Mathlib.Data.List.Forall2
import ShowControl.Proofs.Message.Stream
import ShowControl.Renderer.Service

/-!
# One reply for each command

What a service does with a stream is said on the lines of the stream: each is read by itself
(`Reading`), some of them ask for a reply, and a handler goes through them from state to state
(`Handler.replies`, `Handler.after`). That the lines that ask are answered one by one, each with its
own command id, is a statement about these lists (`Handler.forall₂_replies`), and pieces do not come
into it.

Pieces come in at `Answered`: whatever has arrived, a service has answered the lines that can be
taken of it, and its inbox holds the pending bytes. So it stays with every piece
(`Answered.receive`, `run_receive`). The limit matters twice. A segment over it ends the service,
and nothing behind the segment is read. And a reply over it cannot be sent, which would end the
service in the middle of its lines; this is what `run_exchange` has to exclude.
-/

namespace ShowControl

open Splitter

/-- What a line is read as. -/
abbrev Reading := Except DecodeError Message

namespace Reading

/-- What lines are read as, each by itself; lines without content are passed over. -/
def ofLines (lines : List (List UInt8)) : List Reading :=
  (contents lines).map fun text ↦ Message.decodeBytes text.toByteArray

/-- The line asks for a reply: it is a command, or nobody can tell. -/
def asksReply : Reading → Bool
  | .error _ => true
  | .ok m =>
    match m.payload with
    | .ack _ => false
    | .error _ _ => false
    | _ => true

/-- The message is a reply to the line: it repeats the command id, or it tells why there is none. -/
inductive IsAnswered : Reading → Message → Prop where
  | acknowledged (m : Message) : IsAnswered (.ok m) ⟨m.commandId, .ack m.commandId⟩
  | refused (m : Message) (text : String) :
      IsAnswered (.ok m) ⟨m.commandId, .error m.commandId text⟩
  | undecodable (e : DecodeError) :
      IsAnswered (.error e) ⟨"unknown", .error "unknown" e.message⟩

/-- Only replies ask for none. -/
theorem asksReply_eq_false_iff {m : Message} :
    asksReply (.ok m) = false ↔ m.type = .ack ∨ m.type = .error := by
  obtain ⟨commandId, payload⟩ := m
  cases payload <;> simp [asksReply, Message.type, Payload.type]

theorem ofLines_append (left right : List (List UInt8)) :
    ofLines (left ++ right) = ofLines left ++ ofLines right := by
  rw [ofLines, contents_append, List.map_append, ofLines, ofLines]

theorem map_line_ofLines (lines : List (List UInt8)) :
    (ofLines lines).map .line = Decoded.ofLines lines := by
  rw [ofLines, List.map_map, Decoded.ofLines]
  rfl

/-- The lines of messages that are sent one behind the other are read as these messages. -/
theorem ofLines_stream {messages : List Message}
    (finite : ∀ m ∈ messages, ∀ coordinate ∈ m.coordinates, coordinate.2.isFinite = true)
    (small : ∀ m ∈ messages, m.Fits) :
    ofLines (fitting (Message.stream messages)) = messages.map .ok := by
  have all : fitting (Message.stream messages) = messages.map fun m ↦ textBytes m.encode := by
    rw [fitting_eq (Message.oversized_stream small), Message.segments_stream]
  refine List.map_injective_iff.2 (fun _ _ ↦ Decoded.line.inj) ?_
  rw [all, map_line_ofLines, Message.ofLines_encode finite, List.map_map]
  rfl

end Reading

open Reading

namespace Handler

variable {σ : Type} (h : Handler σ)

/-- The state after some lines: those that are messages are dispatched one after the other. -/
def after (s : σ) (lines : List Reading) : σ :=
  (lines.filterMap Except.toOption).foldl (fun s m ↦ (h.dispatch s m).1) s

/-- The replies to some lines, each from the state that the lines before leave. -/
def replies (s : σ) : List Reading → List Message
  | [] => []
  | .error e :: lines => .error "unknown" e.message :: replies s lines
  | .ok m :: lines => (h.dispatch s m).2.toList ++ replies (h.dispatch s m).1 lines

variable {h} {s : σ}

theorem after_append (h : Handler σ) (s : σ) (left right : List Reading) :
    h.after s (left ++ right) = h.after (h.after s left) right := by
  rw [after, List.filterMap_append, List.foldl_append, after, after]

theorem replies_append (h : Handler σ) (s : σ) (left right : List Reading) :
    h.replies s (left ++ right) = h.replies s left ++ h.replies (h.after s left) right := by
  induction left generalizing s with
  | nil => rfl
  | cons line left ih =>
    rcases line with e | m
    · exact congrArg (Message.error "unknown" e.message :: ·) (ih s)
    · rw [List.cons_append, replies, ih, replies, List.append_assoc]
      rfl

theorem replies_cons (h : Handler σ) (s : σ) (text : ByteArray) (lines : List Reading) :
    h.replies s (Message.decodeBytes text :: lines) =
      (h.answer s text).2.toList ++ h.replies (h.answer s text).1 lines := by
  rw [answer]
  rcases Message.decodeBytes text with e | m <;> rfl

theorem after_cons (h : Handler σ) (s : σ) (text : ByteArray) (lines : List Reading) :
    h.after s (Message.decodeBytes text :: lines) = h.after (h.answer s text).1 lines := by
  rw [answer]
  rcases Message.decodeBytes text with e | m <;> rfl

/-- The line of a message is answered as the message. -/
theorem answer_encode (h : Handler σ) (s : σ) {m : Message}
    (finite : ∀ coordinate ∈ m.coordinates, coordinate.2.isFinite = true) :
    h.answer s m.encode.toUTF8 = h.dispatch s m := by
  rw [answer, Message.decodeBytes_toUTF8 finite]

theorem isSome_apply (h : Handler σ) (s : σ) (m : Message) :
    (h.apply s m.payload).isSome = asksReply (.ok m) := by
  rw [asksReply]
  rcases m.payload with hello | id | ⟨id, text⟩ | scene | d | ⟨surface, feed⟩ | cue <;> rfl

/-- A message that asks for no reply changes nothing and gets none. -/
theorem dispatch_of_silent {m : Message} (silent : asksReply (.ok m) = false) :
    h.dispatch s m = (s, none) := by
  rw [← h.isSome_apply s, Option.isSome_eq_false_iff, Option.isNone_iff_eq_none] at silent
  rw [dispatch, silent]

/-- A message that asks for a reply gets one that repeats its command id. -/
theorem exists_reply_of_asksReply {m : Message} (asks : asksReply (.ok m) = true) :
    ∃ reply, (h.dispatch s m).2 = some reply ∧ IsAnswered (.ok m) reply := by
  rw [← h.isSome_apply s] at asks
  obtain ⟨result, applied⟩ := Option.isSome_iff_exists.1 asks
  rw [dispatch, applied]
  rcases result with reason | s'
  · exact ⟨_, rfl, .refused m reason.message⟩
  · exact ⟨_, rfl, .acknowledged m⟩

/-- The lines that ask for a reply are answered one after the other. -/
theorem forall₂_replies (h : Handler σ) (s : σ) (lines : List Reading) :
    List.Forall₂ IsAnswered (lines.filter asksReply) (h.replies s lines) := by
  induction lines generalizing s with
  | nil => exact .nil
  | cons line lines ih =>
    rcases line with e | m
    · exact .cons (.undecodable e) (ih s)
    · rw [replies]
      by_cases asks : asksReply (.ok m) = true
      · obtain ⟨reply, dispatched, answered⟩ := exists_reply_of_asksReply (h := h) (s := s) asks
        rw [List.filter_cons_of_pos asks, dispatched]
        exact .cons answered (ih _)
      · rw [List.filter_cons_of_neg asks, dispatch_of_silent (Bool.eq_false_iff.2 asks)]
        exact ih s

end Handler

namespace Service

variable {σ : Type} {h : Handler σ} {state : σ} {i : Inbox} {bytes : List UInt8}

/-- The line of an open service is answered, if the reply can be sent. -/
theorem takeLine_of_fits {line : ByteArray}
    (small : ∀ reply ∈ (h.answer state line).2.toList, reply.Fits) :
    takeLine h { state, inbox := i } line =
      ({ state := (h.answer state line).1, inbox := i },
        (h.answer state line).2.toList.map Message.encode) := by
  rw [takeLine, if_pos rfl]
  dsimp only
  rcases answered : h.answer state line with ⟨state', _ | reply⟩
  · rfl
  · rw [answered] at small
    dsimp only
    rw [Message.line?_of_fits (small reply List.mem_cons_self)]
    rfl

/-- The lines of an open service are answered one after the other, if all replies can be sent. -/
theorem run_takeLine {lines : List (List UInt8)}
    (small : ∀ reply ∈ h.replies state (ofLines lines), reply.Fits) :
    Transducer.run (takeLine h) { state, inbox := i } ((contents lines).map List.toByteArray) =
      ({ state := h.after state (ofLines lines), inbox := i },
        (h.replies state (ofLines lines)).map Message.encode) := by
  rw [ofLines] at small ⊢
  generalize contents lines = texts at small ⊢
  induction texts generalizing state with
  | nil => rfl
  | cons text texts ih =>
    rw [List.map_cons, Handler.replies_cons, List.forall_mem_append] at small
    rw [List.map_cons, Transducer.run_cons, takeLine_of_fits small.1, ih small.2, List.map_cons,
      Handler.replies_cons, Handler.after_cons, List.map_append]

/-- A service that has been closed says nothing any more. -/
theorem receive_closed {s : Service σ} (closed : s.isOpen = false) (chunk : ByteArray) :
    s.receive h chunk = (s, []) := by
  rw [receive, closed]
  rfl

/-- A service that has been sent these bytes and could reply, and what it has written. -/
structure Answered (h : Handler σ) (state : σ) (bytes : List UInt8) (s : Service σ)
    (written : List String) : Prop where
  written : written = (h.replies state (ofLines (fitting bytes))).map Message.encode
  state : s.state = h.after state (ofLines (fitting bytes))
  isOpen : s.isOpen = !oversized bytes
  holds : oversized bytes = false → s.inbox.Holds (pending bytes)

/-- What a service has taken that is sent a piece behind bytes of which lines may be left. -/
theorem receive_of_fits (holds : i.Holds bytes) (chunk : ByteArray)
    (small : ∀ reply ∈ h.replies state (ofLines (fitting (bytes ++ chunk.data.toList))),
      reply.Fits) :
    Answered h state (bytes ++ chunk.data.toList) (receive h { state, inbox := i } chunk).1
      (receive h { state, inbox := i } chunk).2 := by
  obtain ⟨i', drained, holds'⟩ := (holds.append chunk).drain
  rw [receive, if_pos rfl]
  dsimp only
  rw [drained]
  dsimp only
  rw [run_takeLine small, report]
  cases overrun : oversized (bytes ++ chunk.data.toList) with
  | true => exact ⟨rfl, rfl, by rw [overrun]; rfl, fun within ↦ absurd within (by simp [overrun])⟩
  | false => exact ⟨rfl, rfl, by rw [overrun]; rfl, fun _ ↦ holds'⟩

theorem answered_empty (h : Handler σ) (state : σ) : Answered h state [] { state } [] :=
  ⟨rfl, rfl, rfl, fun _ ↦ Inbox.holds_empty⟩

namespace Answered

variable {s : Service σ} {written : List String}

/-- One more piece. -/
theorem receive (answered : Answered h state bytes s written) (chunk : ByteArray)
    (small : ∀ reply ∈ h.replies state (ofLines (fitting (bytes ++ chunk.data.toList))),
      reply.Fits) :
    Answered h state (bytes ++ chunk.data.toList) (s.receive h chunk).1
      (written ++ (s.receive h chunk).2) := by
  cases overrun : oversized bytes with
  | true =>
    -- nothing behind the segment over the limit is looked at
    have closed := answered.isOpen
    rw [overrun] at closed
    rw [receive_closed closed, List.append_nil]
    have still := oversized_append_of_oversized overrun chunk.data.toList
    have same := fitting_append_of_oversized overrun chunk.data.toList
    exact ⟨by rw [same, answered.written], by rw [same, answered.state], by rw [still, closed],
      fun within ↦ absurd within (by simp [still])⟩
  | false =>
    obtain ⟨state', i', isOpen⟩ := s
    obtain ⟨rfl, rfl, opened, holds⟩ := answered
    rw [overrun] at opened
    cases opened
    rw [fitting_append, ofLines_append, Handler.replies_append, List.forall_mem_append] at small
    have later := receive_of_fits (holds overrun) chunk small.2
    refine ⟨?_, ?_, ?_, ?_⟩
    · rw [later.written, fitting_append bytes, ofLines_append, Handler.replies_append,
        List.map_append]
    · rw [later.state, fitting_append bytes, ofLines_append, Handler.after_append]
    · rw [later.isOpen, oversized_append bytes]
    · rw [oversized_append bytes, pending_append bytes]
      exact later.holds

/-- More pieces. -/
theorem run (answered : Answered h state bytes s written) (chunks : List ByteArray)
    (small : ∀ reply ∈ h.replies state (ofLines (fitting (bytes ++ Inbox.joined chunks))),
      reply.Fits) :
    Answered h state (bytes ++ Inbox.joined chunks) (Transducer.run (Service.receive h) s chunks).1
      (written ++ (Transducer.run (Service.receive h) s chunks).2) := by
  induction chunks generalizing bytes s written with
  | nil => rwa [Inbox.joined_nil, Transducer.run_nil, List.append_nil, List.append_nil]
  | cons chunk chunks ih =>
    rw [Inbox.joined_cons, ← List.append_assoc] at small ⊢
    have before := small
    rw [fitting_append, ofLines_append, Handler.replies_append, List.forall_mem_append] at before
    rw [Transducer.run_cons, ← List.append_assoc]
    exact ih (answered.receive chunk before.1) small

end Answered

/-- What comes in pieces is answered as it is read. -/
theorem run_receive (chunks : List ByteArray)
    (small : ∀ reply ∈ h.replies state (ofLines (fitting (Inbox.joined chunks))), reply.Fits) :
    Answered h state (Inbox.joined chunks) (Transducer.run (receive h) { state } chunks).1
      (Transducer.run (receive h) { state } chunks).2 :=
  (answered_empty h state).run chunks small

/-- What the lines of a stream that comes in pieces are read as, up to a segment over the limit. -/
def readings (chunks : List ByteArray) : List Reading :=
  ofLines (fitting (Inbox.joined chunks))

/-- How a service answers a stream that comes in pieces. -/
structure Exchange (h : Handler σ) (state : σ) (chunks : List ByteArray) : Prop where
  written : (Transducer.run (receive h) { state } chunks).2 =
    (h.replies state (readings chunks)).map Message.encode
  /-- There is one reply for each line that asks for one, in their order. -/
  answered : List.Forall₂ IsAnswered ((readings chunks).filter asksReply)
    (h.replies state (readings chunks))
  dispatched : (Transducer.run (receive h) { state } chunks).1.state =
    ((readings chunks).filterMap Except.toOption).foldl (fun s m ↦ (h.dispatch s m).1) state
  /-- The stream is read for as long as no segment is over the limit. -/
  goes_on : (Transducer.run (receive h) { state } chunks).1.isOpen = true ↔
    ∀ segment ∈ (segments (Inbox.joined chunks)).1 ++ [(segments (Inbox.joined chunks)).2],
      segment.length ≤ maxFrameSize
  /-- An unfinished line is lost when the stream ends. -/
  tail : ∀ tail : ByteArray, lineFeed ∉ tail.data.toList →
    (Transducer.run (receive h) { state } (chunks ++ [tail])).2 =
        (Transducer.run (receive h) { state } chunks).2 ∧
      (Transducer.run (receive h) { state } (chunks ++ [tail])).1.close =
        (Transducer.run (receive h) { state } chunks).1.close

theorem readings_append_of_not_mem (chunks : List ByteArray) {tail : ByteArray}
    (free : lineFeed ∉ tail.data.toList) : readings (chunks ++ [tail]) = readings chunks := by
  have behind : Inbox.joined (chunks ++ [tail]) = Inbox.joined chunks ++ tail.data.toList := by
    simp [Inbox.joined]
  rw [readings, behind, fitting_append_of_not_mem _ free, readings]

/-- A service answers the commands of every stream, in whatever pieces it comes, if all replies can
be sent: one reply for each command and each line that is no message, and none for replies. -/
theorem run_exchange {chunks : List ByteArray}
    (small : ∀ reply ∈ h.replies state (readings chunks), reply.Fits) :
    Exchange h state chunks := by
  obtain ⟨written, dispatched, isOpen, -⟩ := run_receive chunks small
  refine ⟨written, h.forall₂_replies state _, dispatched, ?_, fun tail free ↦ ?_⟩
  · rw [isOpen, Bool.not_eq_true', oversized_eq_false_iff]
    exact forall₂_congr fun segment _ ↦ decide_eq_true_iff
  · have same := readings_append_of_not_mem chunks free
    have small' : ∀ reply ∈ h.replies state (readings (chunks ++ [tail])), reply.Fits := by
      rwa [same]
    obtain ⟨written', dispatched', -, -⟩ := run_receive (chunks ++ [tail]) small'
    rw [← readings, same] at written' dispatched'
    rw [← readings] at written dispatched
    exact ⟨written'.trans written.symm, by rw [close, close, dispatched', dispatched]⟩

/-- A hello, a reply that nobody asked for, and a scene that is not there; cut within the hello. -/
theorem run_exchange_stage :
    let messages : List Message :=
      [.hello "cmd-1" "controller" "desk", .ack "cmd-2", ⟨"cmd-3", .loadScene ⟨"s"⟩⟩]
    let bytes := Message.stream messages
    let chunks := [(bytes.take 20).toByteArray, (bytes.drop 20).toByteArray]
    let replies : List Message := [.ack "cmd-1", .error "cmd-3" "Unknown scene 's'"]
    Exchange Handler.stage {} chunks ∧
      (Transducer.run (receive .stage) { state := {} } chunks).2 = replies.map Message.encode := by
  intro messages bytes chunks replies
  have read : readings chunks = messages.map .ok := by
    have joined : Inbox.joined chunks = bytes := by simp [chunks, Inbox.joined]
    rw [readings, joined]
    refine Reading.ofLines_stream (by decide) ?_
    simp only [Message.Fits, Message.utf8ByteSize_encode]
    decide +kernel
  have replied : Handler.stage.replies {} (readings chunks) = replies := by
    rw [read]
    rfl
  have small : ∀ reply ∈ replies, reply.Fits := by
    simp only [Message.Fits, Message.utf8ByteSize_encode]
    decide +kernel
  have exchange := run_exchange (h := .stage) (by rwa [replied])
  exact ⟨exchange, by rw [exchange.written, replied]⟩

end Service

end ShowControl
