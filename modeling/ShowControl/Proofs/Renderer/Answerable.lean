import ShowControl.Proofs.Renderer.ReplySize

/-!
# Which lines can be answered

The limit on lines holds for replies too, and a reply may be longer than its line. So there are
lines within the limit that end the service. Either the command is carried out, the reply to it is
not sent and nothing more is read (`Service.takeLine_of_long_id`), or the line is no message and its
type is too long to be repeated (`Service.takeLine_of_long_type`).

But no reply is much longer than twice its line. So a service survives all lines of up to half the
limit, nearly, whatever they hold, and a stream of such lines is answered from its first line to its
last (`Service.survives`).
-/

namespace ShowControl

open Splitter Reading
open Json (quotedSize quotedSize_replicate)

/-! ### Lines of a stream -/

namespace Splitter

theorem length_content_le (line : List UInt8) : (content line).length ≤ line.length := by
  rw [content]
  split
  · rw [List.length_dropLast]
    exact Nat.sub_le ..
  · exact le_rfl

end Splitter

namespace Handler

variable {σ : Type} {h : Handler σ}

/-- All replies fit that are given to short lines. -/
theorem replies_fit (terse : h.Terse) {lines : List (List UInt8)}
    (short : ∀ line ∈ lines, 2 * line.length + replyMargin ≤ maxFrameSize) (s : σ) :
    ∀ reply ∈ h.replies s (ofLines lines), reply.Fits := by
  induction lines generalizing s with
  | nil => nofun
  | cons line lines ih =>
    obtain ⟨first, others⟩ := List.forall_mem_cons.1 short
    rw [ofLines, contents_cons]
    split
    · exact ih others s
    · rw [List.map_cons, replies_cons]
      refine List.forall_mem_append.2 ⟨fun reply answered ↦ ?_, ih others _⟩
      have twice := utf8ByteSize_answer_le terse (Option.mem_toList.1 answered)
      rw [List.size_toByteArray] at twice
      have shorter := length_content_le line
      show reply.encode.utf8ByteSize ≤ maxFrameSize
      omega

end Handler

/-! ### Services -/

namespace Service

section Any

variable {σ : Type} {h : Handler σ} {state : σ} {i : Inbox} {line : ByteArray}

/-- A reply that is too long ends the service, and what was done to the state stays done. -/
theorem takeLine_of_large {reply : Message} (answered : (h.answer state line).2 = some reply)
    (large : ¬reply.Fits) :
    takeLine h { state, inbox := i } line =
      ({ state := (h.answer state line).1, isOpen := false }, []) := by
  obtain ⟨e, refused⟩ := Message.exists_line?_eq_error large
  rw [takeLine, if_pos rfl]
  dsimp only
  generalize h.answer state line = result at answered ⊢
  obtain ⟨state', reply'⟩ := result
  cases answered
  dsimp only
  rw [refused]

/-- A line is answered, or the reply to it is too long and the service ends. -/
theorem takeLine_cases (h : Handler σ) (state : σ) (i : Inbox) (line : ByteArray) :
    (∀ reply, (h.answer state line).2 = some reply → reply.Fits) ∧
        takeLine h { state, inbox := i } line =
          ({ state := (h.answer state line).1, inbox := i },
            (h.answer state line).2.toList.map Message.encode) ∨
      (∃ reply, (h.answer state line).2 = some reply ∧ ¬reply.Fits) ∧
        takeLine h { state, inbox := i } line =
          ({ state := (h.answer state line).1, isOpen := false }, []) := by
  by_cases small : ∀ reply, (h.answer state line).2 = some reply → reply.Fits
  · refine .inl ⟨small, takeLine_of_fits fun reply answered ↦ small reply ?_⟩
    exact Option.mem_toList.1 answered
  · push Not at small
    obtain ⟨reply, answered, large⟩ := small
    exact .inr ⟨⟨reply, answered, large⟩, takeLine_of_large answered large⟩

end Any

/-- What becomes of a service for a stage. -/
structure Survives (s : Stage) : Prop where
  /-- A line is carried out, whether or not the reply to it can be sent. -/
  applied : ∀ (i : Inbox) (line : ByteArray),
    (takeLine .stage { state := s, inbox := i } line).1.state = (Handler.stage.answer s line).1
  /-- The service goes on exactly if the reply is no longer than a line may be. -/
  goes_on : ∀ (i : Inbox) (line : ByteArray),
    (takeLine .stage { state := s, inbox := i } line).1.isOpen = true ↔
      ∀ reply, (Handler.stage.answer s line).2 = some reply →
        reply.encode.utf8ByteSize ≤ maxFrameSize
  /-- Then the reply is sent, and otherwise nothing is. -/
  written : ∀ (i : Inbox) (line : ByteArray),
    (takeLine .stage { state := s, inbox := i } line).2 =
      if (takeLine .stage { state := s, inbox := i } line).1.isOpen then
        (Handler.stage.answer s line).2.toList.map Message.encode
      else []
  /-- No line ends the service that is short enough to be repeated twice. -/
  short : ∀ (i : Inbox) (line : ByteArray), 2 * line.size + replyMargin ≤ maxFrameSize →
    (takeLine .stage { state := s, inbox := i } line).1.isOpen = true
  /-- Neither does a stream of such lines, in whatever pieces it comes: every line is answered. -/
  stream : ∀ chunks : List ByteArray,
    (∀ segment ∈ (segments (Inbox.joined chunks)).1 ++ [(segments (Inbox.joined chunks)).2],
      2 * segment.length + replyMargin ≤ maxFrameSize) →
    (Transducer.run (receive .stage) { state := s } chunks).1.isOpen = true ∧
      (Transducer.run (receive .stage) { state := s } chunks).2 =
        (Handler.stage.replies s (ofLines (segments (Inbox.joined chunks)).1)).map Message.encode

/-- A service survives the lines whose replies fit, and all lines of up to half the limit. -/
theorem survives (s : Stage) : Survives s where
  applied i line := by
    rcases takeLine_cases .stage s i line with ⟨-, taken⟩ | ⟨-, taken⟩ <;> rw [taken]
  goes_on i line := by
    rcases takeLine_cases .stage s i line with ⟨small, taken⟩ | ⟨⟨reply, answered, large⟩, taken⟩
    · rw [taken]
      exact ⟨fun _ ↦ small, fun _ ↦ rfl⟩
    · rw [taken]
      exact ⟨nofun, fun all ↦ absurd (all reply answered) large⟩
  written i line := by
    rcases takeLine_cases .stage s i line with ⟨-, taken⟩ | ⟨-, taken⟩ <;> rw [taken] <;> rfl
  short i line half := by
    have small : ∀ reply ∈ (Handler.stage.answer s line).2.toList, reply.Fits :=
      fun reply answered ↦
        (Handler.utf8ByteSize_answer_le Stage.terse (Option.mem_toList.1 answered)).trans half
    rw [takeLine_of_fits small]
  stream chunks half := by
    have within : oversized (Inbox.joined chunks) = false := by
      refine (oversized_eq_false_iff _).2 fun segment listed ↦ decide_eq_true ?_
      have twice := half segment listed
      omega
    have small := Handler.replies_fit Stage.terse
      (fun line listed ↦ half line (List.mem_append_left _ listed)) s
    rw [← fitting_eq within] at small ⊢
    have answered := run_receive chunks small
    exact ⟨by rw [answered.isOpen, within]; rfl, answered.written⟩

/-! ### Lines that end a service -/

section Unsendable

variable {s s' : Stage} {i : Inbox}

/-- A command whose id is more than half as long as a line may be is carried out and ends the
service. -/
theorem takeLine_of_long_id {m : Message}
    (finite : ∀ coordinate ∈ m.coordinates, coordinate.2.isFinite = true)
    (accepts : s.Accepts m.payload s') (long : maxFrameSize < 2 * quotedSize m.commandId + 56) :
    takeLine .stage { state := s, inbox := i } m.encode.toUTF8 =
      ({ state := s', isOpen := false }, []) := by
  have answered : Handler.stage.answer s m.encode.toUTF8 = (s', some m.ackFor) := by
    rw [Handler.answer_encode _ _ finite, Stage.dispatch_of_accepts accepts]
  have large : ¬m.ackFor.Fits := by
    rw [Message.Fits, Message.ackFor, Message.utf8ByteSize_ack]
    omega
  rw [takeLine_of_large (congrArg Prod.snd answered) large, answered]

/-- The value that has only a type. -/
def typed (name : String) : Json := .object [("type", .string name)]

theorem decodeBytes_typed {name : String} (unknown : MessageType.ofText? name = none) :
    Message.decodeBytes (typed name).render.toUTF8 = .error (.invalidMessageType name) := by
  have readable : Json.Readable Json.Reader.maxDepth (typed name) :=
    .record ["type"] rfl (List.pairwise_singleton ..)
      (List.forall_mem_singleton.2 (.string _ name))
  rw [Message.decodeBytes, Json.decodeBytes, Json.parseBytes?, fromUTF8?_toUTF8, Option.bind_some,
    Json.parse?_render readable]
  show Message.ofJson (typed name) = _
  rw [typed, Message.ofJson_object]
  show ((MessageType.decode name) >>= _) = _
  rw [MessageType.decode, unknown]
  rfl

theorem utf8ByteSize_typed (name : String) :
    (typed name).render.utf8ByteSize = quotedSize name + 11 := by
  have type : quotedSize "type" = 4 := by decide +kernel
  rw [← Json.byteCount_toList, Json.toList_render, typed, byteCount_one_text, type]
  omega

/-- A type that nobody knows is repeated. That ends the service if it is nearly as long as a line
may be. -/
theorem takeLine_of_long_type {name : String} (unknown : MessageType.ofText? name = none)
    (long : maxFrameSize < quotedSize name + 114) (within : quotedSize name + 11 ≤ maxFrameSize) :
    (typed name).render.toUTF8.size ≤ maxFrameSize ∧
      takeLine .stage { state := s, inbox := i } (typed name).render.toUTF8 =
        ({ state := s, isOpen := false }, []) := by
  have size : (typed name).render.toUTF8.size = quotedSize name + 11 := utf8ByteSize_typed name
  refine ⟨size.trans_le within, ?_⟩
  have answered : Handler.stage.answer s (typed name).render.toUTF8 =
      (s, some (.error unknownId ("Invalid RendererMessageType: " ++ name))) := by
    rw [Handler.answer, decodeBytes_typed unknown]
    rfl
  have unknownId_size : quotedSize unknownId = 7 := by decide +kernel
  have wording : quotedSize "Invalid RendererMessageType: " = 29 := by decide +kernel
  have large : ¬(Message.error unknownId ("Invalid RendererMessageType: " ++ name)).Fits := by
    rw [Message.Fits, Message.utf8ByteSize_error, Json.quotedSize_append, unknownId_size, wording]
    omega
  rw [takeLine_of_large (congrArg Prod.snd answered) large, answered]

/-- Any cue can be played without anybody being told, by a line within the limit. -/
theorem takeLine_of_long_cue {id cue : String}
    (long : maxFrameSize < 2 * quotedSize id + 56)
    (within : quotedSize id + quotedSize cue + 56 ≤ maxFrameSize) :
    let m : Message := ⟨id, .playCue ⟨cue⟩⟩
    m.encode.toUTF8.size ≤ maxFrameSize ∧
      takeLine .stage { state := s, inbox := i } m.encode.toUTF8 =
        ({ state := { s with lastCue := some ⟨cue⟩ }, isOpen := false }, []) := by
  intro m
  have size : m.encode.toUTF8.size = quotedSize id + quotedSize cue + 56 :=
    Message.utf8ByteSize_playCue id cue
  exact ⟨size.trans_le within, takeLine_of_long_id nofun (.play ⟨cue⟩) long⟩

end Unsendable

/-! ### Two lines of nearly one letter -/

theorem ofText?_replicate {n : ℕ} (long : 19 < n) :
    MessageType.ofText? (String.ofList (List.replicate n 'x')) = none := by
  refine Option.eq_none_iff_forall_ne_some.2 fun type named ↦ ?_
  have length := congrArg String.length ((MessageType.ofText?_eq_some_iff _ type).1 named)
  have short : type.text.length ≤ 19 := by cases type <;> decide
  rw [String.length_ofList, List.length_replicate] at length
  omega

/-- A cue that is played, and nobody is told; a type that is too long to be repeated. Both lines are
within the limit. -/
theorem takeLine_unsendable :
    let played : ByteArray := (Message.encode
      ⟨String.ofList (List.replicate 9000000 'x'), .playCue ⟨"cue-1"⟩⟩).toUTF8
    let unread : ByteArray := (typed (String.ofList (List.replicate 16777200 'x'))).render.toUTF8
    (played.size ≤ maxFrameSize ∧ takeLine .stage { state := {} } played =
      ({ state := { lastCue := some ⟨"cue-1"⟩ }, isOpen := false }, [])) ∧
    (unread.size ≤ maxFrameSize ∧ takeLine .stage { state := {} } unread =
      ({ state := {}, isOpen := false }, [])) := by
  have limit : maxFrameSize = 16777216 := by decide
  have cue : quotedSize "cue-1" = 5 := by decide +kernel
  have id := quotedSize_replicate 9000000
  have name := quotedSize_replicate 16777200
  exact ⟨takeLine_of_long_cue (by omega) (by omega),
    takeLine_of_long_type (ofText?_replicate (by decide)) (by omega) (by omega)⟩

end Service

end ShowControl
