import ShowControl.Proofs.Message.Size

/-!
# Two ways to end a line

A line may be ended by a line feed, or by a carriage return and a line feed. The carriage return is
dropped when the line is taken, but it has been counted by then: the limit is on what stands before
the line feed. So the two ways are the same for all lines that may be sent but those whose length is
the limit itself. These are taken with a line feed, and with a carriage return in front of it they
are over the limit by this one byte (`Message.ends`), which ends their stream.
-/

namespace ShowControl

open Splitter
open Json (quotedSize)

namespace Splitter

/-- A carriage return that ends a line does not belong to what the line holds. -/
theorem content_append_carriageReturn (line : List UInt8) :
    content (line ++ [carriageReturn]) = line := by
  rw [content, List.getLast?_concat, if_pos rfl, List.dropLast_concat]

end Splitter

/-- The message comes out of a stream in pieces, and nothing else does or is left. -/
structure Message.ComesOf (m : Message) (chunks : List ByteArray) : Prop where
  taken : (Transducer.run Inbox.receive {} chunks).2 = [.line (.ok m)]
  empty : (Transducer.run Inbox.receive {} chunks).1.buffer = .empty

/-- All that comes out of a stream in pieces is that its first segment, of this length, is over the
limit, and all of it is left. -/
structure Inbox.Refuses (size : ℕ) (chunks : List ByteArray) : Prop where
  reported : ∃ reports : List FrameTooLarge, reports ≠ [] ∧
    (Transducer.run Inbox.receive {} chunks).2 = reports.map .tooLarge ∧ ∀ e ∈ reports, e = ⟨size⟩
  left : (Transducer.run Inbox.receive {} chunks).1.buffer.data.toList = Inbox.joined chunks

/-- What is refused is not taken. -/
theorem Inbox.Refuses.not_comesOf {size : ℕ} {chunks : List ByteArray} {m : Message}
    (refuses : Refuses size chunks) : ¬m.ComesOf chunks := by
  obtain ⟨⟨reports, some_reported, run, -⟩, -⟩ := refuses
  intro comes
  rw [comes.taken] at run
  cases reports with
  | nil => exact some_reported rfl
  | cons report reports => cases run

namespace Message

variable {m : Message} {chunks : List ByteArray}

/-- The line of a message behind which a carriage return stands. -/
def returned (m : Message) : List UInt8 := textBytes m.encode ++ [carriageReturn]

theorem lineFeed_not_mem_returned (m : Message) : lineFeed ∉ m.returned := by
  rw [returned, List.mem_append, not_or]
  exact ⟨m.lineFeed_not_mem_encode, by decide⟩

theorem length_returned (m : Message) : m.returned.length = m.encode.utf8ByteSize + 1 := by
  rw [returned, List.length_append, length_textBytes, List.length_singleton]

/-- A stream of one line that holds the line of a message gives the message. -/
theorem comesOf_line (finite : ∀ coordinate ∈ m.coordinates, coordinate.2.isFinite = true)
    {line : List UInt8} (free : lineFeed ∉ line) (within : line.length ≤ maxFrameSize)
    (holds : content line = textBytes m.encode)
    (bytes : Inbox.joined chunks = line ++ [lineFeed]) : m.ComesOf chunks := by
  have split : segments (Inbox.joined chunks) = ([line], []) := by
    rw [bytes, segments_append free]
    rfl
  have small : oversized (Inbox.joined chunks) = false := by
    rw [oversized_eq_false_iff, split]
    simpa [fits] using within
  have decoded : Decoded.ofLines [line] = [.line (.ok m)] := by
    rw [Decoded.ofLines, contents_cons, holds, if_neg m.textBytes_encode_ne_nil, contents_nil,
      List.map_singleton, decodeBytes_encode finite]
  obtain ⟨inbox, run, left⟩ := Inbox.run_receive_of_fits small
  rw [split] at run left
  refine ⟨by rw [run, decoded], ?_⟩
  rw [run, ← toByteArray_toList_data inbox.buffer, left.buffer]
  rfl

/-- A stream of one line is refused that is over the limit by one byte. -/
theorem refuses_line {line : List UInt8} (free : lineFeed ∉ line)
    (large : line.length = maxFrameSize + 1)
    (bytes : Inbox.joined chunks = line ++ [lineFeed]) :
    Inbox.Refuses (maxFrameSize + 1) chunks := by
  have unfit : ¬fits line = true := by
    rw [fits, large]
    simp
  obtain ⟨inbox, reports, run, holds, often, sizes⟩ :=
    Inbox.holds_empty.run_receive rfl (by decide) chunks
  rw [List.nil_append, bytes, fitting_of_not_fits free [] unfit] at run
  rw [List.nil_append, bytes, pending_of_not_fits free [] unfit] at holds sizes
  rw [List.nil_append, bytes, oversized, pending_of_not_fits free [] unfit, front_append free,
    Bool.not_eq_false'] at often
  rw [front_append free] at sizes
  refine ⟨⟨reports, fun none_reported ↦ unfit (often.1 none_reported), by rw [run]; rfl, ?_⟩, ?_⟩
  · rintro ⟨size⟩ reported
    obtain ⟨at_least, at_most⟩ := sizes _ reported
    have least : maxFrameSize < size := at_least
    have most : size ≤ maxFrameSize + 1 := large ▸ at_most
    rw [FrameTooLarge.mk.injEq]
    omega
  · rw [run, holds.buffer, bytes]

/-- A line that may be sent is taken with a line feed. -/
theorem comesOf_fed (finite : ∀ coordinate ∈ m.coordinates, coordinate.2.isFinite = true)
    (small : m.Fits)
    (bytes : Inbox.joined chunks = textBytes m.encode ++ [lineFeed]) : m.ComesOf chunks := by
  refine comesOf_line finite m.lineFeed_not_mem_encode ?_ m.content_encode bytes
  rw [length_textBytes]
  exact small

/-- A shorter line is taken with a carriage return and a line feed too. -/
theorem comesOf_returned
    (finite : ∀ coordinate ∈ m.coordinates, coordinate.2.isFinite = true)
    (shorter : m.encode.utf8ByteSize < maxFrameSize)
    (bytes : Inbox.joined chunks = textBytes m.encode ++ [carriageReturn, lineFeed]) :
    m.ComesOf chunks := by
  rw [List.append_cons, ← returned] at bytes
  refine comesOf_line finite m.lineFeed_not_mem_returned ?_ (content_append_carriageReturn _) bytes
  rw [length_returned]
  exact shorter

/-- A line whose length is the limit is refused for its carriage return. -/
theorem refuses_returned (full : m.encode.utf8ByteSize = maxFrameSize)
    (bytes : Inbox.joined chunks = textBytes m.encode ++ [carriageReturn, lineFeed]) :
    Inbox.Refuses (maxFrameSize + 1) chunks := by
  rw [List.append_cons, ← returned] at bytes
  exact refuses_line m.lineFeed_not_mem_returned (by rw [length_returned, full]) bytes

/-- What becomes of the line of a message, by the way in which it is ended and however it is cut. -/
structure Ends (m : Message) : Prop where
  /-- With a line feed every line is taken that may be sent. -/
  fed : m.Fits → ∀ chunks, Inbox.joined chunks = textBytes m.encode ++ [lineFeed] →
    m.ComesOf chunks
  /-- With a carriage return and a line feed it is taken exactly if it is not as long as may be. -/
  paired : m.Fits → ∀ chunks,
    Inbox.joined chunks = textBytes m.encode ++ [carriageReturn, lineFeed] →
    (m.ComesOf chunks ↔ m.encode.utf8ByteSize ≠ maxFrameSize)
  /-- If it is as long as may be, it is refused, and ends its stream. -/
  full : m.encode.utf8ByteSize = maxFrameSize → ∀ chunks,
    Inbox.joined chunks = textBytes m.encode ++ [carriageReturn, lineFeed] →
    Inbox.Refuses (maxFrameSize + 1) chunks

/-- A line may be ended in two ways, of which the second leaves one byte less for the line. -/
theorem ends (finite : ∀ coordinate ∈ m.coordinates, coordinate.2.isFinite = true) : m.Ends where
  fed small _ bytes := comesOf_fed finite small bytes
  paired small chunks bytes := by
    constructor
    · intro comes full
      exact (refuses_returned full bytes).not_comesOf comes
    · intro shorter
      exact comesOf_returned finite (lt_of_le_of_ne small shorter) bytes
  full full _ bytes := refuses_returned full bytes

/-- A surface with a vertex, cut between the carriage return and the line feed. -/
theorem ends_definition :
    let m : Message := ⟨"cmd-1", .loadSceneDefinition
      { scene :=
          { id := ⟨"s"⟩, name := "", description := "\r\n"
            surfaces :=
              [{ Surface.plain ⟨"a"⟩ "" ⟨"f"⟩ with vertices := [⟨.zero .single, .zero .single⟩] }] }
        feeds := [] }⟩
    (∀ coordinate ∈ m.coordinates, coordinate.2.isFinite = true) ∧ m.Fits ∧
      m.ComesOf [(textBytes m.encode ++ [carriageReturn]).toByteArray, [lineFeed].toByteArray] := by
  intro m
  have finite : ∀ coordinate ∈ m.coordinates, coordinate.2.isFinite = true := by decide
  have size : m.encode.utf8ByteSize < maxFrameSize := by
    rw [utf8ByteSize_encode]
    decide +kernel
  have small : m.Fits := size.le
  refine ⟨finite, small, ((ends finite).paired small _ ?_).2 size.ne⟩
  simp [Inbox.joined]

/-- A cue whose line is as long as a line may be. It is sent and taken with a line feed, and refused
with a carriage return in front of it. -/
theorem ends_differ :
    let m := longCue "cmd-1" 16777155
    m.line? = .ok m.encode ∧ (∀ coordinate ∈ m.coordinates, coordinate.2.isFinite = true) ∧
      m.ComesOf [(textBytes m.encode ++ [lineFeed]).toByteArray] ∧
      ¬m.ComesOf [(textBytes m.encode ++ [carriageReturn, lineFeed]).toByteArray] := by
  intro m
  have full : m.encode.utf8ByteSize = maxFrameSize := by
    have id : quotedSize "cmd-1" = 5 := by decide +kernel
    have limit : maxFrameSize = 16777216 := by decide
    rw [utf8ByteSize_longCue, id, limit]
  have finite : ∀ coordinate ∈ m.coordinates, coordinate.2.isFinite = true := nofun
  have small : m.Fits := full.le
  refine ⟨line?_of_fits small, finite, comesOf_fed finite small ?_, ?_⟩
  · simp [Inbox.joined]
  · exact (refuses_returned full (by simp [Inbox.joined])).not_comesOf

end Message

end ShowControl
