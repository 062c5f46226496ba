import ShowControl.Proofs.Frame.Calls

/-!
# One limit for writing and for reading

A writer looks at how long the line of a message is, a reader at where the first line feed stands
among the bytes. These are the same number, because a line holds no line feed (`front_frame`). So
whatever is written can be taken and whatever is refused would have been refused on arrival, with
the same size, also at the limit itself (`Message.limits_agree`).
-/

namespace ShowControl

open Splitter

namespace Message

variable (m : Message)

/-- A new inbox into which the frame of a message has come, of whatever length. -/
def arriving : Inbox := ({} : Inbox).append m.frame

/-- What the new inbox gives back when a line is taken, and the inbox that is left. -/
def arrival : Inbox × InboxAnswer := m.arriving.answer .take

theorem toList_data_frame : m.frame.data.toList = textBytes m.encode ++ lineFeed :: [] :=
  textBytes_push m.encode

/-- What stands before the first line feed of a frame is the line of the message. -/
theorem front_frame : front m.frame.data.toList = textBytes m.encode := by
  rw [toList_data_frame, front_append m.lineFeed_not_mem_encode]

theorem fits_encode_iff : fits (textBytes m.encode) = true ↔ m.Fits := by
  rw [fits, length_textBytes, decide_eq_true_iff, Fits]

theorem holds_arriving : m.arriving.Holds m.frame.data.toList :=
  Inbox.holds_empty.append m.frame

variable {m}

/-- The frame of a message that fits is taken whole, for the line that was sent. -/
theorem arrival_of_fits (small : m.Fits) :
    m.arrival.2 = .taken (some (.line (decodeBytes m.encode.toUTF8))) ∧
      m.arrival.1.buffer.data.toList = [] := by
  obtain ⟨found, left⟩ := m.holds_arriving.next_of_line m.toList_data_frame
    m.lineFeed_not_mem_encode (m.fits_encode_iff.2 small)
    (m.content_encode.symm ▸ m.textBytes_encode_ne_nil)
  rw [m.content_encode, toByteArray_textBytes] at found
  rw [arrival, Inbox.answer, found]
  exact ⟨rfl, left⟩

/-- The frame of any other message is refused, for the length of its line. -/
theorem arrival_of_large (large : ¬m.Fits) :
    m.arrival.2 = .taken (some (.tooLarge ⟨m.encode.utf8ByteSize⟩)) := by
  have unfit : fits (front m.frame.data.toList) = false := by
    rw [front_frame, Bool.eq_false_iff]
    exact mt m.fits_encode_iff.1 large
  have refused := (m.holds_arriving.answer_taking_of_unfit unfit (.inl rfl)).1
  rwa [front_frame, length_textBytes] at refused

theorem answer_write_of_fits (small : m.Fits) (i : Inbox) :
    i.answer (.write m) = (i.append m.frame, .written (.ok ())) := by
  rw [Inbox.answer, Inbox.write, line?_of_fits small]
  rfl

theorem answer_write_of_large (large : ¬m.Fits) (i : Inbox) :
    i.answer (.write m) = (i, .written (.error ⟨m.encode.utf8ByteSize⟩)) := by
  rw [Inbox.answer, Inbox.write, line?_of_large large]

/-- To write a message behind what an inbox holds, and to take it from its frame. -/
structure LimitsAgree (m : Message) (i : Inbox) : Prop where
  /-- It is written exactly if its frame gives an item, -/
  written_iff : (i.answer (.write m)).2 = .written (.ok ()) ↔
    ∃ result, m.arrival.2 = .taken (some (.line result))
  /-- and is refused exactly if its frame is, with the same size. -/
  refused_iff : ∀ e, (i.answer (.write m)).2 = .written (.error e) ↔
    m.arrival.2 = .taken (some (.tooLarge e))
  /-- One of the two is the case. -/
  decided : (i.answer (.write m)).2 = .written (.ok ()) ∨
    ∃ e, (i.answer (.write m)).2 = .written (.error e)
  /-- What is written is the frame, behind the bytes that are there. -/
  appended : (i.answer (.write m)).2 = .written (.ok ()) →
    (i.answer (.write m)).1.buffer = i.buffer ++ m.frame
  /-- What is refused leaves the bytes as they are. -/
  kept : ∀ e, (i.answer (.write m)).2 = .written (.error e) →
    (i.answer (.write m)).1.buffer = i.buffer
  /-- The item is what the line of the message is read as, and nothing is left of the frame. -/
  item : ∀ result, m.arrival.2 = .taken (some (.line result)) →
    result = decodeBytes m.encode.toUTF8 ∧ m.arrival.1.buffer.data.toList = []

theorem limitsAgree_of_fits (small : m.Fits) (i : Inbox) : m.LimitsAgree i := by
  have written := answer_write_of_fits small i
  obtain ⟨taken, empty⟩ := arrival_of_fits small
  refine
    { written_iff := iff_of_true (by rw [written]) ⟨_, taken⟩
      refused_iff := fun e ↦ ?_
      decided := .inl (by rw [written])
      appended := fun _ ↦ by rw [written, Inbox.append]
      kept := fun e refused ↦ ?_
      item := fun result eq ↦ ?_ }
  · rw [written, taken]
    constructor <;> intro eq <;> cases eq
  · rw [written] at refused
    cases refused
  · rw [taken] at eq
    cases eq
    exact ⟨rfl, empty⟩

theorem limitsAgree_of_large (large : ¬m.Fits) (i : Inbox) : m.LimitsAgree i := by
  have refused := answer_write_of_large large i
  have taken := arrival_of_large large
  refine
    { written_iff := ?_
      refused_iff := fun e ↦ ?_
      decided := .inr ⟨_, by rw [refused]⟩
      appended := fun written ↦ ?_
      kept := fun _ _ ↦ by rw [refused]
      item := fun result eq ↦ ?_ }
  · rw [refused, taken]
    constructor
    · intro eq
      cases eq
    · rintro ⟨result, eq⟩
      cases eq
  · rw [refused, taken]
    constructor <;> rintro ⟨⟩ <;> rfl
  · rw [refused] at written
    cases written
  · rw [taken] at eq
    cases eq

/-- Writer and reader have the same limit, for every message and whatever the buffer holds. -/
theorem limits_agree (m : Message) (i : Inbox) : m.LimitsAgree i := by
  by_cases small : m.Fits
  · exact limitsAgree_of_fits small i
  · exact limitsAgree_of_large small i

end Message

end ShowControl
