import ShowControl.Proofs.Frame.Looking
import ShowControl.Proofs.Message.Stream

/-!
# Calls of an inbox in any order

Bytes arrive, lines are taken, the end of the stream is met and perhaps followed by more bytes, and
messages are written into the same buffer: nothing keeps these calls in order. A run answers a list
of them, and three things are said of what a run comes to.

* The inbox looks on where it has stopped, and this is never seen (`run_resumes`).
* A segment over the limit is the last thing that is found, whatever is called then
  (`run_oversized`).
* At the end of the stream all complete lines are found and then nothing, and what is left is a new
  inbox (`run_finishes`).

All of them rest on one invariant, `Inbox.Holds` of the bytes in the buffer, which every call keeps
(`Inbox.Holds.answer`). Behind a segment over the limit it is carried along the calls
(`Inbox.Holds.run_of_unfit`), and while lines are taken along these (`Inbox.Holds.run_taking`).
-/

namespace ShowControl

open Splitter

/-! ### Calls -/

/-- What may be asked of an inbox. -/
inductive InboxCall where
  /-- More bytes arrive. -/
  | append (bytes : ByteArray)
  /-- The next line is taken. -/
  | take
  /-- The next line is taken at the end of the stream. -/
  | takeAtEnd
  /-- The frame of a message is written behind the bytes. -/
  | write (message : Message)
  /-- A new inbox takes over the bytes, and has not looked at them. -/
  | renew

namespace InboxCall

/-- The call takes a line. -/
def IsTaking (call : InboxCall) : Prop := call = .take ∨ call = .takeAtEnd

/-- The bytes that come into the buffer. -/
def brings : InboxCall → List UInt8
  | .append bytes => bytes.data.toList
  | .take => []
  | .takeAtEnd => []
  | .write m => if m.encode.utf8ByteSize ≤ maxFrameSize then m.frame.data.toList else []
  | .renew => []

end InboxCall

/-- What a call gives back. -/
inductive InboxAnswer where
  | done
  | taken (item : Option Decoded)
  | written (result : Except FrameTooLarge Unit)

/-- What is found, for the one who takes it. -/
def Found.item : Found → Option Decoded
  | .nothing => none
  | .line text => some (.line (Message.decodeBytes text))
  | .tooLarge size => some (.tooLarge ⟨size⟩)

namespace Inbox

/-- Answers a call. -/
def answer (i : Inbox) : InboxCall → Inbox × InboxAnswer
  | .append bytes => (i.append bytes, .done)
  | .take => (i.next.1, .taken i.next.2.item)
  | .takeAtEnd => (i.nextAtEnd.1, .taken i.nextAtEnd.2.item)
  | .write m =>
    match i.write m with
    | .ok i' => (i', .written (.ok ()))
    | .error e => (i, .written (.error e))
  | .renew => (i.fresh, .done)

/-- Answers calls in order. -/
def run (i : Inbox) (calls : List InboxCall) : Inbox × List InboxAnswer :=
  Transducer.run (fun i call ↦ ((i.answer call).1, [(i.answer call).2])) i calls

theorem run_cons (i : Inbox) (call : InboxCall) (calls : List InboxCall) :
    i.run (call :: calls) =
      (((i.answer call).1.run calls).1, (i.answer call).2 :: ((i.answer call).1.run calls).2) :=
  Transducer.run_cons ..

theorem run_append (i : Inbox) (first second : List InboxCall) :
    i.run (first ++ second) =
      (((i.run first).1.run second).1, (i.run first).2 ++ ((i.run first).1.run second).2) :=
  Transducer.run_append ..

variable {i i' : Inbox} {bytes : List UInt8} {call : InboxCall}

/-! ### One call -/

/-- Whoever takes a line takes what is found, if anything is. -/
theorem answer_of_found (taking : call.IsTaking) {found : Found} (eq : i.next = (i', found))
    (some : found ≠ .nothing) : i.answer call = (i', .taken found.item) := by
  obtain rfl | rfl := taking
  · rw [answer, eq]
  · rw [answer, nextAtEnd_of_found eq some]

theorem answer_of_nothing (taking : call.IsTaking) (eq : i.next = (i', .nothing)) :
    (i.answer call).2 = .taken none := by
  obtain rfl | rfl := taking
  · rw [answer, eq]
    rfl
  · rw [answer, nextAtEnd_of_nothing eq]
    rfl

theorem isTaking_of_answer {item : Option Decoded} (answered : (i.answer call).2 = .taken item) :
    call.IsTaking := by
  cases call with
  | take => exact .inl rfl
  | takeAtEnd => exact .inr rfl
  | append bytes => cases answered
  | write m =>
    rw [answer] at answered
    split at answered <;> cases answered
  | renew => cases answered

/-- What is given back has been found. -/
theorem next_of_answer {item : Decoded} (answered : (i.answer call).2 = .taken (some item)) :
    ∃ found : Found, i.next = ((i.answer call).1, found) ∧ found.item = some item := by
  have taking := isTaking_of_answer answered
  obtain ⟨⟨i', found⟩, eq⟩ : ∃ r, i.next = r := ⟨_, rfl⟩
  have some : found ≠ .nothing := by
    rintro rfl
    rw [answer_of_nothing taking eq] at answered
    cases answered
  rw [answer_of_found taking eq some] at answered ⊢
  exact ⟨found, eq, InboxAnswer.taken.inj answered⟩

theorem holds_fresh (i : Inbox) : i.fresh.Holds i.buffer.data.toList :=
  holds_buffer (i := i.fresh) rfl

theorem Holds.write (h : i.Holds bytes) (m : Message) :
    (i.answer (.write m)).1.Holds (bytes ++ InboxCall.brings (.write m)) := by
  rw [Inbox.answer, Inbox.write, InboxCall.brings]
  by_cases small : m.encode.utf8ByteSize ≤ maxFrameSize
  · rw [Message.line?_of_fits small, if_pos small]
    exact h.append _
  · rw [Message.line?_of_large small, if_neg small, List.append_nil]
    exact h

theorem Holds.nextAtEnd_self (h : i.Holds bytes) :
    i.nextAtEnd.1.Holds i.nextAtEnd.1.buffer.data.toList := by
  by_cases none : i.next.2 = .nothing
  · rw [nextAtEnd_of_nothing (Prod.ext rfl none)]
    exact holds_empty
  · rw [nextAtEnd_of_found rfl none]
    exact h.next_self

/-- After every call the bytes that count as looked at are in the buffer and hold no line feed. -/
theorem Holds.answer (h : i.Holds i.buffer.data.toList) (call : InboxCall) :
    (i.answer call).1.Holds (i.answer call).1.buffer.data.toList := by
  cases call with
  | append bytes => exact (h.append bytes).self
  | take => exact h.next_self
  | takeAtEnd => exact h.nextAtEnd_self
  | write m => exact (h.write m).self
  | renew => exact holds_fresh i

theorem Holds.run (h : i.Holds i.buffer.data.toList) (calls : List InboxCall) :
    (i.run calls).1.Holds (i.run calls).1.buffer.data.toList := by
  induction calls generalizing i with
  | nil => exact h
  | cons call calls ih =>
    rw [run_cons]
    exact ih (h.answer call)

/-- The bytes that come into the buffer during some calls. -/
def brought (calls : List InboxCall) : List UInt8 := calls.flatMap InboxCall.brings

/-! ### To look on -/

/-- The inbox looks on where it has stopped, and nobody can tell that it does. -/
structure Resumes (i : Inbox) : Prop where
  /-- The bytes that count as looked at are there, -/
  within : i.scanned ≤ i.buffer.size
  /-- and hold no line feed. -/
  free : lineFeed ∉ i.buffer.data.toList.take i.scanned
  /-- No look goes beyond the bytes. -/
  inside : Cursor.next? i.buffer ⟨0, i.scanned⟩ = some (Cursor.next i.buffer ⟨0, i.scanned⟩)
  /-- A line that is taken, and what is left, are the same for an inbox that looks at all bytes. -/
  same : ∀ call : InboxCall, call.IsTaking →
    (i.answer call).2 = (i.fresh.answer call).2 ∧
      (i.answer call).1.buffer = (i.fresh.answer call).1.buffer

theorem Holds.nextAtEnd_fresh (h : i.Holds bytes) :
    i.nextAtEnd.2 = i.fresh.nextAtEnd.2 ∧
      i.nextAtEnd.1.buffer = i.fresh.nextAtEnd.1.buffer := by
  obtain ⟨found, buffer⟩ := h.next_fresh
  by_cases none : i.next.2 = .nothing
  · rw [nextAtEnd_of_nothing (Prod.ext rfl none),
      nextAtEnd_of_nothing (Prod.ext rfl (found.symm.trans none))]
    exact ⟨rfl, rfl⟩
  · rw [nextAtEnd_of_found rfl none, nextAtEnd_of_found rfl (found ▸ none)]
    exact ⟨found, buffer⟩

/-- Whatever has been called before, an inbox looks on as if it looked at all of its bytes. -/
theorem run_resumes (calls : List InboxCall) : Resumes (run {} calls).1 := by
  have holds := holds_empty.self.run calls
  generalize (run {} calls).1 = i at holds
  refine ⟨?_, holds.free, Cursor.next?_eq holds.clean.within, fun call taking ↦ ?_⟩
  · simpa using holds.within
  · obtain rfl | rfl := taking
    · obtain ⟨found, buffer⟩ := holds.next_fresh
      exact ⟨congrArg (fun found : Found ↦ InboxAnswer.taken found.item) found, buffer⟩
    · obtain ⟨found, buffer⟩ := holds.nextAtEnd_fresh
      exact ⟨congrArg (fun found : Found ↦ InboxAnswer.taken found.item) found, buffer⟩

/-! ### Segments over the limit -/

/-- The line that was taken stood whole in the buffer, behind lines without content and in front of
what is left. -/
def TakesWhole (i i' : Inbox) (result : Except DecodeError Message) : Prop :=
  ∃ (blanks : List (List UInt8)) (line : List UInt8),
    (∀ blank ∈ blanks, content blank = []) ∧ line.length ≤ maxFrameSize ∧
    result = Message.decodeBytes (content line).toByteArray ∧
    i.buffer.data.toList = (blanks.map (· ++ [lineFeed])).flatten ++
      (line ++ lineFeed :: i'.buffer.data.toList)

theorem Holds.takesWhole (h : i.Holds i.buffer.data.toList)
    {result : Except DecodeError Message}
    (answered : (i.answer call).2 = .taken (some (.line result))) :
    TakesWhole i (i.answer call).1 result := by
  obtain ⟨found, eq, same⟩ := next_of_answer answered
  cases found with
  | nothing => cases same
  | line text =>
    obtain ⟨blanks, line, empty, fit, rfl, all⟩ := h.exists_line eq
    refine ⟨blanks, line, empty, by simpa [fits] using fit, ?_, all⟩
    exact (Decoded.line.inj (Option.some.inj same)).symm
  | tooLarge size => cases same

section Unfit

variable (h : i.Holds bytes) (unfit : fits (front bytes) = false)
include h unfit

/-- In front of a segment over the limit whoever takes a line is told of it. -/
theorem Holds.answer_taking_of_unfit (taking : call.IsTaking) :
    (i.answer call).2 = .taken (some (.tooLarge ⟨(front bytes).length⟩)) ∧
      (i.answer call).1.Holds bytes := by
  obtain ⟨found, holds⟩ := h.next_of_unfit unfit
  have eq : i.next = (i.next.1, .tooLarge (front bytes).length) := Prod.ext rfl found
  rw [answer_of_found taking eq nofun]
  exact ⟨rfl, holds⟩

/-- What is called in front of a segment over the limit at most adds to the bytes. -/
theorem Holds.answer_of_unfit (call : InboxCall) :
    (i.answer call).1.Holds (bytes ++ call.brings) ∧
      ∀ result, (i.answer call).2 ≠ .taken (some (.line result)) := by
  cases call with
  | append chunk => exact ⟨h.append chunk, nofun⟩
  | take =>
    obtain ⟨answered, holds⟩ := h.answer_taking_of_unfit unfit (.inl rfl)
    exact ⟨by rwa [InboxCall.brings, List.append_nil], by rw [answered]; nofun⟩
  | takeAtEnd =>
    obtain ⟨answered, holds⟩ := h.answer_taking_of_unfit unfit (.inr rfl)
    exact ⟨by rwa [InboxCall.brings, List.append_nil], by rw [answered]; nofun⟩
  | write m =>
    refine ⟨h.write m, ?_⟩
    rw [Inbox.answer]
    split <;> nofun
  | renew =>
    rw [InboxCall.brings, List.append_nil, ← h.buffer]
    exact ⟨holds_fresh i, nofun⟩

theorem Holds.run_of_unfit (calls : List InboxCall) :
    (i.run calls).1.Holds (bytes ++ brought calls) ∧
      ∀ result, .taken (some (.line result)) ∉ (i.run calls).2 := by
  induction calls generalizing i bytes with
  | nil =>
    rw [brought, List.flatMap_nil, List.append_nil]
    exact ⟨h, fun _ mem ↦ absurd mem List.not_mem_nil⟩
  | cons call calls ih =>
    obtain ⟨holds, no_line⟩ := h.answer_of_unfit unfit call
    obtain ⟨holds', no_lines⟩ := ih holds (stuck_append unfit call.brings)
    rw [run_cons]
    refine ⟨by simpa [brought] using holds', fun result mem ↦ ?_⟩
    rcases List.mem_cons.1 mem with first | later
    · exact no_line result first.symm
    · exact no_lines result later

end Unfit

/-- A segment over the limit has been found after some calls. -/
structure Ends (calls : List InboxCall) (call : InboxCall) (e : FrameTooLarge) : Prop where
  /-- All that is taken from the bytes are lines without content; the segment is in front of what is
  left. -/
  kept : ∃ blanks : List (List UInt8), (∀ blank ∈ blanks, content blank = []) ∧
    (run {} calls).1.buffer.data.toList = (blanks.map (· ++ [lineFeed])).flatten ++
      ((run {} calls).1.answer call).1.buffer.data.toList
  large : maxFrameSize < e.size
  size : e.size = (front ((run {} calls).1.answer call).1.buffer.data.toList).length
  /-- Whatever is called then, the bytes stay, with those behind them that it brings, -/
  stays : ∀ later, ((((run {} calls).1.answer call).1.run later).1.buffer.data.toList =
    ((run {} calls).1.answer call).1.buffer.data.toList ++ brought later)
  /-- whoever takes a line is told of the segment again, and takes nothing, -/
  again : ∀ later taking, taking.IsTaking → ∃ e', e.size ≤ e'.size ∧
    ((((run {} calls).1.answer call).1.run later).1.answer taking).2 =
      .taken (some (.tooLarge e')) ∧
    ((((run {} calls).1.answer call).1.run later).1.answer taking).1.buffer =
      (((run {} calls).1.answer call).1.run later).1.buffer
  /-- and nobody is given a line. -/
  silent : ∀ later result,
    .taken (some (.line result)) ∉ (((run {} calls).1.answer call).1.run later).2
  /-- The lines that were taken before were whole. -/
  whole : ∀ before taking after result, calls = before ++ taking :: after →
    ((run {} before).1.answer taking).2 = .taken (some (.line result)) →
      TakesWhole (run {} before).1 ((run {} before).1.answer taking).1 result

/-- A segment over the limit is the last thing that is found. -/
theorem run_oversized {calls : List InboxCall} {call : InboxCall} {e : FrameTooLarge}
    (refused : ((run {} calls).1.answer call).2 = .taken (some (.tooLarge e))) :
    Ends calls call e := by
  have holds := holds_empty.self.run calls
  obtain ⟨found, eq, same⟩ := next_of_answer refused
  cases found with
  | nothing => cases same
  | line text => cases same
  | tooLarge size =>
    obtain rfl := Decoded.tooLarge.inj (Option.some.inj same)
    have left := holds.answer call
    obtain ⟨blanks, empty, all, unfit, rfl⟩ := holds.exists_unfit eq
    refine
      { kept := ⟨blanks, empty, all⟩
        large := by simpa [fits] using unfit
        size := rfl
        stays := fun later ↦ (left.run_of_unfit unfit later).1.buffer
        again := fun later taking is_taking ↦ ?_
        silent := fun later ↦ (left.run_of_unfit unfit later).2
        whole := fun before taking after result split answered ↦ ?_ }
    · obtain ⟨holds', -⟩ := left.run_of_unfit unfit later
      have unfit' := stuck_append unfit (brought later)
      obtain ⟨answered, holds''⟩ := holds'.answer_taking_of_unfit unfit' is_taking
      refine ⟨_, length_front_le _ _, answered, ?_⟩
      rw [← toByteArray_toList_data (Inbox.buffer _), holds''.buffer, ← holds'.buffer,
        toByteArray_toList_data]
    · exact (holds_empty.self.run before).takesWhole answered

/-- A line over the limit is refused as soon as so much of it has arrived. -/
theorem answer_taking_of_long {line : List UInt8} (free : lineFeed ∉ line)
    (long : maxFrameSize < line.length) (taking : call.IsTaking) :
    ((run {} [.append line.toByteArray]).1.answer call).2 =
      .taken (some (.tooLarge ⟨line.length⟩)) := by
  have holds : (run {} [.append line.toByteArray]).1.Holds line := by
    have appended := holds_empty.append line.toByteArray
    rwa [List.nil_append, List.toList_data_toByteArray] at appended
  have unfit : fits (front line) = false := by
    rw [front_of_not_mem free, fits]
    exact decide_eq_false (Nat.not_le.2 long)
  have refused := (holds.answer_taking_of_unfit unfit taking).1
  rwa [front_of_not_mem free] at refused

/-- A late line feed, and a message behind it, do not help, nor does it to begin anew. -/
theorem run_oversized_late :
    let line : List UInt8 := List.replicate (maxFrameSize + 1) 120
    let calls : List InboxCall := [.append line.toByteArray]
    let later : List InboxCall :=
      [.append ⟨#[lineFeed]⟩, .write (Message.ack "cmd-1"), .renew]
    ((run {} calls).1.answer .take).2 = .taken (some (.tooLarge ⟨maxFrameSize + 1⟩)) ∧
      ∃ e : FrameTooLarge, maxFrameSize < e.size ∧
        ((((run {} calls).1.answer .take).1.run later).1.answer .takeAtEnd).2 =
          .taken (some (.tooLarge e)) := by
  intro line calls later
  have length : line.length = maxFrameSize + 1 := List.length_replicate
  have free : lineFeed ∉ line := fun mem ↦ absurd (List.eq_of_mem_replicate mem) (by decide)
  have refused : ((run {} calls).1.answer .take).2 =
      .taken (some (.tooLarge ⟨maxFrameSize + 1⟩)) := by
    rw [← length]
    exact answer_taking_of_long free (by omega) (.inl rfl)
  have ends := run_oversized refused
  obtain ⟨e, larger, again, -⟩ := ends.again later .takeAtEnd (.inr rfl)
  exact ⟨refused, e, ends.large.trans_le larger, again⟩

/-! ### The end of the stream -/

/-- What is given back, one after the other, to whoever takes lines until there is none. -/
def untilNothing (items : List Decoded) : List InboxAnswer :=
  items.map (fun item ↦ .taken (some item)) ++ [.taken none]

/-- Whoever takes lines until there is none is given those that the splitter finds, each once and
decoded by itself. -/
theorem Holds.run_taking (h : i.Holds bytes) (within : oversized bytes = false)
    (is_taking : call.IsTaking) :
    ∃ rest last : Inbox, rest.next = (last, .nothing) ∧ last.Holds (pending bytes) ∧
      i.run (List.replicate ((Decoded.ofLines (fitting bytes)).length + 1) call) =
        ((rest.answer call).1, untilNothing (Decoded.ofLines (fitting bytes))) := by
  generalize lines : contents (fitting bytes) = texts
  rw [Decoded.ofLines, lines]
  induction texts generalizing i bytes with
  | nil =>
    obtain ⟨⟨last, found⟩, eq⟩ : ∃ r, i.next = r := ⟨_, rfl⟩
    have taken := h.next
    rw [eq] at taken
    cases taken with
    | nothing none within' holds =>
      refine ⟨i, last, eq, holds, ?_⟩
      rw [List.map_nil, List.length_nil, List.replicate_one, run_cons,
        answer_of_nothing is_taking eq]
      rfl
    | tooLarge size none overrun holds =>
      rw [within] at overrun
      cases overrun
    | line first behind holds =>
      rw [lines] at first
      cases first
  | cons text texts ih =>
    obtain ⟨⟨i', found⟩, eq⟩ : ∃ r, i.next = r := ⟨_, rfl⟩
    have taken := h.next
    rw [eq] at taken
    cases taken with
    | nothing none within' holds =>
      rw [lines] at none
      cases none
    | tooLarge size none overrun holds =>
      rw [lines] at none
      cases none
    | line first behind holds =>
      rw [lines] at first
      obtain ⟨rfl, more⟩ := List.cons.inj first
      obtain ⟨rest, last, nothing, pending_holds, run⟩ :=
        ih holds (by rw [← oversized_pending, behind, oversized_pending, within]) more.symm
      refine ⟨rest, last, nothing, behind ▸ pending_holds, ?_⟩
      rw [List.map_cons, List.length_cons, List.replicate_succ, run_cons,
        answer_of_found is_taking eq (by simp), run]
      rfl

/-- Lines can be taken from the inbox until there is none. -/
structure Finishes (i : Inbox) (items : List Decoded) (tail : List UInt8) : Prop where
  /-- At the end of the stream all are given back and then nothing, and a new inbox is left. -/
  atEnd : i.run (List.replicate (items.length + 1) .takeAtEnd) = ({}, untilNothing items)
  /-- Before the end the same are given back, and the tail is left. -/
  before : ∃ last : Inbox, i.run (List.replicate (items.length + 1) .take) =
    (last, untilNothing items) ∧ last.buffer.data.toList = tail
  /-- Whatever is called after the end, the answers are those of a new inbox. -/
  anew : ∀ later, i.run (List.replicate (items.length + 1) .takeAtEnd ++ later) =
    ((run {} later).1, untilNothing items ++ (run {} later).2)

/-- At the end of the stream every complete line is found, as it would be without the end, and never
the tail. -/
theorem run_finishes {calls : List InboxCall}
    (within : ∀ segment ∈ (segments (run {} calls).1.buffer.data.toList).1 ++
      [(segments (run {} calls).1.buffer.data.toList).2], segment.length ≤ maxFrameSize) :
    Finishes (run {} calls).1
      (Decoded.ofLines (segments (run {} calls).1.buffer.data.toList).1)
      (segments (run {} calls).1.buffer.data.toList).2 := by
  have holds := holds_empty.self.run calls
  have fit := oversized_eq_false_iff_length.2 within
  generalize (run {} calls).1 = i at holds fit
  rw [← fitting_eq fit, ← pending_eq fit]
  obtain ⟨rest, last, nothing, -, ended⟩ := holds.run_taking fit
    (.inr rfl : InboxCall.takeAtEnd.IsTaking)
  have new : (rest.answer .takeAtEnd).1 = {} := by rw [answer, nextAtEnd_of_nothing nothing]
  rw [new] at ended
  obtain ⟨rest', last', nothing', holds', taken⟩ := holds.run_taking fit
    (.inl rfl : InboxCall.take.IsTaking)
  have left : (rest'.answer .take).1 = last' := by rw [answer, nothing']
  rw [left] at taken
  refine ⟨ended, ⟨last', taken, holds'.buffer⟩, fun later ↦ ?_⟩
  rw [run_append, ended]

/-- A whole message that no line feed ends is dropped. -/
theorem run_finishes_unended :
    let ended := Message.ack "cmd-1"
    let unended := Message.ack "cmd-2"
    let calls : List InboxCall := [.write ended, .append unended.encode.toUTF8]
    Message.decodeBytes unended.encode.toUTF8 = .ok unended ∧
      (run {} calls).1.run [.takeAtEnd, .takeAtEnd] =
        ({}, [.taken (some (.line (.ok ended))), .taken none]) := by
  intro ended unended calls
  have small : ∀ m ∈ [ended, unended], m.encode.utf8ByteSize ≤ maxFrameSize := by
    simp only [Message.utf8ByteSize_encode]
    decide +kernel
  have holds : (run {} calls).1.Holds
      (textBytes ended.encode ++ lineFeed :: textBytes unended.encode) := by
    have written := (holds_empty.write ended).append unended.encode.toUTF8
    rw [InboxCall.brings, if_pos (small ended (by simp)), Message.frame, Message.textBytes_push,
      List.nil_append, List.append_assoc] at written
    exact written
  have split : segments (run {} calls).1.buffer.data.toList =
      ([textBytes ended.encode], textBytes unended.encode) := by
    rw [holds.buffer, segments_append ended.lineFeed_not_mem_encode,
      segments_of_not_mem unended.lineFeed_not_mem_encode]
  have finite : ∀ m ∈ [ended], ∀ coordinate ∈ m.coordinates, coordinate.2.isFinite = true := by
    decide
  have items : Decoded.ofLines [textBytes ended.encode] = [.line (.ok ended)] :=
    Message.ofLines_encode finite
  have finishes : Finishes (run {} calls).1 _ _ := run_finishes (by
    rw [split]
    simpa [length_textBytes] using small)
  simp only [split, items] at finishes
  exact ⟨Message.decodeBytes_toUTF8 (by decide), finishes.atEnd⟩

end Inbox

end ShowControl
