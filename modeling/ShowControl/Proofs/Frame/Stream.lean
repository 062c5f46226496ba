import ShowControl.Proofs.Frame.Inbox
import ShowControl.Transducer

/-!
# A stream in pieces

A stream is fed to an inbox piece by piece, and the inbox is drained after each (`Inbox.receive`).
What comes out is settled by the bytes alone, however they are cut (`receive_chunks`): each line
that the splitter finds is decoded by itself, up to the first segment over the limit, and what is
left is what is pending.

A segment over the limit is reported as soon as it can be known, and again after every further
piece, so there is no saying how often without the cuts; the size in a report is what of the segment
had arrived.
-/

namespace ShowControl

open Splitter

/-- What comes out of an inbox. -/
inductive Decoded where
  /-- A line with content, decoded. -/
  | line (result : Except DecodeError Message)
  /-- A segment over the limit. -/
  | tooLarge (e : FrameTooLarge)

/-- What lines are decoded to, each by itself; lines without content are passed over. -/
def Decoded.ofLines (lines : List (List UInt8)) : List Decoded :=
  (contents lines).map fun text ↦ .line (Message.decodeBytes text.toByteArray)

theorem Decoded.ofLines_append (left right : List (List UInt8)) :
    ofLines (left ++ right) = ofLines left ++ ofLines right := by
  rw [ofLines, contents_append, List.map_append, ofLines, ofLines]

namespace Inbox

/-- A piece arrives, and the inbox is drained. -/
def receive : Transducer Inbox ByteArray Decoded := fun i chunk ↦
  let (i, lines, oversized) := (i.append chunk).drain
  (i, lines.map (fun text ↦ .line (Message.decodeBytes text)) ++
    (oversized.map .tooLarge).toList)

/-- The bytes of pieces one behind the other. -/
def joined (chunks : List ByteArray) : List UInt8 :=
  (chunks.map fun chunk ↦ chunk.data.toList).flatten

@[simp] theorem joined_nil : joined [] = [] := rfl

@[simp] theorem joined_cons (chunk : ByteArray) (chunks : List ByteArray) :
    joined (chunk :: chunks) = chunk.data.toList ++ joined chunks := rfl

section Runs

variable {i : Inbox} {bytes : List UInt8}

theorem Holds.receive (h : i.Holds bytes) (chunk : ByteArray) :
    ∃ i' : Inbox, Inbox.receive i chunk =
        (i', Decoded.ofLines (fitting (bytes ++ chunk.data.toList)) ++
          ((report (bytes ++ chunk.data.toList)).map .tooLarge).toList) ∧
      i'.Holds (pending (bytes ++ chunk.data.toList)) := by
  obtain ⟨i', drained, holds⟩ := (h.append chunk).drain
  refine ⟨i', ?_, holds⟩
  simp only [Inbox.receive, drained, Decoded.ofLines, List.map_map]
  rfl

/-- What reports about a segment say: more of it than is allowed, and no more than there is. -/
def AreReports (segment : List UInt8) (reports : List FrameTooLarge) : Prop :=
  ∀ e ∈ reports, maxFrameSize < e.size ∧ e.size ≤ segment.length

/-- One more report, about as much of the segment as has arrived. -/
theorem AreReports.cons {bytes more : List UInt8} {reports : List FrameTooLarge}
    (large : fits (front bytes) = false) (h : AreReports (front (bytes ++ more)) reports) :
    AreReports (front (bytes ++ more)) (⟨(front bytes).length⟩ :: reports) := by
  refine List.forall_mem_cons.2 ⟨⟨?_, length_front_le bytes more⟩, h⟩
  simpa [fits] using large

/-- Once a segment over the limit is in front, every piece is only added. -/
theorem Holds.run_stuck (h : i.Holds bytes) (large : fits (front bytes) = false)
    (chunks : List ByteArray) :
    ∃ (i' : Inbox) (reports : List FrameTooLarge),
      Transducer.run Inbox.receive i chunks = (i', reports.map .tooLarge) ∧
        i'.Holds (bytes ++ joined chunks) ∧
        AreReports (front (bytes ++ joined chunks)) reports := by
  induction chunks generalizing i bytes with
  | nil => exact ⟨i, [], rfl, by simpa using h, by simp [AreReports]⟩
  | cons chunk chunks ih =>
    obtain ⟨i', received, holds⟩ := h.receive chunk
    have large' := stuck_append large chunk.data.toList
    obtain ⟨fitting_eq, pending_eq⟩ := stuck large'
    rw [pending_eq] at holds
    obtain ⟨i'', reports, run, holds', sizes⟩ := ih holds large'
    have reported : report (bytes ++ chunk.data.toList) =
        some ⟨(front (bytes ++ chunk.data.toList)).length⟩ := by
      rw [report, oversized, pending_eq, large']
      rfl
    rw [joined_cons, ← List.append_assoc]
    refine ⟨i'', ⟨(front (bytes ++ chunk.data.toList)).length⟩ :: reports, ?_, holds',
      sizes.cons large'⟩
    rw [Transducer.run_cons, received, run, fitting_eq, reported]
    rfl

/-- Pieces behind bytes of which nothing can be taken. -/
theorem Holds.run_receive (h : i.Holds bytes) (taken : pending bytes = bytes)
    (small : oversized bytes = false) (chunks : List ByteArray) :
    ∃ (i' : Inbox) (reports : List FrameTooLarge),
      Transducer.run Inbox.receive i chunks =
          (i', Decoded.ofLines (fitting (bytes ++ joined chunks)) ++ reports.map .tooLarge) ∧
        i'.Holds (pending (bytes ++ joined chunks)) ∧
        (reports = [] ↔ oversized (bytes ++ joined chunks) = false) ∧
        AreReports (front (pending (bytes ++ joined chunks))) reports := by
  induction chunks generalizing i bytes with
  | nil =>
    have nothing := fitting_pending bytes
    rw [taken] at nothing
    exact ⟨i, [], by simp [nothing, Decoded.ofLines], by simpa [taken] using h,
      by simpa using small, by simp [AreReports]⟩
  | cons chunk chunks ih =>
    obtain ⟨i', received, holds⟩ := h.receive chunk
    rw [joined_cons, ← List.append_assoc]
    generalize bytes ++ chunk.data.toList = sofar at received holds ⊢
    rw [fitting_append, pending_append, oversized_append, Decoded.ofLines_append]
    cases large : oversized sofar with
    | true =>
      have front_large := fits_front_pending large
      obtain ⟨fitting_eq, pending_eq⟩ := stuck (stuck_append front_large (joined chunks))
      obtain ⟨i'', reports, run, holds', sizes⟩ := holds.run_stuck front_large chunks
      have reported : report sofar = some ⟨(front (pending sofar)).length⟩ := if_pos large
      have still : oversized (pending sofar ++ joined chunks) = true := by
        rw [← oversized_append, oversized_append_of_oversized large]
      refine ⟨i'', ⟨(front (pending sofar)).length⟩ :: reports, ?_, ?_, by simp [still], ?_⟩
      · rw [Transducer.run_cons, received, run, reported, fitting_eq]
        simp [Decoded.ofLines]
      · rwa [pending_eq]
      · rw [pending_eq]
        exact sizes.cons front_large
    | false =>
      have small' : oversized (pending sofar) = false := by
        rwa [oversized_pending]
      obtain ⟨i'', reports, run, holds', often, sizes⟩ :=
        ih holds (pending_pending sofar) small'
      have reported : report sofar = none := if_neg (by simp [large])
      refine ⟨i'', reports, ?_, holds', often, sizes⟩
      rw [Transducer.run_cons, received, run, reported]
      simp

end Runs

/-- Without a segment over the limit nothing is reported. -/
theorem run_receive_of_fits {chunks : List ByteArray} (small : oversized (joined chunks) = false) :
    ∃ inbox : Inbox, Transducer.run receive {} chunks =
        (inbox, Decoded.ofLines (segments (joined chunks)).1) ∧
      inbox.Holds (segments (joined chunks)).2 := by
  obtain ⟨inbox, reports, run, holds, often, -⟩ := holds_empty.run_receive rfl (by decide) chunks
  rw [List.nil_append] at run holds often
  rw [often.2 small, fitting_eq small] at run
  rw [pending_eq small] at holds
  exact ⟨inbox, by simpa using run, holds⟩

/-- However a stream is cut, the pieces give what the splitter finds in their bytes. If no segment
is over the limit, that is all segments that line feeds end, and the rest is left. Otherwise it is
those in front of the first over the limit, and from then on reports about this one, which is left
with all that follows it. -/
theorem receive_chunks (chunks : List ByteArray) :
    if ∀ segment ∈ (segments (joined chunks)).1 ++ [(segments (joined chunks)).2],
        segment.length ≤ maxFrameSize then
      (Transducer.run receive {} chunks).2 = Decoded.ofLines (segments (joined chunks)).1 ∧
        (Transducer.run receive {} chunks).1.buffer.data.toList = (segments (joined chunks)).2
    else
      ((fitting (joined chunks)).map (· ++ [lineFeed])).flatten ++
          (Transducer.run receive {} chunks).1.buffer.data.toList = joined chunks ∧
        ∃ reports : List FrameTooLarge, reports ≠ [] ∧
          (Transducer.run receive {} chunks).2 =
            Decoded.ofLines (fitting (joined chunks)) ++ reports.map .tooLarge ∧
          ∀ e ∈ reports, maxFrameSize < e.size ∧
            e.size ≤ (front (Transducer.run receive {} chunks).1.buffer.data.toList).length := by
  by_cases small : oversized (joined chunks) = false
  · obtain ⟨inbox, run, holds⟩ := run_receive_of_fits small
    have within := (oversized_eq_false_iff _).1 small
    rw [if_pos fun line mem ↦ by simpa [fits] using within line mem, run]
    exact ⟨rfl, holds.buffer⟩
  · obtain ⟨inbox, reports, run, holds, often, sizes⟩ :=
      holds_empty.run_receive rfl (by decide) chunks
    rw [List.nil_append] at run holds often sizes
    rw [if_neg fun fit ↦ small ((oversized_eq_false_iff _).2 fun line mem ↦ by
      simpa [fits] using fit line mem), run, holds.buffer]
    exact ⟨join_fitting _, reports, fun none_reported ↦ small (often.1 none_reported), rfl, sizes⟩

end Inbox

end ShowControl
