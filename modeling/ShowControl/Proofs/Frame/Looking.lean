import ShowControl.Proofs.Frame.Taking

/-!
# Where a cursor looks

A cursor does not look twice at bytes that hold no line feed. This saves time and changes nothing:
a cursor that begins anew at the same place finds the same (`Cursor.Clean.next_fresh`). It rests on
what it is to be clean, which is also why no look goes beyond the bytes (`Cursor.Clean.next?_eq`).

What a single look says of the bytes is said here too. A line that is found stands whole behind
lines without content (`Inbox.Holds.exists_line`), and so does a line over the limit
(`Inbox.Holds.exists_unfit`), which is then found by every look that follows.
-/

namespace ShowControl

open Splitter

namespace Splitter

theorem contents_eq_nil_iff {lines : List (List UInt8)} :
    contents lines = [] ↔ ∀ line ∈ lines, content line = [] := by
  simp [contents, List.filter_eq_nil_iff]

/-- No segment is over the limit exactly if none is longer than it. -/
theorem oversized_eq_false_iff_length {bytes : List UInt8} :
    oversized bytes = false ↔
      ∀ segment ∈ (segments bytes).1 ++ [(segments bytes).2], segment.length ≤ maxFrameSize := by
  simp only [oversized_eq_false_iff, fits, decide_eq_true_eq]

end Splitter

/-! ### Cursors -/

namespace Cursor

variable {bytes : ByteArray} {c c' : Cursor} {text : ByteArray}

/-- The cursor at the same place that has not looked at any byte. -/
def fresh (c : Cursor) : Cursor := { c with scanned := 0 }

/-- The next line with content, and where the reading stands after it, for a cursor that must not
look beyond the bytes: nothing at all, if it would. -/
def next? (bytes : ByteArray) (c : Cursor) : Option (Cursor × Found) :=
  let position := c.start + c.scanned
  if bytes.size < position then none
  else
    match h : findLineFeed bytes position (bytes.size - position) with
    | none =>
      let size := bytes.size - c.start
      if maxFrameSize < size then some (c, .tooLarge size)
      else some ({ c with scanned := size }, .nothing)
    | some found =>
      let size := found - c.start
      if maxFrameSize < size then some ({ c with scanned := 0 }, .tooLarge size)
      else
        let text := dropCarriageReturn (bytes.extract c.start found)
        if text.isEmpty then next? bytes ⟨found + 1, 0⟩ else some (⟨found + 1, 0⟩, .line text)
termination_by bytes.size - c.start
decreasing_by
  have := findLineFeed_bounds h
  omega

/-- A cursor within the bytes does not look beyond them, however many lines it passes over. -/
theorem next?_eq (within : c.start + c.scanned ≤ bytes.size) :
    c.next? bytes = some (c.next bytes) := by
  fun_induction next? bytes c with
  | case1 c position outside => exact absurd within (Nat.not_le.2 outside)
  | case2 c position inside none_found size large => rw [next_of_none none_found, if_pos large]
  | case3 c position inside none_found size small => rw [next_of_none none_found, if_neg small]
  | case4 c position inside found some_found size large =>
    rw [next_of_some some_found, if_pos large]
  | case5 c position inside found some_found size small text blank ih =>
    rw [next_of_some some_found, if_neg small, if_pos blank]
    exact ih (findLineFeed_bounds some_found).2
  | case6 c position inside found some_found size small text full =>
    rw [next_of_some some_found, if_neg small, if_neg full]

namespace Clean

variable (clean : c.Clean bytes)
include clean

theorem fresh : c.fresh.Clean bytes where
  within := (Nat.le_add_right _ _).trans clean.within
  free := by simp [Cursor.fresh]

/-- What has been looked at already does not matter to what is found, and to where the reading
stands then. -/
theorem next_fresh :
    (c.next bytes).2 = (c.fresh.next bytes).2 ∧
      (c.next bytes).1.start = (c.fresh.next bytes).1.start := by
  by_cases mem : lineFeed ∈ c.rest bytes
  · obtain ⟨line, more, here, free⟩ := List.eq_append_cons_of_mem mem
    rw [next_line clean here free, next_line clean.fresh here free]
    exact ⟨rfl, rfl⟩
  · have same : c.fresh.rest bytes = c.rest bytes := rfl
    rw [next_unfinished mem, next_unfinished (same ▸ mem), same]
    split <;> exact ⟨rfl, rfl⟩

/-- A line that is found stands behind lines without content. -/
theorem exists_line (h : c.next bytes = (c', .line text)) :
    ∃ (blanks : List (List UInt8)) (line : List UInt8),
      (∀ blank ∈ blanks, content blank = []) ∧ fits line = true ∧
      (content line).toByteArray = text ∧
      c.rest bytes = (blanks.map (· ++ [lineFeed])).flatten ++
        (line ++ lineFeed :: c'.rest bytes) := by
  generalize here : c.rest bytes = rest
  induction rest using segmentsInduction generalizing c with
  | unfinished tail free =>
    rw [next_unfinished (here ▸ free)] at h
    split at h <;> cases h
  | line line more free ih =>
    rw [next_line clean here free] at h
    split at h
    · cases h
    · next small =>
      split at h
      · next blank =>
        obtain ⟨blanks, line', empty, fit, same, rest⟩ :=
          ih (clean_behind here) h (rest_behind here)
        refine ⟨line :: blanks, line', List.forall_mem_cons.2 ⟨blank, empty⟩, fit, same, ?_⟩
        rw [rest]
        simp
      · obtain ⟨rfl, found⟩ := Prod.mk.inj h
        have fit : fits line = true := by simpa [fits] using small
        refine ⟨[], line, fun _ mem ↦ absurd mem List.not_mem_nil, fit, Found.line.inj found, ?_⟩
        rw [rest_behind here]
        rfl

end Clean

end Cursor

/-! ### Inboxes -/

namespace Inbox

variable {i i' : Inbox} {bytes : List UInt8} {text : ByteArray} {size : ℕ}

/-- The inbox with the same bytes that has not looked at any of them. -/
def fresh (i : Inbox) : Inbox := { i with scanned := 0 }

theorem next_eq (i : Inbox) :
    i.next =
      (i.moveTo (Cursor.next i.buffer ⟨0, i.scanned⟩).1,
        (Cursor.next i.buffer ⟨0, i.scanned⟩).2) :=
  rfl

theorem toList_data_moveTo (i : Inbox) (c : Cursor) :
    (i.moveTo c).buffer.data.toList = c.rest i.buffer := by
  rw [moveTo, toList_data_extract, Cursor.rest, List.take_of_length_le (by simp)]

namespace Holds

variable (h : i.Holds bytes)
include h

theorem self : i.Holds i.buffer.data.toList := by
  rw [h.buffer]
  exact h

theorem clean : Cursor.Clean i.buffer ⟨0, i.scanned⟩ where
  within := by
    rw [Nat.zero_add, ← ByteArray.size_data, ← Array.length_toList, h.buffer]
    exact h.within
  free := by
    rw [Cursor.rest, List.drop_zero, h.buffer]
    exact h.free

/-- Whatever is found, the bytes that count as looked at hold no line feed afterwards. -/
theorem next_self : i.next.1.Holds i.next.1.buffer.data.toList := by
  have taken := h.next
  generalize i.next.1 = i', i.next.2 = found at taken
  cases taken with
  | nothing none within holds => exact holds.self
  | tooLarge size none overrun holds => exact holds.self
  | line first behind holds => exact holds.self

/-- What has been looked at already does not matter to what is found, and to the bytes that are
left. -/
theorem next_fresh : i.next.2 = i.fresh.next.2 ∧ i.next.1.buffer = i.fresh.next.1.buffer := by
  obtain ⟨found, start⟩ := h.clean.next_fresh
  refine ⟨found, ?_⟩
  show i.buffer.extract _ _ = i.buffer.extract _ _
  rw [start]
  rfl

/-- A line that is found stands behind lines without content, and what is left follows it. -/
theorem exists_line (found : i.next = (i', .line text)) :
    ∃ (blanks : List (List UInt8)) (line : List UInt8),
      (∀ blank ∈ blanks, content blank = []) ∧ fits line = true ∧
      (content line).toByteArray = text ∧
      bytes = (blanks.map (· ++ [lineFeed])).flatten ++
        (line ++ lineFeed :: i'.buffer.data.toList) := by
  obtain ⟨rfl, line_found⟩ := Prod.mk.inj (i.next_eq.symm.trans found)
  obtain ⟨blanks, line, empty, fit, same, all⟩ := h.clean.exists_line (Prod.ext rfl line_found)
  refine ⟨blanks, line, empty, fit, same, ?_⟩
  rw [toList_data_moveTo, ← all, Cursor.rest, List.drop_zero, h.buffer]

/-- A report tells how much of the segment over the limit has arrived. -/
theorem size_of_next (found : i.next = (i', .tooLarge size)) :
    size = (front (pending bytes)).length := by
  obtain ⟨last, drained, -⟩ := h.drain
  rw [drain_eq_next, found] at drained
  have reported : report bytes = some ⟨size⟩ := congrArg (·.2.2) drained.symm
  rw [report] at reported
  split at reported
  · exact (FrameTooLarge.mk.inj (Option.some.inj reported)).symm
  · cases reported

/-- A segment over the limit that is found stands behind lines without content, and is left with
all that follows it. -/
theorem exists_unfit (found : i.next = (i', .tooLarge size)) :
    ∃ blanks : List (List UInt8), (∀ blank ∈ blanks, content blank = []) ∧
      bytes = (blanks.map (· ++ [lineFeed])).flatten ++ i'.buffer.data.toList ∧
      fits (front i'.buffer.data.toList) = false ∧
      size = (front i'.buffer.data.toList).length := by
  have taken := h.next
  rw [found] at taken
  cases taken with
  | tooLarge size none overrun holds =>
    rw [holds.buffer]
    refine ⟨fitting bytes, contents_eq_nil_iff.1 none, (join_fitting bytes).symm, ?_,
      h.size_of_next found⟩
    exact fits_front_pending overrun

/-- In front of a segment over the limit nothing else is found, and nothing is taken. -/
theorem next_of_unfit (unfit : fits (front bytes) = false) :
    i.next.2 = .tooLarge (front bytes).length ∧ i.next.1.Holds bytes := by
  obtain ⟨nothing_fits, all⟩ := stuck unfit
  have overrun : oversized bytes = true := by simp [oversized, all, unfit]
  obtain ⟨⟨i', found⟩, eq⟩ : ∃ r, i.next = r := ⟨_, rfl⟩
  have taken := h.next
  rw [eq] at taken ⊢
  cases taken with
  | nothing none within holds =>
    rw [overrun] at within
    cases within
  | tooLarge size none overrun holds =>
    have exact_size := h.size_of_next eq
    rw [all] at exact_size holds
    exact ⟨congrArg Found.tooLarge exact_size, holds⟩
  | line first behind holds =>
    rw [nothing_fits] at first
    cases first

/-- In front of a line with content that may be taken, this line is found, and what is left follows
it. -/
theorem next_of_line {line more : List UInt8} (here : bytes = line ++ lineFeed :: more)
    (free : lineFeed ∉ line) (fit : fits line = true) (full : content line ≠ []) :
    i.next.2 = .line (content line).toByteArray ∧ i.next.1.buffer.data.toList = more := by
  have rest : Cursor.rest i.buffer ⟨0, i.scanned⟩ = line ++ lineFeed :: more := by
    rw [Cursor.rest, List.drop_zero, h.buffer, here]
  have next := Cursor.next_line h.clean rest free
  rw [if_neg (by simpa [fits] using fit), if_neg full] at next
  rw [next_eq, next, toList_data_moveTo]
  exact ⟨rfl, Cursor.rest_behind rest⟩

end Holds

/-! ### At the end of the stream -/

theorem nextAtEnd_of_nothing (found : i.next = (i', .nothing)) : i.nextAtEnd = ({}, .nothing) := by
  rw [nextAtEnd, found]

theorem nextAtEnd_of_found {found : Found} (eq : i.next = (i', found)) (some : found ≠ .nothing) :
    i.nextAtEnd = (i', found) := by
  rw [nextAtEnd, eq]
  cases found with
  | nothing => exact absurd rfl some
  | line text => rfl
  | tooLarge size => rfl

end Inbox

end ShowControl
