import ShowControl.Frame.Inbox
import ShowControl.Proofs.Frame.Splitter

/-!
# An inbox splits its stream

However bytes arrive, an inbox takes the lines that the splitter finds in all of them together.

A cursor is at a place of the bytes and knows that some of those behind it are no line feeds
(`Cursor.Clean`). From there on the bytes are a tail, or a line with more behind it;
`next_unfinished` and `next_line` say what one step of the cursor does in each case, and `drain_eq`
follows by the induction along the segments. Between two pieces the inbox holds what is pending of
all bytes so far (`Inbox.Holds`), so another piece is a matter of `Splitter.fitting_append`.
-/

namespace ShowControl

open Splitter

/-! ### Bytes as lists -/

theorem toByteArray_toList_data (bytes : ByteArray) : bytes.data.toList.toByteArray = bytes :=
  ByteArray.ext (by simp)

theorem toList_data_extract (bytes : ByteArray) (start stop : ℕ) :
    (bytes.extract start stop).data.toList =
      (bytes.data.toList.drop start).take (stop - start) := by
  simp [List.extract_eq_take_drop]

theorem isEmpty_iff (bytes : ByteArray) : bytes.isEmpty = true ↔ bytes.data.toList = [] := by
  simp [ByteArray.isEmpty, ← ByteArray.size_data]

theorem toList_data_dropCarriageReturn (text : ByteArray) :
    (dropCarriageReturn text).data.toList = content text.data.toList := by
  rw [dropCarriageReturn, content]
  by_cases nonempty : 0 < text.size
  · have last : text.data.toList.getLast? = some text[text.size - 1] := by
      rw [List.getLast?_eq_getElem?, List.getElem?_eq_getElem (by simp; omega)]
      simp
      rfl
    simp only [dif_pos nonempty, last, Option.some_inj]
    split
    · rw [toList_data_extract, List.drop_zero, List.dropLast_eq_take]
      simp
    · rfl
  · have empty : text.data.toList = [] := by
      rw [← isEmpty_iff, ByteArray.isEmpty, Nat.eq_zero_of_not_pos nonempty]
      rfl
    rw [dif_neg nonempty, empty]
    rfl

/-! ### Looking for a line feed -/

theorem findLineFeed_eq_none {bytes : ByteArray} {position : ℕ}
    (free : lineFeed ∉ bytes.data.toList.drop position) (count : ℕ) :
    findLineFeed bytes position count = none := by
  induction count generalizing position with
  | zero => rfl
  | succ count ih =>
    rw [findLineFeed]
    split
    · next inside =>
      have head : bytes.data.toList.drop position =
          bytes[position] :: bytes.data.toList.drop (position + 1) := by
        rw [List.drop_eq_getElem_cons (by simpa using inside)]
        rfl
      rw [head, List.mem_cons, not_or] at free
      rw [if_neg (Ne.symm free.1)]
      exact ih free.2
    · rfl

theorem findLineFeed_eq_some {bytes : ByteArray} {position count : ℕ} {line more : List UInt8}
    (free : lineFeed ∉ line)
    (here : bytes.data.toList.drop position = line ++ lineFeed :: more)
    (enough : line.length < count) :
    findLineFeed bytes position count = some (position + line.length) := by
  induction count generalizing position line with
  | zero => omega
  | succ count ih =>
    have inside : position < bytes.size := by
      by_contra outside
      rw [List.drop_eq_nil_of_le (by simpa using outside)] at here
      simp at here
    rw [List.drop_eq_getElem_cons (by simpa using inside)] at here
    rw [findLineFeed, dif_pos inside]
    cases line with
    | nil =>
      obtain ⟨eq, -⟩ := List.cons.inj here
      exact if_pos eq
    | cons b line =>
      obtain ⟨ne, others⟩ := not_or.1 (List.mem_cons.not.1 free)
      obtain ⟨eq, here⟩ := List.cons.inj here
      have other : bytes[position] ≠ lineFeed := fun same ↦ ne (same.symm.trans eq)
      rw [if_neg other, ih others here (by simpa using enough), List.length_cons]
      congr 1
      omega

/-! ### One step of a cursor -/

namespace Cursor

/-- The bytes that have not been taken. -/
def rest (bytes : ByteArray) (c : Cursor) : List UInt8 := bytes.data.toList.drop c.start

/-- The bytes that count as looked at are there and hold no line feed. -/
structure Clean (bytes : ByteArray) (c : Cursor) : Prop where
  within : c.start + c.scanned ≤ bytes.size
  free : lineFeed ∉ (c.rest bytes).take c.scanned

variable {bytes : ByteArray} {c : Cursor} {line more : List UInt8}

theorem length_rest (bytes : ByteArray) (c : Cursor) :
    (c.rest bytes).length = bytes.size - c.start := by
  simp [rest]

theorem next_of_none
    (h : findLineFeed bytes (c.start + c.scanned) (bytes.size - (c.start + c.scanned)) = none) :
    c.next bytes =
      if maxFrameSize < bytes.size - c.start then (c, .tooLarge (bytes.size - c.start))
      else ({ c with scanned := bytes.size - c.start }, .nothing) := by
  rw [Cursor.next]
  split
  · rfl
  · next found eq => simp [h] at eq

theorem next_of_some {found : ℕ}
    (h : findLineFeed bytes (c.start + c.scanned) (bytes.size - (c.start + c.scanned)) =
      some found) :
    c.next bytes =
      if maxFrameSize < found - c.start then ({ c with scanned := 0 }, .tooLarge (found - c.start))
      else if (dropCarriageReturn (bytes.extract c.start found)).isEmpty then
        Cursor.next bytes ⟨found + 1, 0⟩
      else (⟨found + 1, 0⟩, .line (dropCarriageReturn (bytes.extract c.start found))) := by
  rw [Cursor.next]
  split
  · next eq => simp [h] at eq
  · next found' eq =>
    rw [h, Option.some_inj] at eq
    subst eq
    rfl

theorem next_unfinished (free : lineFeed ∉ c.rest bytes) :
    c.next bytes =
      if maxFrameSize < (c.rest bytes).length then (c, .tooLarge (c.rest bytes).length)
      else ({ c with scanned := (c.rest bytes).length }, .nothing) := by
  have none_found : findLineFeed bytes (c.start + c.scanned) (bytes.size - (c.start + c.scanned)) =
      none := by
    refine findLineFeed_eq_none (fun mem ↦ free ?_) _
    rw [← List.drop_drop] at mem
    exact List.mem_of_mem_drop mem
  rw [next_of_none none_found, length_rest]

/-- The line feed behind a line is found, wherever the cursor begins to look. -/
theorem findLineFeed_rest (clean : c.Clean bytes) (here : c.rest bytes = line ++ lineFeed :: more)
    (free : lineFeed ∉ line) :
    findLineFeed bytes (c.start + c.scanned) (bytes.size - (c.start + c.scanned)) =
      some (c.start + line.length) := by
  have before : c.scanned ≤ line.length := by
    by_contra beyond
    refine clean.free ?_
    rw [here, List.take_append, List.take_cons (by omega)]
    simp
  have here' : bytes.data.toList.drop (c.start + c.scanned) =
      line.drop c.scanned ++ lineFeed :: more := by
    rw [← List.drop_drop, ← List.drop_append_of_le_length before, ← here, rest]
  have length := congrArg List.length here'
  rw [List.length_append, List.length_cons, List.length_drop, Array.length_toList,
    ByteArray.size_data] at length
  rw [findLineFeed_eq_some (fun mem ↦ free (List.mem_of_mem_drop mem)) here' (by omega),
    List.length_drop]
  congr 1
  omega

theorem next_line (clean : c.Clean bytes) (here : c.rest bytes = line ++ lineFeed :: more)
    (free : lineFeed ∉ line) :
    c.next bytes =
      if maxFrameSize < line.length then ({ c with scanned := 0 }, .tooLarge line.length)
      else if content line = [] then Cursor.next bytes ⟨c.start + line.length + 1, 0⟩
      else (⟨c.start + line.length + 1, 0⟩, .line (content line).toByteArray) := by
  have text : (dropCarriageReturn (bytes.extract c.start (c.start + line.length))) =
      (content line).toByteArray := by
    rw [← toByteArray_toList_data (dropCarriageReturn _), toList_data_dropCarriageReturn,
      toList_data_extract, ← rest, here, Nat.add_sub_cancel_left, List.take_left]
  rw [next_of_some (findLineFeed_rest clean here free)]
  simp only [Nat.add_sub_cancel_left, text, isEmpty_iff, List.toList_data_toByteArray]

/-- Behind a line the cursor is at what follows it. -/
theorem rest_behind (here : c.rest bytes = line ++ lineFeed :: more) :
    Cursor.rest bytes ⟨c.start + line.length + 1, 0⟩ = more := by
  have split := congrArg (List.drop (line.length + 1)) here
  rw [List.append_cons, List.drop_left' (by simp), rest, List.drop_drop, ← Nat.add_assoc] at split
  exact split

theorem clean_behind (here : c.rest bytes = line ++ lineFeed :: more) :
    Clean bytes ⟨c.start + line.length + 1, 0⟩ := by
  have length := congrArg List.length here
  rw [length_rest, List.length_append, List.length_cons] at length
  exact ⟨by simp only; omega, by simp⟩

/-! ### All lines -/

theorem drain_of_nothing {c' : Cursor} (h : c.next bytes = (c', .nothing))
    (taken : List ByteArray) : c.drain bytes taken = (c', taken.reverse, none) := by
  rw [Cursor.drain]
  split <;> simp_all

theorem drain_of_tooLarge {c' : Cursor} {size : ℕ} (h : c.next bytes = (c', .tooLarge size))
    (taken : List ByteArray) : c.drain bytes taken = (c', taken.reverse, some ⟨size⟩) := by
  rw [Cursor.drain]
  split <;> simp_all

theorem drain_of_line {c' : Cursor} {text : ByteArray} (h : c.next bytes = (c', .line text))
    (taken : List ByteArray) : c.drain bytes taken = c'.drain bytes (text :: taken) := by
  rw [Cursor.drain]
  split <;> simp_all

/-- What is taken from a cursor depends on its next step alone. -/
theorem drain_congr {c' : Cursor} (h : c.next bytes = c'.next bytes) (taken : List ByteArray) :
    c.drain bytes taken = c'.drain bytes taken := by
  rw [Cursor.drain, Cursor.drain, h]

/-- Without a line feed nothing is taken; the bytes are reported if they are too many already. -/
theorem drain_unfinished (clean : c.Clean bytes) (free : lineFeed ∉ c.rest bytes)
    (taken : List ByteArray) :
    ∃ c', c.drain bytes taken = (c', taken.reverse, report (c.rest bytes)) ∧
      c'.Clean bytes ∧ c'.rest bytes = c.rest bytes := by
  have next := next_unfinished free
  have front_eq : front (pending (c.rest bytes)) = c.rest bytes := by
    rw [pending_of_not_mem free, front_of_not_mem free]
  rw [report, oversized, front_eq]
  by_cases large : maxFrameSize < (c.rest bytes).length
  · rw [if_pos large] at next
    refine ⟨c, ?_, clean, rfl⟩
    rw [drain_of_tooLarge next, if_pos (by simpa [fits] using large)]
  · rw [if_neg large] at next
    refine ⟨{ c with scanned := (c.rest bytes).length }, ?_, ⟨?_, fun mem ↦ ?_⟩, rfl⟩
    · rw [drain_of_nothing next, if_neg (by simpa [fits] using large)]
    · have within := clean.within
      rw [length_rest]
      show c.start + (bytes.size - c.start) ≤ bytes.size
      omega
    · exact free (List.mem_of_mem_take mem)

/-- A line over the limit is reported and stays. -/
theorem drain_unfit (clean : c.Clean bytes) (here : c.rest bytes = line ++ lineFeed :: more)
    (free : lineFeed ∉ line) (unfit : ¬fits line = true) (taken : List ByteArray) :
    ∃ c', c.drain bytes taken = (c', taken.reverse, report (c.rest bytes)) ∧
      c'.Clean bytes ∧ c'.rest bytes = c.rest bytes := by
  have next := next_line clean here free
  rw [if_pos (by simpa [fits] using unfit)] at next
  refine ⟨{ c with scanned := 0 }, ?_, ⟨?_, by simp⟩, rfl⟩
  · rw [drain_of_tooLarge next, here, report, oversized, pending_of_not_fits free more unfit,
      front_append free, if_pos (by simpa using unfit)]
  · exact (Nat.le_add_right _ _).trans clean.within

/-- From a cursor on, what the splitter finds is taken, and the cursor stops in front of what is
pending. -/
theorem drain_eq (clean : c.Clean bytes) (taken : List ByteArray) :
    ∃ c', c.drain bytes taken =
        (c', taken.reverse ++ (contents (fitting (c.rest bytes))).map List.toByteArray,
          report (c.rest bytes)) ∧
      c'.Clean bytes ∧ c'.rest bytes = pending (c.rest bytes) := by
  generalize here : c.rest bytes = rest
  induction rest using segmentsInduction generalizing c taken with
  | unfinished tail free =>
    obtain ⟨c', drained, clean', rest'⟩ := drain_unfinished clean (here ▸ free) taken
    rw [here] at drained rest'
    refine ⟨c', ?_, clean', by rw [rest', pending_of_not_mem free]⟩
    rw [drained, fitting_of_not_mem free, contents_nil, List.map_nil, List.append_nil]
  | line line more free ih =>
    by_cases fit : fits line = true
    · have next := next_line clean here free
      have reported : report (line ++ lineFeed :: more) = report more := by
        rw [report, oversized, pending_of_fits free more fit, report, oversized]
      rw [if_neg (by simpa [fits] using fit)] at next
      rw [fitting_of_fits free more fit, pending_of_fits free more fit, contents_cons, reported]
      -- a line without content is passed over within the step, so there is no step of its own
      by_cases blank : content line = []
      · rw [if_pos blank] at next ⊢
        rw [drain_congr next]
        exact ih (clean_behind here) taken (rest_behind here)
      · rw [if_neg blank] at next ⊢
        obtain ⟨c', drained, clean', rest'⟩ :=
          ih (clean_behind here) ((content line).toByteArray :: taken) (rest_behind here)
        refine ⟨c', ?_, clean', rest'⟩
        rw [drain_of_line next, drained, List.reverse_cons, List.append_assoc, List.map_cons,
          List.singleton_append]
    · obtain ⟨c', drained, clean', rest'⟩ := drain_unfit clean here free fit taken
      rw [here] at drained rest'
      refine ⟨c', ?_, clean', by rw [rest', pending_of_not_fits free more fit]⟩
      rw [drained, fitting_of_not_fits free more fit, contents_nil, List.map_nil, List.append_nil]

end Cursor

/-! ### Cursors behind bytes that are dropped -/

theorem findLineFeed_extract {bytes : ByteArray} {k : ℕ} (hk : k ≤ bytes.size)
    (position count : ℕ) :
    findLineFeed bytes (k + position) count =
      (findLineFeed (bytes.extract k bytes.size) position count).map (k + ·) := by
  induction count generalizing position with
  | zero => rfl
  | succ count ih =>
    have size : (bytes.extract k bytes.size).size = bytes.size - k := by simp
    unfold findLineFeed
    by_cases inside : k + position < bytes.size
    · have inside' : position < (bytes.extract k bytes.size).size := by omega
      rw [dif_pos inside, dif_pos inside', ByteArray.getElem_extract]
      split
      · rfl
      · exact ih (position + 1)
    · rw [dif_neg inside, dif_neg (by omega)]
      rfl

namespace Cursor

/-- The cursor at the same place, with so many bytes in front. -/
def shift (k : ℕ) (c : Cursor) : Cursor := { c with start := k + c.start }

variable {bytes : ByteArray} {k : ℕ}

theorem next_shift (hk : k ≤ bytes.size) (c : Cursor) :
    (c.shift k).next bytes =
      ((c.next (bytes.extract k bytes.size)).1.shift k,
        (c.next (bytes.extract k bytes.size)).2) := by
  have size : (bytes.extract k bytes.size).size = bytes.size - k := by simp
  induction h : (bytes.extract k bytes.size).size - c.start
    using Nat.strongRecOn generalizing c with
  | _ n ih =>
    have same : findLineFeed bytes ((c.shift k).start + (c.shift k).scanned)
        (bytes.size - ((c.shift k).start + (c.shift k).scanned)) =
        (findLineFeed (bytes.extract k bytes.size) (c.start + c.scanned)
          ((bytes.extract k bytes.size).size - (c.start + c.scanned))).map (k + ·) := by
      rw [size, Nat.sub_sub, ← findLineFeed_extract hk, shift, Nat.add_assoc]
    cases eq : findLineFeed (bytes.extract k bytes.size) (c.start + c.scanned)
        ((bytes.extract k bytes.size).size - (c.start + c.scanned)) with
    | none =>
      rw [eq] at same
      rw [next_of_none same, next_of_none eq, size, Nat.sub_sub, shift]
      split <;> rfl
    | some found =>
      have bounds := findLineFeed_bounds eq
      have line : (bytes.extract k bytes.size).extract c.start found =
          bytes.extract (k + c.start) (k + found) := by
        rw [ByteArray.extract_extract, Nat.min_eq_left (by omega)]
      have further := ih ((bytes.extract k bytes.size).size - (found + 1)) (by omega)
        ⟨found + 1, 0⟩ rfl
      rw [eq] at same
      rw [next_of_some same, next_of_some eq, line, shift, Nat.add_sub_add_left]
      split_ifs
      · rfl
      · exact further
      · rfl

/-- What is taken from a cursor does not depend on the bytes in front of it. -/
theorem drain_shift (hk : k ≤ bytes.size) (c : Cursor) (taken : List ByteArray) :
    (c.shift k).drain bytes taken =
      ((c.drain (bytes.extract k bytes.size) taken).1.shift k,
        (c.drain (bytes.extract k bytes.size) taken).2) := by
  fun_induction Cursor.drain (bytes.extract k bytes.size) c taken with
  | case1 c taken c' eq =>
    have next : (c.shift k).next bytes = (c'.shift k, .nothing) := by rw [next_shift hk, eq]
    rw [drain_of_nothing next]
  | case2 c taken c' size eq =>
    have next : (c.shift k).next bytes = (c'.shift k, .tooLarge size) := by
      rw [next_shift hk, eq]
    rw [drain_of_tooLarge next]
  | case3 c taken c' text eq ih =>
    have next : (c.shift k).next bytes = (c'.shift k, .line text) := by rw [next_shift hk, eq]
    rw [drain_of_line next, ih]

/-- Lines that were taken before stay in front. -/
theorem drain_taken (c : Cursor) (taken : List ByteArray) :
    c.drain bytes taken =
      ((c.drain bytes []).1, taken.reverse ++ (c.drain bytes []).2.1, (c.drain bytes []).2.2) := by
  induction h : bytes.size - c.start using Nat.strongRecOn generalizing c taken with
  | _ n ih =>
    obtain ⟨⟨c', found⟩, eq⟩ : ∃ r, c.next bytes = r := ⟨_, rfl⟩
    cases found with
    | nothing => simp [drain_of_nothing eq]
    | tooLarge size => simp [drain_of_tooLarge eq]
    | line text =>
      have moved := start_next eq
      rw [drain_of_line eq, drain_of_line eq, ih (bytes.size - c'.start) (by omega) c' _ rfl,
        ih (bytes.size - c'.start) (by omega) c' [text] rfl]
      simp

/-- Where no line is found, all bytes from the cursor on have been looked at. -/
theorem scanned_next {c c' : Cursor} (h : c.next bytes = (c', .nothing)) :
    c'.scanned = bytes.size - c'.start := by
  fun_induction Cursor.next bytes c with
  | case1 => simp at h
  | case2 =>
    obtain ⟨rfl, -⟩ := Prod.mk.inj h
    rfl
  | case3 => simp at h
  | case4 c position found hfound size small text' blank ih => exact ih h
  | case5 => simp at h

theorem scanned_drain {c c' : Cursor} {taken lines : List ByteArray}
    (h : c.drain bytes taken = (c', lines, none)) : c'.scanned = bytes.size - c'.start := by
  fun_induction Cursor.drain bytes c taken with
  | case1 c taken c'' eq =>
    obtain ⟨rfl, -⟩ := Prod.mk.inj h
    exact scanned_next eq
  | case2 => simp at h
  | case3 c taken c'' text eq ih => exact ih h

end Cursor

/-! ### Inboxes -/

namespace Inbox

variable {i : Inbox} {bytes : List UInt8}

/-- The inbox holds these bytes, and those that count as looked at hold no line feed. -/
structure Holds (i : Inbox) (bytes : List UInt8) : Prop where
  buffer : i.buffer.data.toList = bytes
  within : i.scanned ≤ bytes.length
  free : lineFeed ∉ bytes.take i.scanned

theorem holds_empty : ({} : Inbox).Holds [] := ⟨rfl, le_rfl, by simp⟩

theorem Holds.append (h : i.Holds bytes) (chunk : ByteArray) :
    (i.append chunk).Holds (bytes ++ chunk.data.toList) where
  buffer := by rw [Inbox.append, ByteArray.toList_data_append, h.buffer]
  within := h.within.trans (by simp)
  free := by
    rw [Inbox.append, List.take_append_of_le_length h.within]
    exact h.free

/-- An inbox that is drained gives what the splitter finds in its bytes and holds what is pending of
them. -/
theorem Holds.drain (h : i.Holds bytes) :
    ∃ i' : Inbox, i.drain = (i', (contents (fitting bytes)).map List.toByteArray, report bytes) ∧
      i'.Holds (pending bytes) := by
  have rest : Cursor.rest i.buffer ⟨0, i.scanned⟩ = bytes := h.buffer
  have size : i.buffer.size = bytes.length := by simp [← h.buffer]
  have clean : Cursor.Clean i.buffer ⟨0, i.scanned⟩ :=
    ⟨by rw [size, Nat.zero_add]; exact h.within, rest ▸ h.free⟩
  obtain ⟨c, drained, clean', rest'⟩ := Cursor.drain_eq clean []
  rw [rest] at drained rest'
  refine ⟨i.moveTo c, by rw [Inbox.drain, drained]; rfl, ?_, ?_, ?_⟩
  · rw [← rest', Inbox.moveTo, toList_data_extract, Cursor.rest, List.take_of_length_le (by simp)]
  · rw [← rest', Cursor.length_rest]
    exact Nat.le_sub_of_add_le' clean'.within
  · rw [← rest']
    exact clean'.free

/-- The inbox that holds these bytes and knows that there is no line feed among them. -/
def resting (bytes : List UInt8) : Inbox := ⟨bytes.toByteArray, bytes.length⟩

/-- What is pending may rest, unless it begins with a segment over the limit. -/
theorem holds_resting (within : oversized bytes = false) :
    (resting (pending bytes)).Holds (pending bytes) where
  buffer := List.toList_data_toByteArray
  within := le_rfl
  free mem := by
    rw [pending_eq within] at mem
    exact not_mem_segments bytes _ List.mem_cons_self (List.mem_of_mem_take mem)

/-- Unless a segment is over the limit, all that is left in an inbox that is drained has been looked
at, so it does not matter how the bytes came into it. -/
theorem Holds.drain_eq (h : i.Holds bytes) (within : oversized bytes = false) :
    i.drain = (resting (pending bytes), (contents (fitting bytes)).map List.toByteArray, none) := by
  obtain ⟨i', drained, holds⟩ := h.drain
  have unreported : report bytes = none := if_neg (by simp [within])
  rw [unreported] at drained
  have looked_at : i'.scanned = i'.buffer.size := by
    rw [Inbox.drain] at drained
    rcases stops : Cursor.drain i.buffer ⟨0, i.scanned⟩ [] with ⟨c, lines, oversized⟩
    rw [stops] at drained
    obtain ⟨rfl, rest⟩ := Prod.mk.inj drained
    obtain ⟨-, rfl⟩ := Prod.mk.inj rest
    simp [moveTo, Cursor.scanned_drain stops]
  have same : i' = resting (pending bytes) := by
    obtain ⟨buffer, scanned⟩ := i'
    obtain rfl : scanned = buffer.size := looked_at
    have all : buffer.data.toList = pending bytes := holds.buffer
    rw [resting, ← all, toByteArray_toList_data]
    simp
  rw [drained, same]

/-- Draining takes one line after the other until there is none or one is over the limit. -/
theorem drain_eq_next (i : Inbox) :
    i.drain =
      match i.next with
      | (i', .nothing) => (i', [], none)
      | (i', .tooLarge size) => (i', [], some ⟨size⟩)
      | (i', .line text) => (i'.drain.1, text :: i'.drain.2.1, i'.drain.2.2) := by
  obtain ⟨⟨c, found⟩, eq⟩ : ∃ r, Cursor.next i.buffer ⟨0, i.scanned⟩ = r := ⟨_, rfl⟩
  have next : i.next = (i.moveTo c, found) := by rw [Inbox.next, eq]
  rw [next]
  cases found with
  | nothing => rw [Inbox.drain, Cursor.drain_of_nothing eq]; rfl
  | tooLarge size => rw [Inbox.drain, Cursor.drain_of_tooLarge eq]; rfl
  | line text =>
    have moved := (Cursor.start_next eq).2
    have shifted := Cursor.drain_shift moved ⟨0, c.scanned⟩ []
    have whole : Cursor.shift c.start ⟨0, c.scanned⟩ = c := rfl
    rw [whole] at shifted
    have twice (c' : Cursor) : i.moveTo (c'.shift c.start) = (i.moveTo c).moveTo c' := by
      simp only [Inbox.moveTo, Cursor.shift, ByteArray.extract_extract, Inbox.mk.injEq, and_true,
        ByteArray.size_extract]
      congr 1
      omega
    rw [Inbox.drain, Cursor.drain_of_line eq, Cursor.drain_taken, shifted]
    simp only [twice, Inbox.drain]
    rfl

end Inbox

end ShowControl
