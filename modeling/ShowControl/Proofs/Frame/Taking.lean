import ShowControl.Proofs.Frame.Inbox

/-!
# Taking one line

An inbox may also be asked for one line at a time. What is found is the first of the lines that
would be taken if it were drained, and the others are left for later (`Inbox.Holds.next`): draining
is taking one line after the other, and has been described already.
-/

namespace ShowControl

open Splitter

/-- Behind a line that has been taken, no byte counts as looked at. -/
theorem Cursor.scanned_of_next_line {bytes : ByteArray} {c c' : Cursor} {text : ByteArray}
    (h : c.next bytes = (c', .line text)) : c'.scanned = 0 := by
  fun_induction Cursor.next bytes c with
  | case1 => simp at h
  | case2 => simp at h
  | case3 => simp at h
  | case4 c position found hfound size small text' blank ih => exact ih h
  | case5 =>
    obtain ⟨rfl, -⟩ := Prod.mk.inj h
    rfl

namespace Inbox

variable {i i' : Inbox} {bytes : List UInt8} {found : Found}

/-- What is found at the front of an inbox that holds these bytes, and the inbox that is left. -/
inductive Takes (bytes : List UInt8) : Inbox → Found → Prop where
  | nothing {i : Inbox} (none : contents (fitting bytes) = []) (within : oversized bytes = false)
    (holds : i.Holds (pending bytes)) : Takes bytes i .nothing
  | tooLarge {i : Inbox} (size : ℕ) (none : contents (fitting bytes) = [])
    (overrun : oversized bytes = true) (holds : i.Holds (pending bytes)) :
    Takes bytes i (.tooLarge size)
  | line {i : Inbox} {text more : List UInt8}
    (first : contents (fitting bytes) = text :: contents (fitting more))
    (behind : pending more = pending bytes) (holds : i.Holds more) :
    Takes bytes i (.line text.toByteArray)

theorem holds_buffer (unscanned : i.scanned = 0) : i.Holds i.buffer.data.toList where
  buffer := rfl
  within := unscanned ▸ Nat.zero_le _
  free := by simp [unscanned]

theorem Holds.eq_of_holds {other : List UInt8} (h : i.Holds bytes) (h' : i.Holds other) :
    bytes = other :=
  h.buffer.symm.trans h'.buffer

theorem scanned_of_next_line {text : ByteArray} (h : i.next = (i', .line text)) :
    i'.scanned = 0 := by
  obtain ⟨⟨c, found⟩, eq⟩ : ∃ r, Cursor.next i.buffer ⟨0, i.scanned⟩ = r := ⟨_, rfl⟩
  rw [Inbox.next, eq] at h
  obtain ⟨rfl, rfl⟩ := Prod.mk.inj h
  exact Cursor.scanned_of_next_line eq

theorem isSome_report (bytes : List UInt8) : (report bytes).isSome = oversized bytes := by
  rw [report]
  cases oversized bytes <;> rfl

/-- What is found is the first of the lines that can be taken, and the others can be taken from what
is left. -/
theorem Holds.next (h : i.Holds bytes) : Takes bytes i.next.1 i.next.2 := by
  obtain ⟨last, drained, holds⟩ := h.drain
  rw [drain_eq_next] at drained
  obtain ⟨⟨i', found⟩, eq⟩ : ∃ r, i.next = r := ⟨_, rfl⟩
  rw [eq] at drained ⊢
  cases found with
  | nothing =>
    simp only [Prod.mk.injEq] at drained
    obtain ⟨rfl, lines, reported⟩ := drained
    exact .nothing (List.map_eq_nil_iff.1 lines.symm)
      (by rw [← isSome_report, ← reported, Option.isSome_none]) holds
  | tooLarge size =>
    simp only [Prod.mk.injEq] at drained
    obtain ⟨rfl, lines, reported⟩ := drained
    exact .tooLarge size (List.map_eq_nil_iff.1 lines.symm)
      (by rw [← isSome_report, ← reported, Option.isSome_some]) holds
  | line text =>
    -- what is left is drained in turn, and comes to the same end
    have holds' : i'.Holds i'.buffer.data.toList := holds_buffer (scanned_of_next_line eq)
    obtain ⟨last', drained', behind⟩ := holds'.drain
    simp only [drained', Prod.mk.injEq] at drained
    obtain ⟨rfl, lines, -⟩ := drained
    obtain ⟨first, others, all, rfl, same⟩ := List.map_eq_cons_iff.1 lines.symm
    have injective (left right : List UInt8) (h : left.toByteArray = right.toByteArray) :
        left = right := by
      simpa only [List.toList_data_toByteArray] using congrArg (·.data.toList) h
    rw [(List.map_inj_right injective).1 same] at all
    exact .line all (behind.eq_of_holds holds) holds'

end Inbox

end ShowControl
