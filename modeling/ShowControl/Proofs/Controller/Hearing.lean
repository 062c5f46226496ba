import ShowControl.Proofs.Frame.Taking
import ShowControl.Proofs.Renderer.Exchange

/-!
# What a controller hears

A controller's peer is heard in pieces, between and during the controller's own calls, until it
hangs up. What matters of it are the lines of all pieces together (`readings`), and how many of them
have been taken: the incoming half of a connection follows the peer (`Incoming.Follows`) in that it
holds the other lines and the unfinished one behind them, whatever the pieces were. Another piece
adds to the lines, the next line that is taken is the first of those left, and where none is left
nothing is taken (`Incoming.Follows.next`).
-/

namespace ShowControl

open Splitter

/-! ### Pieces -/

/-- The bytes of some arrivals. Nothing is heard behind the end of the stream. -/
def heard : List Arrival → List UInt8
  | [] => []
  | a :: rest => a.bytes.data.toList ++ if a.ends then [] else heard rest

/-- The peer has hung up with one of these. -/
def hasEnded (arrivals : List Arrival) : Bool := arrivals.any fun a ↦ a.ends

/-- The lines with content that can be taken of what is heard. -/
def heardLines (arrivals : List Arrival) : List (List UInt8) := contents (fitting (heard arrivals))

/-- What these lines are read as. -/
def readings (arrivals : List Arrival) : List Reading := Reading.ofLines (fitting (heard arrivals))

/-- No line can come any more: the peer has hung up, or a line over the limit is in the way. -/
def IsOver (arrivals : List Arrival) : Prop :=
  hasEnded arrivals = true ∨ oversized (heard arrivals) = true

theorem getElem?_readings (arrivals : List Arrival) (n : ℕ) :
    (readings arrivals)[n]? =
      (heardLines arrivals)[n]?.map fun text ↦ Message.decodeBytes text.toByteArray := by
  rw [readings, Reading.ofLines, List.getElem?_map, heardLines]

theorem hasEnded_cons (a : Arrival) (arrivals : List Arrival) :
    hasEnded (a :: arrivals) = (a.ends || hasEnded arrivals) := List.any_cons

theorem heard_append (left right : List Arrival) :
    heard (left ++ right) = heard left ++ if hasEnded left then [] else heard right := by
  induction left with
  | nil => rfl
  | cons a left ih =>
    rw [List.cons_append, heard, heard, ih, hasEnded_cons]
    cases a.ends <;> simp

theorem hasEnded_append (left right : List Arrival) :
    hasEnded (left ++ right) = (hasEnded left || hasEnded right) := List.any_append

variable {arrivals : List Arrival}

theorem heard_concat_of_ended (ended : hasEnded arrivals = true) (a : Arrival) :
    heard (arrivals ++ [a]) = heard arrivals := by
  rw [heard_append, if_pos ended, List.append_nil]

theorem heard_concat_of_open (still : hasEnded arrivals = false) (a : Arrival) :
    heard (arrivals ++ [a]) = heard arrivals ++ a.bytes.data.toList := by
  rw [heard_append, still]
  simp [heard]

theorem heardLines_concat_of_open (still : hasEnded arrivals = false) (a : Arrival) :
    heardLines (arrivals ++ [a]) = heardLines arrivals ++
      contents (fitting (pending (heard arrivals) ++ a.bytes.data.toList)) := by
  rw [heardLines, heard_concat_of_open still, contents_fitting_append, heardLines]

/-- Lines that have been heard stay. -/
theorem heardLines_prefix_append (arrivals more : List Arrival) :
    heardLines arrivals <+: heardLines (arrivals ++ more) := by
  rw [heardLines, heardLines, heard_append, contents_fitting_append]
  exact List.prefix_append _ _

theorem length_readings (arrivals : List Arrival) :
    (readings arrivals).length = (heardLines arrivals).length := List.length_map ..

theorem readings_prefix_append (arrivals more : List Arrival) :
    readings arrivals <+: readings (arrivals ++ more) :=
  (heardLines_prefix_append arrivals more).map _

theorem IsOver.append (finished : IsOver arrivals) (more : List Arrival) :
    IsOver (arrivals ++ more) ∧ heardLines (arrivals ++ more) = heardLines arrivals := by
  rcases finished with ended | large
  · rw [heardLines, heard_append, if_pos ended, List.append_nil, IsOver, hasEnded_append, ended]
    exact ⟨.inl rfl, rfl⟩
  · rw [heardLines, IsOver, heard_append, oversized_append_of_oversized large,
      fitting_append_of_oversized large]
    exact ⟨.inr rfl, rfl⟩

/-- Pieces that come one behind the other, as one. -/
def Arrival.joined (pieces : List Arrival) : Arrival where
  bytes := (heard pieces).toByteArray
  ends := hasEnded pieces
  fault := (pieces.find? fun a ↦ a.ends).bind Arrival.fault

theorem heard_append_joined (arrivals pieces : List Arrival) :
    heard (arrivals ++ [.joined pieces]) = heard (arrivals ++ pieces) := by
  have one : heard [.joined pieces] = heard pieces := by
    have nothing : (if hasEnded pieces = true then [] else heard []) = [] := ite_self _
    rw [heard, Arrival.joined, nothing, List.append_nil, List.toList_data_toByteArray]
  rw [heard_append, one, heard_append]

theorem hasEnded_append_joined (arrivals pieces : List Arrival) :
    hasEnded (arrivals ++ [.joined pieces]) = hasEnded (arrivals ++ pieces) := by
  rw [hasEnded_append, hasEnded_append]
  simp [hasEnded, Arrival.joined]

/-! ### Connections -/

namespace Incoming

/-- The incoming half of a connection over which these arrivals have come, after so many of the
lines have been taken. -/
structure Follows (s : Incoming) (arrivals : List Arrival) (taken : ℕ) : Prop where
  ended : s.ended = hasEnded arrivals
  count : taken ≤ (heardLines arrivals).length
  holds : ∃ bytes, s.inbox.Holds bytes ∧
    contents (fitting bytes) = (heardLines arrivals).drop taken ∧
    pending bytes = pending (heard arrivals)

variable {s : Incoming} {taken : ℕ}

theorem follows_empty : ({} : Incoming).Follows [] 0 :=
  ⟨rfl, Nat.zero_le _, [], Inbox.holds_empty, rfl, rfl⟩

/-- Another piece. -/
theorem Follows.arrive (h : s.Follows arrivals taken) (a : Arrival) :
    (s.arrive a).Follows (arrivals ++ [a]) taken := by
  rw [Incoming.arrive, h.ended]
  by_cases ended : hasEnded arrivals = true
  · have same : heardLines (arrivals ++ [a]) = heardLines arrivals := by
      rw [heardLines, heard_concat_of_ended ended, heardLines]
    rw [if_pos ended]
    refine ⟨?_, by rw [same]; exact h.count, ?_⟩
    · rw [h.ended, hasEnded_append, ended, Bool.true_or]
    · rw [same, heard_concat_of_ended ended]
      exact h.holds
  · have still : hasEnded arrivals = false := Bool.eq_false_iff.2 ended
    obtain ⟨bytes, holds, lines, rest⟩ := h.holds
    rw [if_neg ended]
    refine ⟨?_, h.count.trans (heardLines_prefix_append arrivals [a]).length_le, _,
      holds.append a.bytes, ?_, ?_⟩
    · rw [hasEnded_append, still]
      simp [hasEnded]
    · rw [contents_fitting_append, lines, rest, heardLines_concat_of_open still,
        List.drop_append_of_le_length h.count]
    · rw [pending_append, rest, ← pending_append, heard_concat_of_open still]

/-- Several pieces at once. -/
theorem Follows.arrive_joined (h : s.Follows arrivals taken) (pieces : List Arrival) :
    (s.arrive (.joined pieces)).Follows (arrivals ++ pieces) taken := by
  have whole := h.arrive (.joined pieces)
  have same : heardLines (arrivals ++ [.joined pieces]) = heardLines (arrivals ++ pieces) := by
    rw [heardLines, heard_append_joined, heardLines]
  exact ⟨whole.ended.trans (hasEnded_append_joined arrivals pieces), same ▸ whole.count,
    same ▸ heard_append_joined arrivals pieces ▸ whole.holds⟩

/-- What is taken after so many lines, and the connection that is left. -/
inductive Takes (arrivals : List Arrival) (taken : ℕ) : Incoming → Received → Prop where
  | waiting {s : Incoming} (none : (heardLines arrivals)[taken]? = none)
    (follows : s.Follows arrivals taken) : Takes arrivals taken s .waiting
  | line {s : Incoming} {text : List UInt8} (here : (heardLines arrivals)[taken]? = some text)
    (follows : s.Follows arrivals (taken + 1)) : Takes arrivals taken s (.line text.toByteArray)
  | tooLarge {s : Incoming} (reason : FrameTooLarge)
    (none : (heardLines arrivals)[taken]? = none) (finished : IsOver arrivals) :
    Takes arrivals taken s (.tooLarge reason)
  | ended {s : Incoming} (none : (heardLines arrivals)[taken]? = none)
    (finished : IsOver arrivals) : Takes arrivals taken s .ended
  | broken {s : Incoming} (reason : String) (none : (heardLines arrivals)[taken]? = none)
    (finished : IsOver arrivals) : Takes arrivals taken s (.broken reason)

/-- At the end it makes no difference which end it is. -/
theorem Takes.atEnd (s : Incoming) {s' : Incoming} (none : (heardLines arrivals)[taken]? = none)
    (finished : IsOver arrivals) : Takes arrivals taken s' s.atEnd := by
  rw [Incoming.atEnd]
  split
  · exact .ended none finished
  · exact .broken _ none finished

theorem getElem?_eq_none_of_drop_eq_nil {lines : List (List UInt8)}
    (empty : lines.drop taken = []) : lines[taken]? = none :=
  List.getElem?_eq_none (List.drop_eq_nil_iff.1 empty)

theorem Follows.next (h : s.Follows arrivals taken) : Takes arrivals taken s.next.1 s.next.2 := by
  obtain ⟨bytes, holds, lines, rest⟩ := h.holds
  have same : oversized bytes = oversized (heard arrivals) := by
    rw [← oversized_pending, rest, oversized_pending]
  have front := holds.next
  obtain ⟨⟨i, found⟩, eq⟩ : ∃ r, s.inbox.next = r := ⟨_, rfl⟩
  rw [eq] at front
  dsimp only at front
  rw [Incoming.next, Inbox.nextAtEnd, eq]
  cases front with
  | nothing empty within holds =>
    rw [lines] at empty
    have none := getElem?_eq_none_of_drop_eq_nil empty
    split
    · next ended => exact .atEnd s none (.inl (h.ended ▸ ended))
    · refine .waiting none ⟨h.ended, h.count, _, holds, ?_, by rw [pending_pending, rest]⟩
      rw [fitting_pending, contents_nil, empty]
  | tooLarge size empty large holds =>
    rw [lines] at empty
    have none := getElem?_eq_none_of_drop_eq_nil empty
    split <;> exact .tooLarge _ none (.inr (same ▸ large))
  | @line text more first behind holds =>
    rw [lines] at first
    have here : (heardLines arrivals)[taken]? = some text := by
      rw [← List.head?_drop, first, List.head?_cons]
    have follows : Incoming.Follows { s with inbox := i } arrivals (taken + 1) :=
      ⟨h.ended, (List.getElem?_eq_some_iff.1 here).1, more, holds,
        by rw [← List.tail_drop, first, List.tail_cons], behind.trans rest⟩
    split <;> exact .line here follows

end Incoming

end ShowControl
