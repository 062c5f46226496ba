import Mathlib.Data.List.TakeWhile
import ShowControl.Frame.Basic

/-!
# The lines of a byte string

What a stream holds is said without a stream: a byte string is split at all of its line feeds at
once (`segments`). The segments up to the first over the limit can be taken (`fitting`), and what
comes behind these is `pending`; it begins with the first segment that cannot be taken, which is
over the limit or has no line feed yet (`front`).

All of it goes along the segments, so there is one induction on byte strings (`segmentsInduction`).
The statement that the framing rests on is `fitting_append` with `pending_append`: of two byte
strings, one behind the other, what can be taken is what can be taken of the first, and then what
can be taken of its pending bytes with the second behind them. So whatever takes all it can and
keeps the pending bytes may be fed in pieces.
-/

namespace ShowControl.Splitter

/-! ### Segments -/

/-- The segments that line feeds end, without these, and what comes behind the last line feed. -/
def segments : List UInt8 → List (List UInt8) × List UInt8
  | [] => ([], [])
  | b :: bytes =>
    let (lines, tail) := segments bytes
    if b = lineFeed then ([] :: lines, tail)
    else
      match lines with
      | [] => ([], b :: tail)
      | line :: lines => ((b :: line) :: lines, tail)

theorem segments_of_not_mem {tail : List UInt8} (h : lineFeed ∉ tail) :
    segments tail = ([], tail) := by
  induction tail with
  | nil => rfl
  | cons b tail ih =>
    obtain ⟨ne, others⟩ := not_or.1 (List.mem_cons.not.1 h)
    rw [segments, ih others]
    exact if_neg (Ne.symm ne)

theorem segments_append {line : List UInt8} (h : lineFeed ∉ line) (bytes : List UInt8) :
    segments (line ++ lineFeed :: bytes) = (line :: (segments bytes).1, (segments bytes).2) := by
  induction line with
  | nil =>
    rw [List.nil_append, segments]
    exact if_pos rfl
  | cons b line ih =>
    obtain ⟨ne, others⟩ := not_or.1 (List.mem_cons.not.1 h)
    rw [List.cons_append, segments, ih others]
    exact if_neg (Ne.symm ne)

/-- Induction along the line feeds of a byte string. -/
@[elab_as_elim]
theorem segmentsInduction {motive : List UInt8 → Prop}
    (unfinished : ∀ tail, lineFeed ∉ tail → motive tail)
    (line : ∀ line bytes, lineFeed ∉ line → motive bytes → motive (line ++ lineFeed :: bytes))
    (bytes : List UInt8) : motive bytes := by
  induction h : bytes.length using Nat.strongRecOn generalizing bytes with
  | _ n ih =>
    by_cases mem : lineFeed ∈ bytes
    · obtain ⟨first, rest, rfl, free⟩ := List.eq_append_cons_of_mem mem
      refine line first rest free (ih rest.length ?_ rest rfl)
      rw [← h, List.length_append, List.length_cons]
      omega
    · exact unfinished bytes mem

/-- The segments are what the line feeds separate. -/
theorem join_segments (bytes : List UInt8) :
    ((segments bytes).1.map (· ++ [lineFeed])).flatten ++ (segments bytes).2 = bytes := by
  induction bytes using segmentsInduction with
  | unfinished tail free => simp [segments_of_not_mem free]
  | line line bytes free ih =>
    rw [segments_append free, List.map_cons, List.flatten_cons, List.append_assoc, ih,
      List.append_assoc, List.singleton_append]

theorem not_mem_segments (bytes : List UInt8) :
    ∀ line ∈ (segments bytes).2 :: (segments bytes).1, lineFeed ∉ line := by
  induction bytes using segmentsInduction with
  | unfinished tail free => simpa [segments_of_not_mem free] using free
  | line line bytes free ih =>
    rw [List.forall_mem_cons] at ih
    rw [segments_append free]
    exact List.forall_mem_cons.2 ⟨ih.1, List.forall_mem_cons.2 ⟨free, ih.2⟩⟩

/-! ### What can be taken -/

/-- The line may be taken. -/
def fits (line : List UInt8) : Bool := line.length ≤ maxFrameSize

/-- The segments before the first over the limit. -/
def fitting (bytes : List UInt8) : List (List UInt8) := (segments bytes).1.takeWhile fits

/-- The bytes behind those segments. -/
def pending (bytes : List UInt8) : List UInt8 :=
  bytes.drop ((fitting bytes).map (· ++ [lineFeed])).flatten.length

/-- The first segment, whether or not a line feed ends it. -/
def front (bytes : List UInt8) : List UInt8 := bytes.takeWhile (· ≠ lineFeed)

section Equations

variable {line tail : List UInt8}

theorem front_of_not_mem (free : lineFeed ∉ tail) : front tail = tail := by
  rw [front, List.takeWhile_eq_self_iff]
  rintro b mem
  simpa using fun eq : b = lineFeed ↦ free (eq ▸ mem)

theorem front_append (free : lineFeed ∉ line) (bytes : List UInt8) :
    front (line ++ lineFeed :: bytes) = line := by
  have all : ∀ b ∈ line, decide (b ≠ lineFeed) = true := by
    rintro b mem
    simpa using fun eq : b = lineFeed ↦ free (eq ▸ mem)
  rw [front, List.takeWhile_append_of_pos all, List.takeWhile_cons_of_neg (by simp),
    List.append_nil]

theorem fitting_of_not_mem (free : lineFeed ∉ tail) : fitting tail = [] := by
  rw [fitting, segments_of_not_mem free, List.takeWhile_nil]

theorem pending_of_not_mem (free : lineFeed ∉ tail) : pending tail = tail := by
  rw [pending, fitting_of_not_mem free]
  rfl

theorem fitting_of_fits (free : lineFeed ∉ line) (bytes : List UInt8) (h : fits line = true) :
    fitting (line ++ lineFeed :: bytes) = line :: fitting bytes := by
  rw [fitting, segments_append free, List.takeWhile_cons_of_pos h, fitting]

theorem pending_of_fits (free : lineFeed ∉ line) (bytes : List UInt8) (h : fits line = true) :
    pending (line ++ lineFeed :: bytes) = pending bytes := by
  rw [pending, fitting_of_fits free bytes h, List.map_cons, List.flatten_cons,
    List.append_cons line lineFeed bytes, List.length_append, ← List.drop_drop, List.drop_left,
    pending]

theorem fitting_of_not_fits (free : lineFeed ∉ line) (bytes : List UInt8) (h : ¬fits line = true) :
    fitting (line ++ lineFeed :: bytes) = [] := by
  rw [fitting, segments_append free, List.takeWhile_cons_of_neg h]

theorem pending_of_not_fits (free : lineFeed ∉ line) (bytes : List UInt8) (h : ¬fits line = true) :
    pending (line ++ lineFeed :: bytes) = line ++ lineFeed :: bytes := by
  rw [pending, fitting_of_not_fits free bytes h]
  rfl

end Equations

/-- What has been taken and what is pending make up the bytes. -/
theorem join_fitting (bytes : List UInt8) :
    ((fitting bytes).map (· ++ [lineFeed])).flatten ++ pending bytes = bytes := by
  induction bytes using segmentsInduction with
  | unfinished tail free => simp [fitting_of_not_mem free, pending_of_not_mem free]
  | line line bytes free ih =>
    by_cases h : fits line = true
    · rw [fitting_of_fits free bytes h, pending_of_fits free bytes h, List.map_cons,
        List.flatten_cons, List.append_assoc, ih, List.append_assoc, List.singleton_append]
    · simp [fitting_of_not_fits free bytes h, pending_of_not_fits free bytes h]

/-! ### What a line holds -/

/-- The line without the carriage return that may end it. -/
def content (line : List UInt8) : List UInt8 :=
  if line.getLast? = some carriageReturn then line.dropLast else line

/-- What the lines hold, passing over those that hold nothing. -/
def contents (lines : List (List UInt8)) : List (List UInt8) :=
  (lines.map content).filter (· ≠ [])

@[simp] theorem contents_nil : contents [] = [] := rfl

theorem contents_cons (line : List UInt8) (lines : List (List UInt8)) :
    contents (line :: lines) =
      if content line = [] then contents lines else content line :: contents lines := by
  by_cases h : content line = [] <;> simp [contents, h]

theorem contents_append (left right : List (List UInt8)) :
    contents (left ++ right) = contents left ++ contents right := by
  rw [contents, List.map_append, List.filter_append, contents, contents]

/-! ### One byte string behind another -/

theorem fitting_append (bytes more : List UInt8) :
    fitting (bytes ++ more) = fitting bytes ++ fitting (pending bytes ++ more) := by
  induction bytes using segmentsInduction with
  | unfinished tail free => simp [fitting_of_not_mem free, pending_of_not_mem free]
  | line line bytes free ih =>
    by_cases h : fits line = true
    · rw [List.append_assoc, List.cons_append, fitting_of_fits free _ h, ih,
        fitting_of_fits free _ h, pending_of_fits free _ h, List.cons_append]
    · rw [fitting_of_not_fits free _ h, pending_of_not_fits free _ h, List.nil_append]

theorem pending_append (bytes more : List UInt8) :
    pending (bytes ++ more) = pending (pending bytes ++ more) := by
  induction bytes using segmentsInduction with
  | unfinished tail free => rw [pending_of_not_mem free]
  | line line bytes free ih =>
    by_cases h : fits line = true
    · rw [List.append_assoc, List.cons_append, pending_of_fits free _ h, ih,
        pending_of_fits free _ h]
    · rw [pending_of_not_fits free _ h]

/-- Bytes without a line feed complete no line. -/
theorem fitting_append_of_not_mem (bytes : List UInt8) {tail : List UInt8}
    (free : lineFeed ∉ tail) : fitting (bytes ++ tail) = fitting bytes := by
  induction bytes using segmentsInduction with
  | unfinished start free' =>
    have free'' : lineFeed ∉ start ++ tail := by simp [free, free']
    rw [fitting_of_not_mem free'', fitting_of_not_mem free']
  | line line bytes free' ih =>
    rw [List.append_assoc, List.cons_append]
    by_cases h : fits line = true
    · rw [fitting_of_fits free' _ h, ih, fitting_of_fits free' _ h]
    · rw [fitting_of_not_fits free' _ h, fitting_of_not_fits free' _ h]

/-- Of what is pending nothing can be taken. -/
theorem fitting_pending (bytes : List UInt8) : fitting (pending bytes) = [] := by
  have twice := fitting_append bytes []
  simpa using twice

theorem pending_pending (bytes : List UInt8) : pending (pending bytes) = pending bytes := by
  have twice := pending_append bytes []
  simpa using twice.symm

theorem contents_fitting_append (bytes more : List UInt8) :
    contents (fitting (bytes ++ more)) =
      contents (fitting bytes) ++ contents (fitting (pending bytes ++ more)) := by
  rw [fitting_append, contents_append]

/-! ### Segments over the limit -/

/-- The first of the pending bytes is a segment over the limit. -/
def oversized (bytes : List UInt8) : Bool := !fits (front (pending bytes))

theorem oversized_append (bytes more : List UInt8) :
    oversized (bytes ++ more) = oversized (pending bytes ++ more) := by
  rw [oversized, pending_append, oversized]

theorem oversized_pending (bytes : List UInt8) : oversized (pending bytes) = oversized bytes := by
  rw [oversized, pending_pending, oversized]

/-- The report about that segment. -/
def report (bytes : List UInt8) : Option FrameTooLarge :=
  if oversized bytes then some ⟨(front (pending bytes)).length⟩ else none

/-- No segment is over the limit exactly if everything up to the last line feed can be taken. -/
theorem oversized_eq_false_iff (bytes : List UInt8) :
    oversized bytes = false ↔ ∀ line ∈ (segments bytes).1 ++ [(segments bytes).2], fits line := by
  rw [oversized]
  induction bytes using segmentsInduction with
  | unfinished tail free =>
    simp [segments_of_not_mem free, pending_of_not_mem free, front_of_not_mem free]
  | line line bytes free ih =>
    rw [segments_append free, List.cons_append, List.forall_mem_cons, ← ih]
    by_cases h : fits line = true
    · simp [pending_of_fits free bytes h, h]
    · simp [pending_of_not_fits free bytes h, front_append free, h]

theorem fitting_eq {bytes : List UInt8} (h : oversized bytes = false) :
    fitting bytes = (segments bytes).1 := by
  have all := (oversized_eq_false_iff bytes).1 h
  exact List.takeWhile_eq_self_iff.2 fun line mem ↦ all line (List.mem_append_left _ mem)

theorem pending_eq {bytes : List UInt8} (h : oversized bytes = false) :
    pending bytes = (segments bytes).2 := by
  have joined := join_fitting bytes
  rw [fitting_eq h] at joined
  exact List.append_cancel_left (joined.trans (join_segments bytes).symm)

theorem length_front_le (bytes more : List UInt8) :
    (front bytes).length ≤ (front (bytes ++ more)).length := by
  unfold front
  rw [List.takeWhile_append]
  split
  · next all =>
    rw [List.length_append, all]
    exact Nat.le_add_right _ _
  · exact le_rfl

/-- A segment over the limit in front keeps all that follows it from being taken. -/
theorem stuck {bytes : List UInt8} (h : fits (front bytes) = false) :
    fitting bytes = [] ∧ pending bytes = bytes := by
  induction bytes using segmentsInduction with
  | unfinished tail free => exact ⟨fitting_of_not_mem free, pending_of_not_mem free⟩
  | line line bytes free ih =>
    rw [front_append free] at h
    have unfit : ¬fits line = true := by simp [h]
    exact ⟨fitting_of_not_fits free bytes unfit, pending_of_not_fits free bytes unfit⟩

theorem stuck_append {bytes : List UInt8} (h : fits (front bytes) = false) (more : List UInt8) :
    fits (front (bytes ++ more)) = false := by
  have longer := length_front_le bytes more
  simp only [fits, decide_eq_false_iff_not] at h ⊢
  omega

section Oversized

variable {bytes : List UInt8} (h : oversized bytes = true)
include h

theorem fits_front_pending : fits (front (pending bytes)) = false := by
  simpa [oversized] using h

/-- Behind a segment over the limit nothing is taken. -/
theorem fitting_append_of_oversized (more : List UInt8) :
    fitting (bytes ++ more) = fitting bytes := by
  rw [fitting_append, (stuck (stuck_append (fits_front_pending h) more)).1, List.append_nil]

theorem oversized_append_of_oversized (more : List UInt8) : oversized (bytes ++ more) = true := by
  have still := stuck_append (fits_front_pending h) more
  rw [oversized_append, oversized, (stuck still).2, still]
  rfl

end Oversized

/-- No segment of a part that comes first is over the limit if none of the whole is. -/
theorem oversized_eq_false_of_append {bytes more : List UInt8}
    (within : oversized (bytes ++ more) = false) : oversized bytes = false := by
  cases large : oversized bytes with
  | false => rfl
  | true =>
    rw [oversized_append_of_oversized large] at within
    cases within

end ShowControl.Splitter
