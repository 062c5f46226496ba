import ShowControl.Proofs.Json.RoundTrip

/-!
# Values that come from a text

A value that has been read has integers of 64 bits, keys that increase, and no more containers
within each other than may be open at once: it is `Regular`. The reader is an automaton, so this is
an invariant of its states: each container that is still open has room for what may stand in it
(`Stacked`), and a character keeps it so (`Sound.step`). `regular_of_parse?` sums this up along a
text.

Regularity passes to the parts of a value (`Regular.part`), and a regular value without numbers of
floating point comes back from its own text (`parse?_render_of_part`).
-/

namespace ShowControl.Json

/-- The value nests at most so deep, its keys increase, and its integers have 64 bits. -/
inductive Regular : ℕ → Json → Prop
  | null (depth : ℕ) : Regular depth .null
  | bool (depth : ℕ) (value : Bool) : Regular depth (.bool value)
  | integer (depth : ℕ) {value : ℤ} (low : -2 ^ 63 ≤ value) (high : value < 2 ^ 64) :
      Regular depth (.integer value)
  | float (depth : ℕ) (x : Numeric.Double) : Regular depth (.float x)
  | string (depth : ℕ) (value : String) : Regular depth (.string value)
  | array {depth : ℕ} {items : List Json} (each : ∀ item ∈ items, Regular depth item) :
      Regular (depth + 1) (.array items)
  | object {depth : ℕ} {members : List (String × Json)} (sorted : Entries.Sorted members)
      (each : ∀ member ∈ members, Regular depth member.2) : Regular (depth + 1) (.object members)

/-- No number of the value is one of floating point. -/
inductive Exact : Json → Prop
  | null : Exact .null
  | bool (value : Bool) : Exact (.bool value)
  | integer (value : ℤ) : Exact (.integer value)
  | string (value : String) : Exact (.string value)
  | array {items : List Json} (each : ∀ item ∈ items, Exact item) : Exact (.array items)
  | object {members : List (String × Json)} (each : ∀ member ∈ members, Exact member.2) :
      Exact (.object members)

/-- The second value stands in the first, at whatever depth. -/
inductive Part : Json → Json → Prop
  | whole (value : Json) : Part value value
  | item {items : List Json} {item part : Json} (listed : item ∈ items) (inner : Part item part) :
      Part (.array items) part
  | member {members : List (String × Json)} {member : String × Json} {part : Json}
      (listed : member ∈ members) (inner : Part member.2 part) : Part (.object members) part

section Values

variable {depth depth' : ℕ} {value piece : Json}

/-- What nests less deep may nest deeper. -/
theorem Regular.mono (h : Regular depth value) (le : depth ≤ depth') : Regular depth' value := by
  induction h generalizing depth' with
  | null => exact .null _
  | bool => exact .bool _ _
  | integer _ low high => exact .integer _ low high
  | float => exact .float _ _
  | string => exact .string _ _
  | array _ ih =>
    obtain ⟨depth', rfl⟩ := Nat.exists_eq_add_of_lt le
    exact .array fun item listed ↦ ih item listed (Nat.le_add_right _ _)
  | object sorted _ ih =>
    obtain ⟨depth', rfl⟩ := Nat.exists_eq_add_of_lt le
    exact .object sorted fun member listed ↦ ih member listed (Nat.le_add_right _ _)

theorem Part.trans {inner : Json} (outer : Part value piece) (h : Part piece inner) :
    Part value inner := by
  induction outer with
  | whole => exact h
  | item listed _ ih => exact .item listed (ih h)
  | member listed _ ih => exact .member listed (ih h)

theorem Regular.part (h : Regular depth value) (inner : Part value piece) :
    Regular depth piece := by
  induction inner generalizing depth with
  | whole => exact h
  | item listed _ ih =>
    cases h with
    | array each => exact (ih (each _ listed)).mono (Nat.le_succ _)
  | member listed _ ih =>
    cases h with
    | object _ each => exact (ih (each _ listed)).mono (Nat.le_succ _)

/-- Only numbers of floating point could stand in the way of reading a regular value back. -/
theorem Regular.readable (h : Regular depth value) (plain : Exact value) :
    Readable depth value := by
  induction h with
  | null => exact .null _
  | bool => exact .bool _ _
  | integer _ low high => exact .integer _ low high
  | float => cases plain
  | string => exact .string _ _
  | array _ ih =>
    cases plain with
    | array plain => exact .array fun item listed ↦ ih item listed (plain item listed)
  | object sorted _ ih =>
    cases plain with
    | object plain =>
      exact .object sorted fun member listed ↦ ih member listed (plain member listed)

theorem Exact.reread_eq (h : Exact value) : value.reread = value := by
  induction h with
  | null => rfl
  | bool => rfl
  | integer => rfl
  | string => rfl
  | array _ ih =>
    rw [reread, rereadItems_eq_map, List.map_congr_left ih, List.map_id']
  | object _ ih =>
    have same : ∀ member ∈ _, (member.1, reread member.2) = member :=
      fun member listed ↦ Prod.ext rfl (ih member listed)
    rw [reread, rereadMembers_eq_map, List.map_congr_left same, List.map_id']

end Values

/-! ### Numbers -/

namespace Number

theorem significand_whole_lt {d : Digits} (small : d.significand < 2 ^ 64) (c : Char) :
    (d.whole c).significand < 2 ^ 64 := by
  rw [Digits.whole]
  split
  · exact small
  · next room => exact Nat.not_le.1 fun large ↦ room (.inr large)

theorem significand_foldl_whole_lt {d : Digits} (small : d.significand < 2 ^ 64)
    (ds : List Char) : (ds.foldl Digits.whole d).significand < 2 ^ 64 := by
  induction ds generalizing d with
  | nil => exact small
  | cons c ds ih => exact ih (significand_whole_lt small c)

theorem regular_of_whole {negative : Bool} {d : Digits} {value : Json}
    (small : d.significand < 2 ^ 64) (h : whole negative d = some value) : Regular 0 value := by
  unfold whole at h
  split at h
  · obtain ⟨a, -, rfl⟩ := Option.map_eq_some_iff.1 h
    exact .float _ _
  · split at h
    · split at h <;> cases h
      · next range =>
        have high : (d.significand : ℤ) ≤ 2 ^ 63 := by exact_mod_cast range.2
        exact .integer _ (by omega) (by omega)
      · exact .float _ _
    · cases h
      exact .integer _ (by omega) (by exact_mod_cast small)

theorem regular_of_readUnsigned? {negative : Bool} {text : List Char} {value : Json}
    (h : readUnsigned? negative text = some value) : Regular 0 value := by
  unfold readUnsigned? at h
  obtain ⟨⟨ds, rest⟩, -, h⟩ := Option.bind_eq_some_iff.1 h
  dsimp only at h
  split at h
  · cases h
  · split at h
    · exact regular_of_whole (significand_foldl_whole_lt (by decide) ds) h
    · obtain ⟨⟨d, rest'⟩, -, h⟩ := Option.bind_eq_some_iff.1 h
      obtain ⟨e, -, h⟩ := Option.bind_eq_some_iff.1 h
      obtain ⟨a, -, h⟩ := Option.bind_eq_some_iff.1 h
      cases h
      exact .float _ _

theorem regular_of_read? {text : List Char} {value : Json} (h : read? text = some value) :
    Regular 0 value := by
  unfold read? at h
  split at h <;> exact regular_of_readUnsigned? h

end Number

/-! ### States of the reader -/

namespace Reader

/-- The members are in order, and their values nest at most so deep. -/
def RegularMembers (room : ℕ) (members : List (String × Json)) : Prop :=
  Entries.Sorted members ∧ ∀ member ∈ members, Regular room member.2

theorem regularMembers_nil (room : ℕ) : RegularMembers room [] := ⟨.nil, List.forall_mem_nil _⟩

theorem RegularMembers.insert {room : ℕ} {members : List (String × Json)}
    (h : RegularMembers room members) (key : String) {value : Json} (regular : Regular room value) :
    RegularMembers room (Entries.insert key value members) := by
  obtain ⟨sorted, each⟩ := h
  have sorted' := sorted.insert key value
  refine ⟨sorted', fun (key', value') listed ↦ ?_⟩
  have found := sorted'.mem_iff.1 listed
  rw [Entries.find?_insert] at found
  split at found
  · cases found
    exact regular
  · exact each _ (sorted.mem_iff.2 found)

/-- What has been read of a container may stand in one whose values nest at most so deep. -/
def Frame.Regular (room : ℕ) : Frame → Prop
  | .array items => ∀ item ∈ items, Json.Regular room item
  | .object members => RegularMembers room members
  | .member members _ => RegularMembers room members

/-- The open containers are regular, and so is the innermost of them with a value that nests at most
so deep. -/
inductive Stacked : ℕ → List Frame → Prop
  | nil : Stacked maxDepth []
  | cons {room : ℕ} {frame : Frame} {outer : List Frame} (inner : frame.Regular room)
      (stacked : Stacked (room + 1) outer) : Stacked room (frame :: outer)

/-- A word stands for a scalar. -/
def Lexeme.Regular : Lexeme → Prop
  | .word _ value => Json.Regular 0 value
  | _ => True

/-- A whole value is regular. -/
def Place.Regular : Place → Prop
  | .done whole => Json.Regular maxDepth whole
  | _ => True

/-- What a state holds is regular. -/
structure Sound (s : State) : Prop where
  lexeme : s.lexeme.Regular
  place : s.place.Regular
  frames : ∃ room, Stacked room s.frames

variable {s t : State} {c : Char} {room : ℕ} {frames : List Frame}

theorem Stacked.add_length (h : Stacked room frames) : room + frames.length = maxDepth := by
  induction h with
  | nil => rfl
  | cons _ _ ih =>
    rw [List.length_cons]
    omega

/-- What is read of a token does not touch the containers. -/
theorem Sound.with_lexeme (h : Sound s) {lexeme : Lexeme} (regular : lexeme.Regular) :
    Sound { s with lexeme } := ⟨regular, h.place, h.frames⟩

theorem sound_complete {value : Json} (stacked : Stacked room frames) (h : Regular room value)
    (completed : complete value frames = some t) : Sound t := by
  unfold complete at completed
  split at completed <;> cases completed
  · cases stacked
    exact ⟨trivial, h, _, .nil⟩
  · next items outer =>
    cases stacked with
    | cons inner stacked =>
      have longer : (Frame.array (value :: items)).Regular room :=
        List.forall_mem_cons.2 ⟨h, inner⟩
      exact ⟨trivial, trivial, room, .cons longer stacked⟩
  · next members key outer =>
    cases stacked with
    | cons inner stacked =>
      have longer : (Frame.object (Entries.insert key value members)).Regular room :=
        RegularMembers.insert inner key h
      exact ⟨trivial, trivial, room, .cons longer stacked⟩

theorem sound_completeText {content : List Char} (h : Sound s)
    (completed : completeText content s = some t) : Sound t := by
  obtain ⟨room, stacked⟩ := h.frames
  unfold completeText at completed
  split at completed
  · cases completed
    exact ⟨trivial, trivial, room, stacked⟩
  · cases completed
    exact ⟨trivial, trivial, room, stacked⟩
  · exact sound_complete stacked (.string _ _) completed

theorem sound_begin {lexeme : Lexeme} (begun : s.begin lexeme = some t) (h : Sound s)
    (regular : lexeme.Regular) : Sound t := by
  unfold State.begin at begun
  split at begun <;> cases begun
  exact h.with_lexeme regular

/-- There is room for what an open container may hold. -/
theorem sound_open {place : Place} {frame : Frame} (opened : s.open place frame = some t)
    (h : Sound s) (between : place.Regular) (empty : ∀ room, frame.Regular room) : Sound t := by
  unfold State.open at opened
  split at opened <;> cases opened
  next free =>
  obtain ⟨room, stacked⟩ := h.frames
  have depth := stacked.add_length
  obtain ⟨inner, rfl⟩ : ∃ inner, room = inner + 1 := Nat.exists_eq_succ_of_ne_zero (by omega)
  exact ⟨trivial, between, inner, .cons (empty inner) stacked⟩

theorem sound_close {frame : Frame} {outer : List Frame} {container : Json} (h : Sound s)
    (inner : s.frames = frame :: outer)
    (whole : ∀ room, frame.Regular room → Regular (room + 1) container)
    (closed : complete container outer = some t) : Sound t := by
  obtain ⟨room, stacked⟩ := h.frames
  rw [inner] at stacked
  cases stacked with
  | cons frame stacked => exact sound_complete stacked (whole room frame) closed

theorem sound_closeArray (h : Sound s) (closed : s.closeArray = some t) : Sound t := by
  have whole (items : List Json) (room : ℕ) (each : (Frame.array items).Regular room) :
      Regular (room + 1) (.array items.reverse) :=
    .array fun item listed ↦ each item (List.mem_reverse.1 listed)
  unfold State.closeArray at closed
  split at closed
  · next frames => exact sound_close h frames (whole _) closed
  · next frames => exact sound_close h frames (whole _) closed
  · cases closed

theorem sound_closeObject (h : Sound s) (closed : s.closeObject = some t) : Sound t := by
  have whole (members : List (String × Json)) (room : ℕ)
      (each : (Frame.object members).Regular room) : Regular (room + 1) (.object members) :=
    .object each.1 each.2
  unfold State.closeObject at closed
  split at closed
  · next frames => exact sound_close h frames (whole _) closed
  · next frames => exact sound_close h frames (whole _) closed
  · cases closed

theorem sound_comma (h : Sound s) (next : s.comma = some t) : Sound t := by
  unfold State.comma at next
  split at next <;> cases next <;> exact ⟨h.lexeme, trivial, h.frames⟩

theorem sound_colon (h : Sound s) (next : s.colon = some t) : Sound t := by
  unfold State.colon at next
  split at next <;> cases next
  next key members outer _ frames =>
  obtain ⟨room, stacked⟩ := h.frames
  rw [frames] at stacked
  cases stacked with
  | cons inner stacked => exact ⟨h.lexeme, trivial, room, .cons inner stacked⟩

theorem sound_stepBlank (h : Sound s) (step : s.stepBlank c = some t) : Sound t := by
  unfold State.stepBlank at step
  split at step
  · cases step
    exact h
  · split at step
    · exact sound_begin step h trivial
    · split at step
      · split at step <;> cases step
        exact h.with_lexeme trivial
      · exact sound_open step h trivial fun _ ↦ List.forall_mem_nil _
      · exact sound_closeArray h step
      · exact sound_open step h trivial regularMembers_nil
      · exact sound_closeObject h step
      · exact sound_comma h step
      · exact sound_colon h step
      · exact sound_begin step h (.bool _ _)
      · exact sound_begin step h (.bool _ _)
      · exact sound_begin step h (.null _)
      · cases step

theorem sound_endNumber {text : List Char} (h : Sound s) (ended : s.endNumber text = some t) :
    Sound t := by
  obtain ⟨value, read, completed⟩ := Option.bind_eq_some_iff.1 ended
  obtain ⟨room, stacked⟩ := h.frames
  exact sound_complete stacked ((Number.regular_of_read? read).mono (Nat.zero_le _)) completed

theorem sound_endCode {content : List Char} {lead : Option ℕ} {value : ℕ} (h : Sound s)
    (ended : s.endCode content lead value = some t) : Sound t := by
  unfold State.endCode at ended
  split at ended
  · split at ended
    · cases ended
      exact h.with_lexeme trivial
    · split at ended <;> cases ended
      exact h.with_lexeme trivial
  · split at ended <;> cases ended
    exact h.with_lexeme trivial

/-- A character keeps what has been read regular. -/
theorem Sound.step (h : Sound s) (step : s.step c = some t) : Sound t := by
  cases lexeme : s.lexeme with
  | blank =>
    rw [State.step, lexeme] at step
    exact sound_stepBlank h step
  | word missing value =>
    have regular : Json.Regular 0 value := by
      have held := h.lexeme
      rwa [lexeme] at held
    rw [State.step, lexeme] at step
    rcases missing with _ | ⟨first, _ | ⟨next, rest⟩⟩
    · cases step
    · dsimp only at step
      split at step
      · obtain ⟨room, stacked⟩ := h.frames
        exact sound_complete stacked (regular.mono (Nat.zero_le _)) step
      · cases step
    · dsimp only at step
      split at step <;> cases step
      exact h.with_lexeme regular
  | number text =>
    rw [State.step, lexeme] at step
    dsimp only at step
    split at step
    · cases step
      exact h.with_lexeme trivial
    · obtain ⟨s', ends, next⟩ := Option.bind_eq_some_iff.1 step
      exact sound_stepBlank (sound_endNumber h ends) next
  | text content =>
    rw [State.step, lexeme] at step
    dsimp only at step
    split at step
    · exact sound_completeText h step
    · split at step
      · cases step
        exact h.with_lexeme trivial
      · split at step <;> cases step
        exact h.with_lexeme trivial
  | escape content =>
    rw [State.step, lexeme] at step
    dsimp only at step
    split at step
    · cases step
      exact h.with_lexeme trivial
    · obtain ⟨d, -, rfl⟩ := Option.map_eq_some_iff.1 step
      exact h.with_lexeme trivial
  | code content lead missing value =>
    rw [State.step, lexeme] at step
    obtain ⟨digit, -, step⟩ := Option.bind_eq_some_iff.1 step
    cases missing with
    | zero => exact sound_endCode h step
    | succ missing =>
      cases step
      exact h.with_lexeme trivial
  | pair content lead =>
    rw [State.step, lexeme] at step
    dsimp only at step
    split at step <;> cases step
    exact h.with_lexeme trivial
  | pairCode content lead =>
    rw [State.step, lexeme] at step
    dsimp only at step
    split at step <;> cases step
    exact h.with_lexeme trivial

theorem Sound.scan {cs : List Char} (h : Sound s) (scan : s.scan cs = some t) : Sound t := by
  induction cs generalizing s with
  | nil =>
    cases scan
    exact h
  | cons c cs ih =>
    obtain ⟨s', step, scan⟩ := Option.bind_eq_some_iff.1 scan
    exact ih (h.step step) scan

theorem Sound.finish {value : Json} (h : Sound s) (finish : s.finish = some value) :
    Regular maxDepth value := by
  unfold State.finish at finish
  dsimp only at finish
  split at finish
  · next last found inner ended =>
    obtain rfl := Option.some.inj finish
    -- the end of a number is one more state
    split at ended
    · cases ended
      exact h.place
    · exact (sound_endNumber h ended).place
    · cases ended
  · cases finish

end Reader

/-- A value that has been read is regular. -/
theorem regular_of_parse? {text : String} {value : Json} (h : parse? text = some value) :
    Regular Reader.maxDepth value := by
  rw [Reader.parse?_eq] at h
  obtain ⟨s, scan, finish⟩ := Option.bind_eq_some_iff.1 h
  have start : Reader.Sound {} := ⟨trivial, trivial, _, .nil⟩
  exact (start.scan scan).finish finish

/-- A part of what has been read comes back from its own text, if it has no number of floating
point. -/
theorem parse?_render_of_part {text : String} {value piece : Json} (h : parse? text = some value)
    (inner : Part value piece) (plain : Exact piece) : parse? piece.render = some piece := by
  rw [parse?_render (((regular_of_parse? h).part inner).readable plain), plain.reread_eq]

end ShowControl.Json
