import ShowControl.Proofs.Json.RoundTrip

/-!
# Reading never makes a text longer

The strings of a value, written out again, take no more bytes than the text that it was read from:
whatever the writer escapes cannot have been shorter in the text. The reader is an automaton, so
this is an account of its states: each state counts for the bytes that its strings would take, a
string that is being read among them (`State.textSize`), and a character adds no more to it than its
own bytes (`State.textSize_step`). `textSize_le_of_parse?` sums this up along a text.
-/

namespace ShowControl.Json

/-! ### Bytes of strings -/

/-- The bytes of some characters. -/
def byteCount (cs : List Char) : ℕ := (cs.map Char.utf8Size).sum

/-- The bytes that some characters take within a string that is written. -/
def quotedCount (cs : List Char) : ℕ := byteCount (cs.flatMap escape)

/-- The bytes that a string takes between its quotes. -/
def quotedSize (text : String) : ℕ := quotedCount text.toList

theorem byteCount_append (left right : List Char) :
    byteCount (left ++ right) = byteCount left + byteCount right := by
  rw [byteCount, List.map_append, List.sum_append, byteCount, byteCount]

theorem byteCount_cons (c : Char) (cs : List Char) :
    byteCount (c :: cs) = c.utf8Size + byteCount cs := by
  rw [byteCount, List.map_cons, List.sum_cons, byteCount]

theorem quotedCount_append (left right : List Char) :
    quotedCount (left ++ right) = quotedCount left + quotedCount right := by
  rw [quotedCount, List.flatMap_append, byteCount_append, quotedCount, quotedCount]

theorem quotedCount_cons (c : Char) (cs : List Char) :
    quotedCount (c :: cs) = byteCount (escape c) + quotedCount cs := by
  rw [quotedCount, List.flatMap_cons, byteCount_append, quotedCount]

theorem quotedCount_reverse (cs : List Char) : quotedCount cs.reverse = quotedCount cs := by
  induction cs with
  | nil => rfl
  | cons c cs ih =>
    rw [List.reverse_cons, quotedCount_append, ih, quotedCount_cons, quotedCount_cons]
    exact Nat.add_comm ..

theorem quotedSize_append (left right : String) :
    quotedSize (left ++ right) = quotedSize left + quotedSize right := by
  rw [quotedSize, String.toList_append, quotedCount_append, quotedSize, quotedSize]

/-- A letter that is repeated takes one byte each time. -/
theorem quotedSize_replicate (n : ℕ) : quotedSize (String.ofList (List.replicate n 'x')) = n := by
  have one : byteCount (escape 'x') = 1 := by decide
  rw [quotedSize, String.toList_ofList]
  induction n with
  | zero => rfl
  | succ n ih => rw [List.replicate_succ, quotedCount_cons, ih, one, Nat.add_comm]

theorem byteCount_toList (text : String) : byteCount text.toList = text.utf8ByteSize := by
  rw [← String.size_toByteArray, ← String.utf8Encode_toList, List.utf8Encode,
    List.size_toByteArray, List.length_flatMap, byteCount]
  simp only [String.length_utf8EncodeChar]

/-- A string that is written has two quotes besides. -/
theorem byteCount_textChars (text : String) :
    byteCount (textChars text) = quotedSize text + 2 := by
  have quote : byteCount ['"'] = 1 := by decide
  rw [textChars, ← List.singleton_append, byteCount_append, byteCount_append, quote, quotedSize,
    quotedCount]
  omega

/-- An escape takes six bytes at most. -/
theorem byteCount_escape_le (c : Char) : byteCount (escape c) ≤ 6 := by
  have digit (n : ℕ) : (hexDigit n).utf8Size = 1 := by
    have all : ∀ k : Fin 16, (k.val % 16).digitChar.utf8Size = 1 := by decide
    simpa [hexDigit] using all ⟨n % 16, Nat.mod_lt _ (by decide)⟩
  rw [escape]
  split_ifs
  iterate 7
    · decide
  · simp only [byteCount_cons, digit]
    decide
  · exact (Nat.add_zero _).trans_le (c.utf8Size_le_four.trans (by decide))

theorem byteCount_escape_of_plain {c : Char} (quote : c ≠ '"') (backslash : c ≠ '\\')
    (low : ¬c < ' ') : byteCount (escape c) = c.utf8Size := by
  have whole : escape c = [c] := by
    rw [escape, if_neg quote, if_neg backslash]
    split_ifs <;> first | rfl | simp_all
  rw [whole, byteCount_cons]
  rfl

theorem byteCount_escape_of_escaped? {c d : Char} (h : Reader.escaped? c = some d) :
    byteCount (escape d) ≤ 2 := by
  unfold Reader.escaped? at h
  split at h <;> cases h <;> decide

/-! ### Strings of values -/

mutual

/-- The bytes of all strings that are values within a value. -/
def textSize : Json → ℕ
  | .string text => quotedSize text
  | .array items => itemsTextSize items
  | .object members => membersTextSize members
  | _ => 0

/-- The bytes of all strings within some items. -/
def itemsTextSize : List Json → ℕ
  | [] => 0
  | item :: items => textSize item + itemsTextSize items

/-- The bytes of all strings within the values of some members. -/
def membersTextSize : List (String × Json) → ℕ
  | [] => 0
  | (_, value) :: members => textSize value + membersTextSize members

end

theorem itemsTextSize_eq (items : List Json) : itemsTextSize items = (items.map textSize).sum := by
  induction items with
  | nil => rfl
  | cons item items ih => rw [itemsTextSize, ih, List.map_cons, List.sum_cons]

theorem itemsTextSize_reverse (items : List Json) :
    itemsTextSize items.reverse = itemsTextSize items := by
  rw [itemsTextSize_eq, List.map_reverse, List.sum_reverse, itemsTextSize_eq]

theorem membersTextSize_insert_le (key : String) (value : Json) (members : List (String × Json)) :
    membersTextSize (Entries.insert key value members) ≤
      textSize value + membersTextSize members := by
  induction members with
  | nil => rfl
  | cons entry members ih =>
    obtain ⟨k, a⟩ := entry
    rw [Entries.insert]
    split
    · rfl
    · split <;> simp only [membersTextSize] <;> omega

/-! ### Numbers -/

theorem textSize_of_whole {negative : Bool} {d : Number.Digits} {value : Json}
    (h : Number.whole negative d = some value) : value.textSize = 0 := by
  unfold Number.whole at h
  split at h
  · obtain ⟨a, -, rfl⟩ := Option.map_eq_some_iff.1 h
    rfl
  · split at h
    · split at h <;> cases h <;> rfl
    · cases h
      rfl

theorem textSize_of_readUnsigned? {negative : Bool} {text : List Char} {value : Json}
    (h : Number.readUnsigned? negative text = some value) : value.textSize = 0 := by
  unfold Number.readUnsigned? at h
  obtain ⟨⟨ds, rest⟩, -, h⟩ := Option.bind_eq_some_iff.1 h
  dsimp only at h
  split at h
  · cases h
  · split at h
    · exact textSize_of_whole h
    · obtain ⟨⟨d, rest'⟩, -, h⟩ := Option.bind_eq_some_iff.1 h
      obtain ⟨e, -, h⟩ := Option.bind_eq_some_iff.1 h
      obtain ⟨a, -, h⟩ := Option.bind_eq_some_iff.1 h
      cases h
      rfl

/-- A number holds no string. -/
theorem textSize_of_read? {text : List Char} {value : Json}
    (h : Number.read? text = some value) : value.textSize = 0 := by
  unfold Number.read? at h
  split at h <;> exact textSize_of_readUnsigned? h

/-! ### States of the reader -/

namespace Reader

/-- The bytes that have gone into the string that is being read, if one is. -/
def Lexeme.textSize : Lexeme → ℕ
  | .word _ value => value.textSize
  | .text content => quotedCount content
  | .escape content => quotedCount content + 1
  | .code content none missing _ => quotedCount content + 2 + (3 - missing)
  | .code content (some _) missing _ => quotedCount content + 8 + (3 - missing)
  | .pair content _ => quotedCount content + 6
  | .pairCode content _ => quotedCount content + 7
  | _ => 0

/-- The bytes of the strings of a value that is complete. -/
def Place.textSize : Place → ℕ
  | .done whole => whole.textSize
  | _ => 0

/-- The bytes of the strings within an open container. -/
def Frame.textSize : Frame → ℕ
  | .array items => itemsTextSize items
  | .object members => membersTextSize members
  | .member members _ => membersTextSize members

/-- The bytes of the strings within some open containers. -/
def framesTextSize (frames : List Frame) : ℕ := (frames.map Frame.textSize).sum

/-- The bytes of all strings that a state has read. -/
def State.textSize (s : State) : ℕ :=
  s.lexeme.textSize + s.place.textSize + framesTextSize s.frames

@[simp] theorem framesTextSize_nil : framesTextSize [] = 0 := rfl

@[simp] theorem framesTextSize_cons (frame : Frame) (frames : List Frame) :
    framesTextSize (frame :: frames) = frame.textSize + framesTextSize frames := by
  rw [framesTextSize, List.map_cons, List.sum_cons, framesTextSize]

variable {s t : State} {c : Char}

theorem textSize_complete {value : Json} {frames : List Frame}
    (h : complete value frames = some t) :
    t.textSize ≤ value.textSize + framesTextSize frames := by
  unfold complete at h
  split at h <;> cases h
  · simp [State.textSize, Lexeme.textSize, Place.textSize]
  · simp only [State.textSize, Lexeme.textSize, Place.textSize, framesTextSize_cons,
      Frame.textSize, itemsTextSize]
    omega
  · next members key outer =>
    have inserted := membersTextSize_insert_le key value members
    simp only [State.textSize, Lexeme.textSize, Place.textSize, framesTextSize_cons,
      Frame.textSize]
    omega

theorem textSize_completeText {content : List Char} (h : completeText content s = some t) :
    t.textSize ≤ quotedCount content + framesTextSize s.frames := by
  have text : (Json.string (String.ofList content.reverse)).textSize = quotedCount content := by
    rw [Json.textSize, quotedSize, String.toList_ofList, quotedCount_reverse]
  unfold completeText at h
  split at h
  · cases h
    simp [State.textSize, Lexeme.textSize, Place.textSize]
  · cases h
    simp [State.textSize, Lexeme.textSize, Place.textSize]
  · exact (textSize_complete h).trans_eq (by rw [text])

theorem textSize_begin {lexeme : Lexeme} (h : s.begin lexeme = some t) :
    t.textSize ≤ lexeme.textSize + s.textSize := by
  unfold State.begin at h
  split at h <;> cases h
  simp only [State.textSize]
  omega

theorem textSize_open {place : Place} {frame : Frame} (outside : place.textSize = 0)
    (empty : frame.textSize = 0) (h : s.open place frame = some t) : t.textSize ≤ s.textSize := by
  unfold State.open at h
  split at h <;> cases h
  simp only [State.textSize, Lexeme.textSize, framesTextSize_cons, outside, empty]
  omega

theorem textSize_close {container : Json} (frame : Frame) {outer : List Frame}
    (same : container.textSize = frame.textSize) (inner : s.frames = frame :: outer)
    (h : complete container outer = some t) : t.textSize ≤ s.textSize := by
  have closed := textSize_complete h
  simp only [State.textSize, inner, framesTextSize_cons, same] at closed ⊢
  omega

theorem textSize_closeArray (h : s.closeArray = some t) : t.textSize ≤ s.textSize := by
  have reversed (items : List Json) :
      (Json.array items.reverse).textSize = (Frame.array items).textSize := by
    rw [Json.textSize, itemsTextSize_reverse, Frame.textSize]
  unfold State.closeArray at h
  split at h
  · next frames => exact textSize_close _ (reversed _) frames h
  · next frames => exact textSize_close _ (reversed _) frames h
  · cases h

theorem textSize_closeObject (h : s.closeObject = some t) : t.textSize ≤ s.textSize := by
  unfold State.closeObject at h
  split at h
  · next members _ _ frames => exact textSize_close (.object members) rfl frames h
  · next members _ _ frames => exact textSize_close (.object members) rfl frames h
  · cases h

theorem textSize_comma (h : s.comma = some t) : t.textSize ≤ s.textSize := by
  unfold State.comma at h
  split at h <;> cases h <;> simp [State.textSize, Place.textSize]

theorem textSize_colon (h : s.colon = some t) : t.textSize ≤ s.textSize := by
  unfold State.colon at h
  split at h
  · next key members outer place frames =>
    cases h
    simp [State.textSize, Place.textSize, frames, Frame.textSize]
  · cases h

/-- Nothing is added between tokens. -/
theorem textSize_stepBlank (h : s.stepBlank c = some t) : t.textSize ≤ s.textSize := by
  unfold State.stepBlank at h
  split at h
  · cases h
    exact le_rfl
  · split at h
    · exact (textSize_begin h).trans_eq (Nat.zero_add _)
    · split at h
      · split at h <;> cases h
        simp only [State.textSize, Lexeme.textSize, quotedCount, List.flatMap_nil]
        exact Nat.add_le_add_right (Nat.add_le_add_right (Nat.zero_le _) _) _
      · exact textSize_open rfl rfl h
      · exact textSize_closeArray h
      · exact textSize_open rfl rfl h
      · exact textSize_closeObject h
      · exact textSize_comma h
      · exact textSize_colon h
      · exact (textSize_begin h).trans_eq (Nat.zero_add _)
      · exact (textSize_begin h).trans_eq (Nat.zero_add _)
      · exact (textSize_begin h).trans_eq (Nat.zero_add _)
      · cases h

theorem textSize_endNumber {text : List Char} (h : s.endNumber text = some t) :
    t.textSize ≤ framesTextSize s.frames := by
  obtain ⟨value, read, completed⟩ := Option.bind_eq_some_iff.1 h
  have whole := textSize_complete completed
  rwa [textSize_of_read? read, Nat.zero_add] at whole

/-- A code is six bytes long, or twelve with the first half of a pair. -/
theorem textSize_endCode {content : List Char} {lead : Option ℕ} {value : ℕ}
    (h : s.endCode content lead value = some t) :
    t.textSize ≤ quotedCount content + (if lead.isSome then 12 else 6) + s.place.textSize +
      framesTextSize s.frames := by
  have six (n : ℕ) := byteCount_escape_le (Char.ofNat n)
  unfold State.endCode at h
  split at h
  · split at h
    · cases h
      simp [State.textSize, Lexeme.textSize]
    · split at h <;> cases h
      have one := six value
      simp only [State.textSize, Lexeme.textSize, quotedCount_cons]
      simp
      omega
  · split at h <;> cases h
    next lead _ =>
    have one := six (0x10000 + (lead - 0xD800) * 0x400 + (value - 0xDC00))
    simp only [State.textSize, Lexeme.textSize, quotedCount_cons]
    simp
    omega

/-- A character adds no more than its own bytes. -/
theorem State.textSize_step (h : s.step c = some t) : t.textSize ≤ s.textSize + c.utf8Size := by
  have some_byte : 1 ≤ c.utf8Size := c.utf8Size_pos
  have size : s.textSize = s.lexeme.textSize + s.place.textSize + framesTextSize s.frames := rfl
  cases lexeme : s.lexeme with
  | blank =>
    rw [State.step, lexeme] at h
    exact (textSize_stepBlank h).trans (Nat.le_add_right _ _)
  | word missing value =>
    rw [lexeme] at size
    rw [State.step, lexeme] at h
    rcases missing with _ | ⟨first, _ | ⟨next, rest⟩⟩
    · cases h
    · dsimp only at h
      split at h
      · have whole := textSize_complete h
        simp only [Lexeme.textSize] at size
        omega
      · cases h
    · dsimp only at h
      split at h <;> cases h
      simp only [State.textSize, Lexeme.textSize] at size ⊢
      omega
  | number text =>
    rw [State.step, lexeme] at h
    dsimp only at h
    split at h
    · cases h
      simp only [State.textSize, Lexeme.textSize]
      omega
    · obtain ⟨s', ends, next⟩ := Option.bind_eq_some_iff.1 h
      have number := textSize_endNumber ends
      have behind := textSize_stepBlank next
      omega
  | text content =>
    rw [lexeme, Lexeme.textSize] at size
    rw [State.step, lexeme] at h
    dsimp only at h
    split at h
    · have whole := textSize_completeText h
      omega
    · next quote =>
      split at h
      · cases h
        simp only [State.textSize, Lexeme.textSize] at size ⊢
        omega
      · next backslash =>
        split at h <;> cases h
        next low =>
        have plain := byteCount_escape_of_plain quote backslash low
        simp only [State.textSize, Lexeme.textSize, quotedCount_cons] at size ⊢
        omega
  | escape content =>
    rw [lexeme, Lexeme.textSize] at size
    rw [State.step, lexeme] at h
    dsimp only at h
    split at h
    · cases h
      simp only [State.textSize, Lexeme.textSize] at size ⊢
      omega
    · obtain ⟨d, escaped, rfl⟩ := Option.map_eq_some_iff.1 h
      have two := byteCount_escape_of_escaped? escaped
      simp only [State.textSize, Lexeme.textSize, quotedCount_cons] at size ⊢
      omega
  | code content lead missing value =>
    rw [lexeme] at size
    rw [State.step, lexeme] at h
    obtain ⟨digit, -, h⟩ := Option.bind_eq_some_iff.1 h
    cases missing with
    | zero =>
      have whole := textSize_endCode h
      cases lead <;> simp [Lexeme.textSize] at size whole <;> omega
    | succ missing =>
      cases h
      cases lead <;> simp [State.textSize, Lexeme.textSize] at size ⊢ <;> omega
  | pair content lead =>
    rw [lexeme, Lexeme.textSize] at size
    rw [State.step, lexeme] at h
    dsimp only at h
    split at h <;> cases h
    simp only [State.textSize, Lexeme.textSize] at size ⊢
    omega
  | pairCode content lead =>
    rw [lexeme, Lexeme.textSize] at size
    rw [State.step, lexeme] at h
    dsimp only at h
    split at h <;> cases h
    simp only [State.textSize, Lexeme.textSize] at size ⊢
    omega

theorem State.textSize_scan {cs : List Char} (h : s.scan cs = some t) :
    t.textSize ≤ s.textSize + byteCount cs := by
  induction cs generalizing s with
  | nil =>
    cases h
    exact Nat.le_add_right _ _
  | cons c cs ih =>
    obtain ⟨s', step, scan⟩ := Option.bind_eq_some_iff.1 h
    have first := textSize_step step
    have others := ih scan
    rw [byteCount_cons]
    omega

theorem State.textSize_finish {value : Json} (h : s.finish = some value) :
    value.textSize ≤ s.textSize := by
  unfold State.finish at h
  dsimp only at h
  split at h
  · next last found inner ended =>
    obtain rfl := Option.some.inj h
    have whole : found.textSize ≤ (⟨last, .done found, inner⟩ : State).textSize :=
      (Nat.le_add_left _ _).trans (Nat.le_add_right _ _)
    refine whole.trans ?_
    -- the end of a number is one more state
    split at ended
    · cases ended
      exact le_rfl
    · exact (textSize_endNumber ended).trans (Nat.le_add_left _ _)
    · cases ended
  · cases h

end Reader

/-- The strings of a value take no more bytes than the text that it is read from. -/
theorem textSize_le_of_parse? {text : String} {value : Json} (h : parse? text = some value) :
    value.textSize ≤ text.utf8ByteSize := by
  rw [Reader.parse?_eq] at h
  obtain ⟨s, scan, finish⟩ := Option.bind_eq_some_iff.1 h
  have read := Reader.State.textSize_scan scan
  have whole := Reader.State.textSize_finish finish
  have empty : ({} : Reader.State).textSize = 0 := rfl
  rw [byteCount_toList, empty, Nat.zero_add] at read
  exact whole.trans read

theorem textSize_le_of_parseBytes? {text : ByteArray} {value : Json}
    (h : parseBytes? text = some value) : value.textSize ≤ text.size := by
  obtain ⟨decoded, utf8, read⟩ := Option.bind_eq_some_iff.1 h
  have same : decoded.toByteArray = text := by
    unfold String.fromUTF8? at utf8
    split at utf8 <;> cases utf8
    rfl
  rw [← same, String.size_toByteArray]
  exact textSize_le_of_parse? read

end ShowControl.Json
