import ShowControl.Proofs.Json.Line

/-!
# A written value is read back

`parse?_render` says what reading makes of the text of a value: the value, except that each number
of floating point is what its text is read as (`reread`). It holds of the values that are
`Readable`: their integers have 64 bits, their keys increase, and they nest at most as deep as the
reader follows.

The reader has no parts that belong to one value each, only states. So the induction, on how the
value is readable, says of any state that wants a value that reading the value's characters leads to
the state behind the value (`Readable.reads`), with the open containers untouched. A number ends
only where the next character is none of it; `Reads` is therefore about the state that the reader
has come to or will come to at the end of the number it is in.
-/

namespace ShowControl.Json

namespace Reader

/-! ### Reading a list of characters -/

/-- Reads characters. -/
def State.scan (s : State) (cs : List Char) : Option State := cs.foldlM State.step s

@[simp] theorem State.scan_nil (s : State) : s.scan [] = some s := rfl

@[simp] theorem State.scan_cons (s : State) (c : Char) (cs : List Char) :
    s.scan (c :: cs) = (s.step c).bind fun s ↦ s.scan cs := rfl

theorem State.scan_append (s : State) (left right : List Char) :
    s.scan (left ++ right) = (s.scan left).bind fun s ↦ s.scan right :=
  List.foldlM_append

theorem foldl_step (cs : List Char) (s : Option State) :
    cs.foldl (fun s c ↦ s.bind fun s ↦ s.step c) s = s.bind fun s ↦ s.scan cs := by
  induction cs generalizing s with
  | nil => cases s <;> rfl
  | cons c cs ih =>
    rw [List.foldl_cons, ih]
    cases s <;> rfl

theorem parse?_eq (text : String) :
    parse? text = (({} : State).scan text.toList).bind State.finish := by
  rw [parse?, String.foldl_eq_foldl_toList, foldl_step]
  rfl

/-! ### States that a number ends in -/

/-- The state is this one, or a number is being read that ends in this one. -/
inductive Settles : State → State → Prop
  | refl (t : State) : Settles t t
  | number {u t : State} {text : List Char} (lexeme : u.lexeme = .number text)
      (ends : u.endNumber text = some t) : Settles u t

/-- Reading the characters leads to a state, at the end of a number at the latest. -/
def Reads (s : State) (cs : List Char) (t : State) : Prop :=
  ∃ u, s.scan cs = some u ∧ Settles u t

section Reads

variable {s t t' t'' : State} {c : Char} {cs ds : List Char}

theorem Reads.of_scan (h : s.scan cs = some t) : Reads s cs t := ⟨t, h, .refl t⟩

theorem Settles.step {u : State} (h : Settles u t) (blank : t.lexeme = .blank)
    (part : isNumberPart c = false) : u.step c = t.stepBlank c := by
  cases h with
  | refl => simp [State.step, blank]
  | number lexeme ends => simp [State.step, lexeme, part, ends]

theorem Settles.finish {u : State} (h : Settles u t) (blank : t.lexeme = .blank) :
    u.finish = t.finish := by
  cases h with
  | refl => rfl
  | number lexeme ends => simp [State.finish, lexeme, ends, blank]

/-- A character that ends numbers is read between tokens. -/
theorem Reads.next (h : Reads s cs t) (blank : t.lexeme = .blank) (part : isNumberPart c = false)
    (step : t.stepBlank c = some t') (rest : Reads t' ds t'') : Reads s (cs ++ c :: ds) t'' := by
  obtain ⟨u, scan, settles⟩ := h
  obtain ⟨u', scan', settles'⟩ := rest
  refine ⟨u', ?_, settles'⟩
  rw [State.scan_append, scan, Option.bind_some, State.scan_cons, settles.step blank part, step,
    Option.bind_some, scan']

theorem Reads.cons (blank : s.lexeme = .blank) (step : s.stepBlank c = some t)
    (rest : Reads t cs t') : Reads s (c :: cs) t' := by
  obtain ⟨u, scan, settles⟩ := rest
  exact ⟨u, by simp [State.step, blank, step, scan], settles⟩

end Reads

/-! ### Numbers, words and strings -/

theorem scan_number (s : State) {rest : List Char}
    (parts : ∀ c ∈ rest, isNumberPart c = true) (text : List Char) :
    ({ s with lexeme := .number text } : State).scan rest =
      some { s with lexeme := .number (rest.reverse ++ text) } := by
  induction rest generalizing text with
  | nil => rfl
  | cons c rest ih =>
    obtain ⟨part, parts⟩ := List.forall_mem_cons.1 parts
    simp [State.step, part, ih parts]

theorem not_isBlank_of_isDigit {c : Char} (h : c.isDigit = true) : isBlank c = false := by
  rw [Bool.eq_false_iff]
  intro blank
  simp only [isBlank, Bool.or_eq_true, decide_eq_true_eq] at blank
  rcases blank with ((rfl | rfl) | rfl) | rfl <;> exact absurd h (by decide)

/-- A number token is read as what its text is read as. -/
theorem reads_token {text : List Char} (token : Number.IsToken text) {value : Json}
    (read : Number.read? text = some value) {s t : State} (blank : s.lexeme = .blank)
    (wants : s.wantsValue = true) (ends : complete value s.frames = some t) :
    Reads s text t := by
  obtain ⟨⟨c, head, first⟩, parts⟩ := token
  obtain ⟨rest, rfl⟩ : ∃ rest, text = c :: rest := by
    cases text with
    | nil => simp at head
    | cons a rest => exact ⟨rest, by simpa using head⟩
  have begins : s.stepBlank c = some { s with lexeme := .number [c] } := by
    rcases first with digit | rfl
    · simp [State.stepBlank, not_isBlank_of_isDigit digit, digit, State.begin, wants]
    · simp [State.stepBlank, isBlank, State.begin, wants]
  -- the state is still within the number, whose end is what settles it
  refine Reads.cons blank begins ⟨_, scan_number s (List.forall_mem_cons.1 parts).2 [c], ?_⟩
  exact .number rfl (by simp [State.endNumber, read, ends])

theorem scan_word (s : State) (value : Json) (first : Char) (rest : List Char) :
    ({ s with lexeme := .word (first :: rest) value } : State).scan (first :: rest) =
      complete value s.frames := by
  induction rest generalizing first with
  | nil =>
    have ends : ({ s with lexeme := .word [first] value } : State).step first =
        complete value s.frames := by simp [State.step]
    rw [State.scan_cons, ends]
    cases complete value s.frames <;> rfl
  | cons second rest ih =>
    have step : ({ s with lexeme := .word (first :: second :: rest) value } : State).step first =
        some { s with lexeme := .word (second :: rest) value } := by simp [State.step]
    rw [State.scan_cons, step, Option.bind_some, ih]

theorem hexDigit?_hexDigit (n : ℕ) : hexDigit? (hexDigit n) = some (n % 16) := by
  have all : ∀ k : Fin 16, hexDigit? (k.val % 16).digitChar = some k.val := by decide
  simpa [hexDigit] using all ⟨n % 16, Nat.mod_lt _ (by decide)⟩

theorem step_code (s : State) (content : List Char) (missing value : ℕ) {c : Char} {d : ℕ}
    (digit : hexDigit? c = some d) :
    ({ s with lexeme := .code content none (missing + 1) value } : State).step c =
      some { s with lexeme := .code content none missing (value * 16 + d) } := by
  simp [State.step, digit]

/-- The code of a control character is read as that character. -/
theorem scan_code (s : State) (content : List Char) {c : Char} (control : c.toNat < 32) :
    ({ s with lexeme := .escape content } : State).scan
        ['u', '0', '0', hexDigit (c.toNat / 16), hexDigit c.toNat] =
      some { s with lexeme := .text (c :: content) } := by
  have marks : ({ s with lexeme := .escape content } : State).step 'u' =
      some { s with lexeme := .code content none 3 0 } := rfl
  have zero : hexDigit? '0' = some 0 := rfl
  have value : ((0 * 16 + 0) * 16 + 0) * 16 + c.toNat / 16 % 16 = c.toNat / 16 := by omega
  have last : ({ s with lexeme := .code content none 0 (c.toNat / 16) } : State).step
      (hexDigit c.toNat) = some { s with lexeme := .text (c :: content) } := by
    have value : c.toNat / 16 * 16 + c.toNat % 16 = c.toNat := by omega
    simp only [State.step, hexDigit?_hexDigit, Option.bind_eq_bind, Option.bind_some, value,
      State.endCode]
    rw [if_neg (by omega), if_neg (by omega), Char.ofNat_toNat]
  rw [State.scan_cons, marks, Option.bind_some, State.scan_cons, step_code s _ _ _ zero,
    Option.bind_some, State.scan_cons, step_code s _ _ _ zero, Option.bind_some, State.scan_cons,
    step_code s _ _ _ (hexDigit?_hexDigit _), value, Option.bind_some, State.scan_cons, last]
  rfl

/-- An escaped character within a string is read as that character. -/
theorem scan_escape (s : State) (content : List Char) (c : Char) :
    ({ s with lexeme := .text content } : State).scan (escape c) =
      some { s with lexeme := .text (c :: content) } := by
  rw [escape]
  split_ifs with quote backslash backspace tab feed form carriage control
  · subst quote; rfl
  · subst backslash; rfl
  · subst backspace; rfl
  · subst tab; rfl
  · subst feed; rfl
  · subst form; rfl
  · subst carriage; rfl
  · have begins : ({ s with lexeme := .text content } : State).step '\\' =
        some { s with lexeme := .escape content } := rfl
    rw [State.scan_cons, begins, Option.bind_some, scan_code s content control]
  · simp [State.step, quote, backslash, control]

theorem scan_flatMap_escape (s : State) (content cs : List Char) :
    ({ s with lexeme := .text content } : State).scan (cs.flatMap escape) =
      some { s with lexeme := .text (cs.reverse ++ content) } := by
  induction cs generalizing content with
  | nil => rfl
  | cons c cs ih =>
    rw [List.flatMap_cons, State.scan_append, scan_escape, Option.bind_some, ih,
      List.reverse_cons, List.append_assoc, List.singleton_append]

/-- A written string is read where a key or a value may come. -/
theorem scan_textChars {s : State} (blank : s.lexeme = .blank)
    (wants : (s.wantsValue || s.wantsKey) = true) (text : String) :
    s.scan (textChars text) =
      completeText text.toList.reverse { s with lexeme := .text text.toList.reverse } := by
  have begins : s.step '"' = some { s with lexeme := .text [] } := by
    simp [State.step, blank, State.stepBlank, isBlank, wants]
  have ends : ({ s with lexeme := .text text.toList.reverse } : State).step '"' =
      completeText text.toList.reverse { s with lexeme := .text text.toList.reverse } := rfl
  rw [textChars, State.scan_cons, begins, Option.bind_some, State.scan_append, scan_flatMap_escape,
    Option.bind_some, List.append_nil, State.scan_cons, ends]
  cases completeText text.toList.reverse _ <;> rfl

theorem scan_value_text {s t : State} (blank : s.lexeme = .blank) (wants : s.wantsValue = true)
    {text : String} (ends : complete (.string text) s.frames = some t) :
    s.scan (textChars text) = some t := by
  rw [scan_textChars blank (by simp [wants])]
  -- where a value is wanted, a text is no key
  obtain ⟨lexeme, place, frames⟩ := s
  cases place <;> simp [State.wantsValue] at wants <;> simpa [completeText] using ends

theorem scan_key_text {s : State} (blank : s.lexeme = .blank) (wants : s.wantsKey = true)
    (text : String) : s.scan (textChars text) = some { s with place := .colon text } := by
  rw [scan_textChars blank (by simp [wants])]
  obtain ⟨lexeme, place, frames⟩ := s
  cases place <;> simp [State.wantsKey] at wants <;> simpa [completeText] using blank.symm

end Reader

/-! ### What a value is read as -/

mutual

/-- The value with each number of floating point as its text is read. -/
def reread : Json → Json
  | .float x => (Number.read? (Number.floatText x)).getD .null
  | .array items => .array (rereadItems items)
  | .object members => .object (rereadMembers members)
  | value => value

/-- Items as they are read. -/
def rereadItems : List Json → List Json
  | [] => []
  | item :: items => reread item :: rereadItems items

/-- Members as they are read. -/
def rereadMembers : List (String × Json) → List (String × Json)
  | [] => []
  | (key, value) :: members => (key, reread value) :: rereadMembers members

end

@[simp] theorem rereadItems_eq_map (items : List Json) : rereadItems items = items.map reread := by
  induction items with
  | nil => rfl
  | cons item items ih => rw [rereadItems, ih, List.map_cons]

@[simp] theorem rereadMembers_eq_map (members : List (String × Json)) :
    rereadMembers members = members.map fun m ↦ (m.1, reread m.2) := by
  induction members with
  | nil => rfl
  | cons member members ih => rw [rereadMembers, ih, List.map_cons]

/-- The value nests at most so deep, its keys increase, and each of its numbers has a text that is
read as a number. -/
inductive Readable : ℕ → Json → Prop
  | null (depth : ℕ) : Readable depth .null
  | bool (depth : ℕ) (value : Bool) : Readable depth (.bool value)
  | integer (depth : ℕ) {value : ℤ} (low : -2 ^ 63 ≤ value) (high : value < 2 ^ 64) :
      Readable depth (.integer value)
  | float (depth : ℕ) {x : Numeric.Double} (finite : x.isFinite = true) {value : Json}
      (read : Number.read? (Number.floatText x) = some value) : Readable depth (.float x)
  | string (depth : ℕ) (value : String) : Readable depth (.string value)
  | array {depth : ℕ} {items : List Json} (each : ∀ item ∈ items, Readable depth item) :
      Readable (depth + 1) (.array items)
  | object {depth : ℕ} {members : List (String × Json)} (sorted : Entries.Sorted members)
      (each : ∀ member ∈ members, Readable depth member.2) :
      Readable (depth + 1) (.object members)

/-- An object with fixed keys is readable if its values are. -/
theorem Readable.record {depth : ℕ} {members : List (String × Json)} (keys : List String)
    (listed : members.map Prod.fst = keys) (increasing : keys.Pairwise (· < ·))
    (each : ∀ member ∈ members, Readable depth member.2) : Readable (depth + 1) (.object members) :=
  .object (List.pairwise_map.1 (listed ▸ increasing)) each

/-- What nests less deep may nest deeper. -/
theorem Readable.mono {depth depth' : ℕ} {value : Json} (h : Readable depth value)
    (le : depth ≤ depth') : Readable depth' value := by
  induction h generalizing depth' with
  | null => exact .null _
  | bool => exact .bool _ _
  | integer _ low high => exact .integer _ low high
  | float _ finite read => exact .float _ finite read
  | string => exact .string _ _
  | array _ ih =>
    obtain ⟨depth', rfl⟩ := Nat.exists_eq_add_of_lt le
    exact .array fun item listed ↦ ih item listed (Nat.le_add_right _ _)
  | object sorted _ ih =>
    obtain ⟨depth', rfl⟩ := Nat.exists_eq_add_of_lt le
    exact .object sorted fun member listed ↦ ih member listed (Nat.le_add_right _ _)

/-! ### Values one behind the other -/

open Reader

/-- Wherever this value is wanted and may nest so deep, reading its characters leads to the state
behind it. -/
def ReadsBack (depth : ℕ) (value : Json) : Prop :=
  ∀ s t : State, s.lexeme = .blank → s.wantsValue = true → s.frames.length + depth ≤ maxDepth →
    complete value.reread s.frames = some t → Reads s (chars value) t

section Containers

variable {depth : ℕ} {s : State} {cs : List Char} {outer : List Frame}

/-- The items after the first are added to those that have been read. -/
theorem reads_itemsChars {items : List Json} (each : ∀ item ∈ items, ReadsBack depth item)
    (room : outer.length + 1 + depth ≤ maxDepth) {done : List Json}
    (first : Reads s cs { place := .next, frames := .array done :: outer }) :
    Reads s (cs ++ itemsChars items)
      { place := .next, frames := .array ((items.map reread).reverse ++ done) :: outer } := by
  induction items generalizing cs done with
  | nil => simpa [itemsChars] using first
  | cons item items ih =>
    obtain ⟨head, each⟩ := List.forall_mem_cons.1 each
    have read : Reads { place := .value, frames := .array done :: outer } (chars item)
        { place := .next, frames := .array (item.reread :: done) :: outer } :=
      head _ _ rfl rfl room rfl
    -- the comma ends a number that the item before may have been
    have step : State.stepBlank { place := .next, frames := .array done :: outer } ',' =
        some { place := .value, frames := .array done :: outer } := rfl
    have further := ih each (first.next rfl rfl step read)
    rw [itemsChars, List.map_cons, List.reverse_cons, List.append_assoc, List.singleton_append]
    rwa [List.append_assoc, List.cons_append] at further

/-- A member is added to those that have been read. -/
theorem reads_member (key : String) {value : Json} (back : ReadsBack depth value)
    (room : outer.length + 1 + depth ≤ maxDepth) (members : List (String × Json))
    (blank : s.lexeme = .blank) (wants : s.wantsKey = true)
    (frames : s.frames = .object members :: outer) :
    Reads s (textChars key ++ ':' :: chars value)
      { place := .next
        frames := .object (Entries.insert key value.reread members) :: outer } := by
  have read : Reads { place := .value, frames := .member members key :: outer } (chars value)
      { place := .next
        frames := .object (Entries.insert key value.reread members) :: outer } :=
    back _ _ rfl rfl room rfl
  refine (Reads.of_scan (scan_key_text blank wants key)).next blank rfl ?_ read
  obtain ⟨lexeme, place, frames'⟩ := s
  subst blank frames
  rfl

/-- The members after the first are added to those that have been read. -/
theorem reads_membersChars {members : List (String × Json)}
    (each : ∀ member ∈ members, ReadsBack depth member.2)
    (room : outer.length + 1 + depth ≤ maxDepth) {done : List (String × Json)}
    (sorted : Entries.Sorted (done ++ members.map fun m ↦ (m.1, reread m.2)))
    (first : Reads s cs { place := .next, frames := .object done :: outer }) :
    Reads s (cs ++ membersChars members)
      { place := .next
        frames := .object (done ++ members.map fun m ↦ (m.1, reread m.2)) :: outer } := by
  induction members generalizing cs done with
  | nil => simpa [membersChars] using first
  | cons member members ih =>
    obtain ⟨key, value⟩ := member
    obtain ⟨head, each⟩ := List.forall_mem_cons.1 each
    rw [List.map_cons, List.append_cons] at sorted ⊢
    have before : ∀ entry ∈ done, entry.1 < key := fun entry listed ↦
      (List.pairwise_append.1 (List.pairwise_append.1 sorted).1).2.2 entry listed _
        (List.mem_singleton_self _)
    have step : State.stepBlank { place := .next, frames := .object done :: outer } ',' =
        some { place := .key, frames := .object done :: outer } := rfl
    have read := reads_member key head room done
      (rfl : State.lexeme { place := .key, frames := .object done :: outer } = .blank) rfl rfl
    -- the keys increase, so the member comes last
    rw [Entries.insert_eq_append before] at read
    have further := ih each sorted (first.next rfl rfl step read)
    rw [membersChars]
    rwa [List.append_assoc, List.cons_append] at further

end Containers

theorem sorted_map_reread {members : List (String × Json)} (sorted : Entries.Sorted members) :
    Entries.Sorted (members.map fun m ↦ (m.1, reread m.2)) :=
  List.pairwise_map.2 sorted

/-! ### Every readable value -/

theorem readsBack_array {depth : ℕ} {items : List Json}
    (each : ∀ item ∈ items, ReadsBack depth item) : ReadsBack (depth + 1) (.array items) := by
  intro s t blank wants room ends
  have opens : s.stepBlank '[' = some { place := .firstItem, frames := .array [] :: s.frames } := by
    have : s.frames.length < maxDepth := by omega
    simp [State.stepBlank, isBlank, State.open, wants, this]
  rw [reread, rereadItems_eq_map] at ends
  cases items with
  | nil => exact Reads.cons blank opens (.cons rfl ends (.of_scan rfl))
  | cons item items =>
    obtain ⟨head, each⟩ := List.forall_mem_cons.1 each
    have first : Reads { place := .firstItem, frames := .array [] :: s.frames } (chars item)
        { place := .next, frames := .array [item.reread] :: s.frames } :=
      head _ _ rfl rfl (by simpa [Nat.add_right_comm, Nat.add_assoc] using room) rfl
    have all := reads_itemsChars each (by omega) first
    rw [chars]
    refine Reads.cons blank opens (all.next rfl rfl ?_ (.of_scan rfl))
    simpa [State.stepBlank, isBlank, State.closeArray] using ends

theorem readsBack_object {depth : ℕ} {members : List (String × Json)}
    (sorted : Entries.Sorted members) (each : ∀ member ∈ members, ReadsBack depth member.2) :
    ReadsBack (depth + 1) (.object members) := by
  intro s t blank wants room ends
  have opens : s.stepBlank '\x7b' =
      some { place := .firstKey, frames := .object [] :: s.frames } := by
    have : s.frames.length < maxDepth := by omega
    simp [State.stepBlank, isBlank, State.open, wants, this]
  rw [reread, rereadMembers_eq_map] at ends
  cases members with
  | nil => exact Reads.cons blank opens (.cons rfl ends (.of_scan rfl))
  | cons member members =>
    obtain ⟨key, value⟩ := member
    obtain ⟨head, each⟩ := List.forall_mem_cons.1 each
    have first := reads_member key head (by omega) []
      (rfl : State.lexeme { place := .firstKey, frames := .object [] :: s.frames } = .blank) rfl rfl
    have all := reads_membersChars each (by omega) (sorted_map_reread sorted) first
    rw [chars]
    refine Reads.cons blank opens (all.next rfl rfl ?_ (.of_scan rfl))
    simpa [State.stepBlank, isBlank, State.closeObject, Entries.insert] using ends

theorem Readable.readsBack {depth : ℕ} {value : Json} (h : Readable depth value) :
    ReadsBack depth value := by
  induction h with
  | array each ih => exact readsBack_array ih
  | object sorted each ih => exact readsBack_object sorted ih
  -- the words are read by their letters, and a number or a text by its own rules
  | null depth =>
    intro s t blank wants room ends
    refine Reads.cons blank ?_ (.of_scan ((scan_word s _ _ _).trans ends))
    simp [State.stepBlank, isBlank, State.begin, wants, reread]
  | bool depth value =>
    intro s t blank wants room ends
    cases value <;> refine Reads.cons blank ?_ (.of_scan ((scan_word s _ _ _).trans ends)) <;>
      simp [State.stepBlank, isBlank, State.begin, wants, reread]
  | integer depth low high =>
    intro s t blank wants room ends
    exact reads_token (Number.isToken_integerText _) (Number.read?_integerText low high) blank wants
      ends
  | float depth finite read =>
    intro s t blank wants room ends
    rw [reread, read, Option.getD_some] at ends
    exact reads_token (Number.isToken_floatText finite) read blank wants ends
  | string depth value =>
    intro s t blank wants room ends
    exact .of_scan (scan_value_text blank wants ends)

/-- A written value is read back, as far as its numbers of floating point are. -/
theorem parse?_render {value : Json} (h : Readable maxDepth value) :
    parse? (render value) = some value.reread := by
  obtain ⟨u, scan, settles⟩ := h.readsBack {} { place := .done value.reread } rfl rfl
    (Nat.zero_add _).le rfl
  rw [parse?_eq, toList_render, scan, Option.bind_some, settles.finish rfl]
  rfl

end ShowControl.Json
