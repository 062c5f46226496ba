import Mathlib.Data.List.Induction
import Mathlib.Data.List.Nodup
import ShowControl.Proofs.Text.Digits
import ShowControl.Toml.Reader

/-!
# Plain configuration files

The plainest configuration file has one line for each value: a key without quotes, and a string, a
whole number or a truth value in its plainest form. Such a file is read as what it says
(`Document.parse?_entries`). A line of it is an `Entry`, which is well-formed by its type; that one
line is taken as it stands, whatever comes behind it, is `Entry.statement?_chars`.
-/

namespace ShowControl.Toml

open Text

/-! ### Bare characters -/

theorem ne_of_isBare {c d : Char} (bare : isBare c = true) (other : isBare d = false) : c ≠ d := by
  rintro rfl
  exact Bool.false_ne_true (other.symm.trans bare)

theorem cons_ne_of_isBare {c d : Char} (bare : isBare c = true) (other : isBare d = false)
    {cs ds : Chars} : c :: cs ≠ d :: ds := fun same ↦
  ne_of_isBare bare other (List.cons.inj same).1

theorem skipBlanks_of_isBare {c : Char} (bare : isBare c = true) (rest : Chars) :
    skipBlanks (c :: rest) = c :: rest := by
  refine List.dropWhile_cons_of_neg ?_
  rw [isBlank, Bool.or_eq_true, decide_eq_true_iff, decide_eq_true_iff]
  exact not_or.2 ⟨ne_of_isBare bare rfl, ne_of_isBare bare rfl⟩

theorem newline?_of_isBare {c : Char} (bare : isBare c = true) (rest : Chars) :
    newline? (c :: rest) = none := by
  unfold newline?
  split
  · next same => exact absurd same (cons_ne_of_isBare bare rfl)
  · next same => exact absurd same (cons_ne_of_isBare bare rfl)
  · rfl

theorem isBare_of_isDigit {c : Char} (digit : c.isDigit = true) : isBare c = true := by
  simp [isBare, Char.isAlphanum, digit]

/-! ### Values in their plainest form -/

/-- The text of a value: a string between quotes that needs no escapes, the digits of a number, or a
truth value. -/
inductive Written : Value → Chars → Prop where
  | string {content : Chars} (nonempty : content ≠ []) (plain : ∀ c ∈ content, isQuoted c = true) :
    Written (.string (String.ofList content)) ('"' :: (content ++ ['"']))
  | integer {n : ℕ} (small : n ≤ 9223372036854775807) : Written (.integer n) (Nat.toDigits 10 n)
  | yes : Written (.boolean true) ['t', 'r', 'u', 'e']
  | no : Written (.boolean false) ['f', 'a', 'l', 's', 'e']

theorem quoted_append {content : Chars} (plain : ∀ c ∈ content, isQuoted c = true) {fuel : ℕ}
    (enough : content.length < fuel) (taken rest : Chars) :
    quoted taken fuel (content ++ '"' :: rest) =
      some (String.ofList (taken.reverse ++ content), rest) := by
  induction content generalizing fuel taken with
  | nil =>
    obtain ⟨fuel, rfl⟩ : ∃ less, fuel = less + 1 := ⟨fuel - 1, by omega⟩
    rw [List.append_nil]
    rfl
  | cons c content ih =>
    obtain ⟨fuel, rfl⟩ : ∃ less, fuel = less + 1 := ⟨fuel - 1, by omega⟩
    obtain ⟨first, others⟩ := List.forall_mem_cons.1 plain
    have marks : c ≠ '"' ∧ c ≠ '\\' := by
      simp only [isQuoted, Bool.and_eq_true, decide_eq_true_eq] at first
      exact ⟨first.1.2, first.2⟩
    rw [List.cons_append, quoted, if_neg marks.1, if_neg marks.2, if_pos first,
      ih others (by simpa using enough)]
    simp

theorem mark?_digits {ds : Chars} (digits : ∀ c ∈ ds, c.isDigit = true) {mark : Char}
    (other : mark.isDigit = false) (within : mark ≠ '\n') (rest : Chars) :
    mark? mark (ds ++ '\n' :: rest) = none := by
  rcases ds with _ | ⟨d, ds⟩
  · exact if_neg (Ne.symm within)
  · refine if_neg ?_
    rintro rfl
    exact Bool.false_ne_true (other.symm.trans (digits d List.mem_cons_self))

/-- Digits up to the end of a line have no mark between them. -/
theorem mark?_fixed? {ds : Chars} (digits : ∀ c ∈ ds, c.isDigit = true) {mark : Char}
    (other : mark.isDigit = false) (within : mark ≠ '\n') (count : ℕ) (rest : Chars) :
    ((fixed? count (ds ++ '\n' :: rest)).bind fun (_, text) ↦ mark? mark text) = none := by
  rw [fixed?]
  dsimp only
  split
  · next full =>
    rcases Nat.lt_or_ge ds.length count with long | short
    · -- the end of the line would be among the digits
      have inside : '\n' ∈ (ds ++ '\n' :: rest).take count := by
        obtain ⟨more, rfl⟩ : ∃ more, count = ds.length + (more + 1) :=
          ⟨count - ds.length - 1, by omega⟩
        rw [List.take_length_add_append, List.take_succ_cons, List.mem_append]
        exact .inr List.mem_cons_self
      exact absurd (List.all_eq_true.1 full.2 _ inside) (by decide)
    · rw [Option.bind_some, List.drop_append_of_le_length short]
      exact mark?_digits (fun c here ↦ digits c (List.mem_of_mem_drop here)) other within rest
  · rfl

/-- No date and no time stands here. -/
theorem looksLikeMoment_digits {ds : Chars} (digits : ∀ c ∈ ds, c.isDigit = true) (rest : Chars) :
    looksLikeMoment (ds ++ '\n' :: rest) = false := by
  rw [looksLikeMoment, looksLikeTime, mark?_fixed? digits rfl (by decide),
    mark?_fixed? digits rfl (by decide)]
  rfl

theorem digitsFrom_append {ds : Chars} (digits : ∀ c ∈ ds, c.isDigit = true)
    (taken rest : Chars) :
    digitsFrom Char.isDigit taken (ds ++ '\n' :: rest) =
      some (taken.reverse ++ ds, '\n' :: rest) := by
  induction ds generalizing taken with
  | nil => rcases rest with _ | ⟨d, rest⟩ <;> simp [digitsFrom]
  | cons c ds ih =>
    obtain ⟨first, others⟩ := List.forall_mem_cons.1 digits
    have later := ih others (c :: taken)
    obtain ⟨d, text, next⟩ : ∃ d text, ds ++ '\n' :: rest = d :: text :=
      List.exists_cons_of_ne_nil (by simp)
    rw [next] at later
    rw [List.cons_append, next, digitsFrom, if_pos first, later]
    simp

theorem signed64?_toDigits {n : ℕ} (small : n ≤ 9223372036854775807) :
    signed64? false 10 ((Nat.toDigits 10 n).map digitWorth) = some (.integer n) := by
  have worth : ((Nat.toDigits 10 n).map digitWorth).foldl (fun worth d ↦ worth * 10 + d) 0 = n := by
    rw [List.foldl_map]
    simp only [digitWorth, Nat.mul_comm _ 10]
    rw [← Nat.ofDigitChars_eq_foldl, Nat.ofDigitChars_ten_toDigits]
  rw [signed64?, worthUpTo_eq (by decide), worth, Nat.min_eq_right (by omega)]
  rw [if_neg (by simp), if_pos small]

theorem toDigits_eq_cons (n : ℕ) : ∃ c ds, Nat.toDigits 10 n = c :: ds ∧ c.isDigit = true := by
  obtain ⟨c, ds, eq⟩ := List.exists_cons_of_ne_nil (Nat.toDigits_ne_nil (n := n) (b := 10))
  exact ⟨c, ds, eq, isDigit_of_mem_toDigits (n := n) (eq ▸ List.mem_cons_self)⟩

/-- Only the digits of zero begin with a zero. -/
theorem eq_zero_of_lead {n : ℕ} {rest text : Chars}
    (h : Nat.toDigits 10 n ++ rest = '0' :: text) : n = 0 := by
  by_contra nonzero
  have lead := head?_toDigits_ne (Nat.pos_of_ne_zero nonzero)
  obtain ⟨first, ds, eq, -⟩ := toDigits_eq_cons n
  rw [eq] at h lead
  exact lead (congrArg some (List.cons.inj h).1)

/-- A zero that leads the digits of a number is all of them. -/
theorem eq_lineFeed_of_zero {n : ℕ} {rest text : Chars} {c : Char}
    (h : Nat.toDigits 10 n ++ '\n' :: rest = '0' :: c :: text) : c = '\n' := by
  obtain rfl := eq_zero_of_lead h
  exact (List.cons.inj (List.cons.inj h).2).1.symm

theorem whole?_toDigits (n : ℕ) (rest : Chars) :
    whole? (Nat.toDigits 10 n ++ '\n' :: rest) = some (Nat.toDigits 10 n, '\n' :: rest) := by
  obtain ⟨c, ds, eq, digit⟩ := toDigits_eq_cons n
  have digits : ∀ c ∈ Nat.toDigits 10 n, c.isDigit = true := fun c ↦ isDigit_of_mem_toDigits
  unfold whole?
  split
  · next text same =>
    obtain rfl := eq_zero_of_lead same
    obtain rfl := (List.cons.inj same).2
    rfl
  · have taken := digitsFrom_append digits [] rest
    rw [eq] at taken ⊢
    exact (if_pos digit).trans taken

theorem takeSign_of_isDigit {c : Char} (digit : c.isDigit = true) (text : Chars) :
    takeSign (c :: text) = (false, c :: text) := by
  unfold takeSign
  split
  · next same =>
    obtain rfl := (List.cons.inj same).1
    cases digit
  · next same =>
    obtain rfl := (List.cons.inj same).1
    cases digit
  · rfl

/-- A word that does not begin with a digit does not stand where there is one. -/
theorem word?_of_isDigit {c : Char} (digit : c.isDigit = true) (text : Chars) {word : String}
    (other : (word.toList.head?.any fun first ↦ !first.isDigit) = true) :
    word? word (c :: text) = none := by
  rw [word?, if_neg]
  generalize word.toList = letters at other ⊢
  rcases letters with _ | ⟨first, letters⟩
  · cases other
  · rw [List.isPrefixOf_cons_cons, Bool.and_eq_true, beq_iff_eq]
    rintro ⟨rfl, -⟩
    simp [digit] at other

theorem number?_toDigits {n : ℕ} (small : n ≤ 9223372036854775807) (rest : Chars) :
    number? (Nat.toDigits 10 n ++ '\n' :: rest) = some (.integer n, '\n' :: rest) := by
  have taken := whole?_toDigits n rest
  have no_mark (c : Char) (text : Chars) (other : c ≠ '\n') :
      Nat.toDigits 10 n ++ '\n' :: rest ≠ '0' :: c :: text := fun same ↦
    other (eq_lineFeed_of_zero same)
  unfold number?
  split
  · next text same => exact absurd same (no_mark 'x' text (by decide))
  · next text same => exact absurd same (no_mark 'o' text (by decide))
  · next text same => exact absurd same (no_mark 'b' text (by decide))
  · obtain ⟨c, ds, eq, digit⟩ := toDigits_eq_cons n
    have worth := signed64?_toDigits small
    rw [eq] at taken worth ⊢
    rw [List.cons_append] at taken ⊢
    rw [takeSign_of_isDigit digit]
    dsimp only
    rw [word?_of_isDigit digit _ (by decide), word?_of_isDigit digit _ (by decide), taken]
    show (signed64? false 10 ((c :: ds).map digitWorth)).bind _ = _
    rw [worth]
    rfl

theorem scalar?_of_isDigit {c : Char} (digit : c.isDigit = true) (fuel : ℕ) (text : Chars) :
    scalar? fuel (c :: text) =
      if looksLikeMoment (c :: text) then (moment? (c :: text)).map fun rest ↦ (.time, rest)
      else number? (c :: text) := by
  unfold scalar?
  split
  case h_7 => rfl
  all_goals
    next same =>
      obtain rfl := (List.cons.inj same).1
      cases digit

/-- Quotes around a content that has none. -/
theorem scalar?_quoted {c : Char} {content : Chars} (plain : ∀ d ∈ c :: content, isQuoted d = true)
    {fuel : ℕ} (enough : content.length + 1 < fuel) (rest : Chars) :
    scalar? fuel ('"' :: c :: (content ++ '"' :: rest)) =
      some (.string (String.ofList (c :: content)), rest) := by
  have inner : c ≠ '"' := by
    rintro rfl
    exact absurd (plain '"' List.mem_cons_self) (by decide)
  have taken : quoted [] fuel (c :: content ++ '"' :: rest) =
      some (String.ofList (c :: content), rest) := quoted_append plain enough [] rest
  unfold scalar?
  split
  case h_1 same => exact absurd (List.cons.inj (List.cons.inj same).2).1 inner
  case h_3 same =>
    obtain rfl := (List.cons.inj same).2
    show (quoted [] fuel (c :: content ++ '"' :: rest)).map _ = _
    rw [taken]
    rfl
  case h_7 quote _ _ _ => exact absurd rfl (quote _)
  all_goals
    next same => cases (List.cons.inj same).1

theorem value?_of_head {c : Char} (bracket : c ≠ '[') (brace : c ≠ '\x7b') (depth fuel : ℕ)
    (text : Chars) : value? depth (fuel + 1) (c :: text) = scalar? fuel (c :: text) := by
  rw [value?]
  · rintro _ ⟨⟩
    exact bracket rfl
  · rintro _ ⟨⟩
    exact brace rfl

/-- A value in its plainest form is taken up to the end of its line. -/
theorem Written.value?_append {value : Value} {text : Chars} (h : Written value text) {fuel : ℕ}
    (enough : text.length < fuel) (depth : ℕ) (rest : Chars) :
    value? depth (fuel + 1) (text ++ '\n' :: rest) = some (value, '\n' :: rest) := by
  cases h with
  | @string content nonempty plain =>
    obtain ⟨c, content, rfl⟩ := List.exists_cons_of_ne_nil nonempty
    simp only [List.cons_append, List.append_assoc, List.nil_append]
    rw [value?_of_head (by decide) (by decide)]
    refine scalar?_quoted plain ?_ _
    simp only [List.length_cons, List.length_append, List.length_nil] at enough
    omega
  | @integer n small =>
    have digits : ∀ c ∈ Nat.toDigits 10 n, c.isDigit = true := fun c ↦ isDigit_of_mem_toDigits
    have moment := looksLikeMoment_digits digits rest
    have read := number?_toDigits small rest
    obtain ⟨c, ds, eq, digit⟩ := toDigits_eq_cons n
    rw [eq] at moment read ⊢
    have bare := isBare_of_isDigit digit
    rw [List.cons_append] at moment read ⊢
    rw [value?_of_head (ne_of_isBare bare rfl) (ne_of_isBare bare rfl), scalar?_of_isDigit digit,
      if_neg (by simp [moment]), read]
  | yes => rfl
  | no => rfl

theorem Written.skipBlanks_append {value : Value} {text : Chars} (h : Written value text)
    (rest : Chars) : skipBlanks (text ++ rest) = text ++ rest := by
  cases h with
  | @integer n small =>
    obtain ⟨c, ds, eq, digit⟩ := toDigits_eq_cons n
    rw [eq]
    exact skipBlanks_of_isBare (isBare_of_isDigit digit) _
  | _ => rfl

/-! ### Lines -/

/-- A line of a plain file: a bare key, and a value with its text. -/
structure Entry where
  key : String
  value : Value
  text : Chars
  nonempty : key.toList ≠ []
  bare : ∀ c ∈ key.toList, isBare c = true
  written : Written value text

namespace Entry

/-- The characters of the line. -/
def chars (e : Entry) : Chars := e.key.toList ++ ' ' :: '=' :: ' ' :: (e.text ++ ['\n'])

/-- What the line says. -/
def statement (e : Entry) : Statement := .pair [] e.key e.value

theorem chars_append (e : Entry) (rest : Chars) :
    e.chars ++ rest = e.key.toList ++ ' ' :: '=' :: ' ' :: (e.text ++ '\n' :: rest) := by
  simp [chars]

theorem ofList_chars (e : Entry) :
    String.ofList e.chars = e.key ++ (" = " ++ (String.ofList e.text ++ "\n")) := by
  have marks : e.chars = e.key.toList ++ ([' ', '=', ' '] ++ (e.text ++ ['\n'])) := rfl
  rw [marks, String.ofList_append, String.ofList_append, String.ofList_append,
    String.ofList_toList]

theorem exists_toList_key (e : Entry) : ∃ c cs, e.key.toList = c :: cs ∧ isBare c = true := by
  obtain ⟨c, cs, eq⟩ := List.exists_cons_of_ne_nil e.nonempty
  exact ⟨c, cs, eq, e.bare c (eq ▸ List.mem_cons_self)⟩

theorem key_append_ne (e : Entry) {c : Char} (other : isBare c = false) (rest text : Chars) :
    e.key.toList ++ rest ≠ c :: text := by
  obtain ⟨first, cs, eq, bare⟩ := e.exists_toList_key
  rw [eq, List.cons_append]
  exact cons_ne_of_isBare bare other

theorem part?_key (e : Entry) (fuel : ℕ) (rest : Chars) :
    part? fuel (e.key.toList ++ ' ' :: rest) = some (e.key, ' ' :: rest) := by
  have space : ∀ c ∈ (' ' :: rest).head?, isBare c = false := by
    rintro _ ⟨⟩
    rfl
  obtain ⟨taken, left⟩ := splits_of_head e.bare space
  unfold part?
  split
  · next same => exact absurd same (e.key_append_ne rfl _ _)
  · next same => exact absurd same (e.key_append_ne rfl _ _)
  · rw [taken, left, if_neg (by simpa using e.nonempty), String.ofList_toList]

theorem key?_chars (e : Entry) (fuel : ℕ) (rest : Chars) :
    key? (fuel + 1) (e.key.toList ++ ' ' :: '=' :: rest) = some (([], e.key), '=' :: rest) := by
  obtain ⟨c, cs, eq, bare⟩ := e.exists_toList_key
  have part := e.part?_key fuel ('=' :: rest)
  have untouched : skipBlanks (e.key.toList ++ ' ' :: '=' :: rest) =
      e.key.toList ++ ' ' :: '=' :: rest := by
    rw [eq]
    exact skipBlanks_of_isBare bare _
  have all : parts (fuel + 1) (e.key.toList ++ ' ' :: '=' :: rest) =
      some ([e.key], '=' :: rest) := by
    rw [parts, untouched, part]
    rfl
  rw [key?, all]
  rfl

theorem statement?_chars (e : Entry) {fuel : ℕ} (enough : e.text.length < fuel) (rest : Chars) :
    statement? (fuel + 1) (e.chars ++ rest) = some (e.statement, rest) := by
  have key := e.key?_chars fuel (' ' :: (e.text ++ '\n' :: rest))
  have value := e.written.value?_append enough 0 rest
  rw [chars_append]
  unfold statement?
  split
  · next same => exact absurd same (e.key_append_ne rfl _ _)
  · next same => exact absurd same (e.key_append_ne rfl _ _)
  · rw [key]
    show (value? 0 (fuel + 1) (skipBlanks (e.text ++ '\n' :: rest))).bind _ = _
    rw [e.written.skipBlanks_append, value]
    rfl

/-- One line is taken. -/
theorem statements_chars (e : Entry) {fuel : ℕ} (enough : e.text.length < fuel)
    (taken : List Statement) (rest : Chars) :
    statements taken (fuel + 2) (e.chars ++ rest) =
      statements (e.statement :: taken) (fuel + 1) rest := by
  have read := e.statement?_chars enough rest
  obtain ⟨c, cs, eq, bare⟩ := e.exists_toList_key
  rw [chars_append, eq, List.cons_append] at read ⊢
  rw [statements, skipBlanks_of_isBare bare]
  split
  · next same => cases same
  · next same => exact absurd same (cons_ne_of_isBare bare rfl)
  · next same =>
    obtain ⟨rfl, rfl⟩ := List.cons.inj same
    rw [newline?_of_isBare bare]
    dsimp only
    rw [read]

/-- All lines are taken. -/
theorem statements_flatMap_chars (entries : List Entry) {fuel : ℕ}
    (enough : (entries.flatMap chars).length < fuel) (taken : List Statement) :
    statements taken fuel (entries.flatMap chars) =
      some (taken.reverse ++ entries.map statement) := by
  induction entries generalizing fuel taken with
  | nil =>
    obtain ⟨fuel, rfl⟩ : ∃ less, fuel = less + 1 := ⟨fuel - 1, by omega⟩
    simp [statements, skipBlanks]
  | cons e entries ih =>
    -- a line is longer than the text of its value, so there is enough for both
    have size : e.chars.length = e.key.toList.length + e.text.length + 4 := by
      simp [chars]
      omega
    rw [List.flatMap_cons, List.length_append, size] at enough
    obtain ⟨fuel, rfl⟩ : ∃ less, fuel = less + 2 := ⟨fuel - 2, by omega⟩
    rw [List.flatMap_cons, e.statements_chars (by omega), ih (by omega)]
    simp

end Entry

/-! ### Documents -/

theorem Item.addPair_nil {key : String} {items : List (String × Item)}
    (unused : Entries.find? key items = none) (value : Value) :
    Item.addPair [] key value false items = some (Entries.insert key (.value value) items) := by
  rw [Item.addPair, Item.modifyAt, if_neg (by decide), unused]

/-- A document that has these values and nothing else. -/
structure Document.Gives (d : Document) (entries : List Entry) : Prop where
  top : d.header = []
  found : ∀ e ∈ entries, d.find? e.key = some (.value e.value)
  absent : ∀ key ∉ entries.map Entry.key, d.find? key = none

theorem Document.Gives.add {d : Document} {entries : List Entry} (h : d.Gives entries) {e : Entry}
    (fresh : e.key ∉ entries.map Entry.key) :
    ∃ d', d.add e.statement = some d' ∧ d'.Gives (entries ++ [e]) := by
  obtain ⟨header, items⟩ := d
  obtain rfl : header = [] := h.top
  have unused : Entries.find? e.key items = none := h.absent e.key fresh
  refine ⟨{ items := Entries.insert e.key (.value e.value) items }, ?_, rfl, ?_, ?_⟩
  · show (Item.addPair [] e.key e.value false items).map _ = _
    rw [Item.addPair_nil unused]
    rfl
  · refine List.forall_mem_append.2 ⟨fun e' here ↦ ?_, List.forall_mem_singleton.2 ?_⟩
    · rw [Document.find?, Entries.find?_insert, if_neg]
      · exact h.found e' here
      · rintro same
        exact fresh (same ▸ List.mem_map_of_mem here)
    · rw [Document.find?, Entries.find?_insert, if_pos rfl]
  · intro key other
    rw [List.map_append, List.mem_append, not_or, List.map_singleton, List.mem_singleton] at other
    rw [Document.find?, Entries.find?_insert, if_neg (Ne.symm other.2)]
    exact h.absent key other.1

/-- Distinct keys make a document that gives each its value. -/
theorem Document.exists_ofStatements? {entries : List Entry}
    (distinct : (entries.map Entry.key).Nodup) :
    ∃ d, Document.ofStatements? (entries.map Entry.statement) = some d ∧ d.Gives entries := by
  induction entries using List.reverseRecOn with
  | nil => exact ⟨{}, rfl, rfl, List.forall_mem_nil _, fun _ _ ↦ rfl⟩
  | append_singleton entries e ih =>
    rw [List.map_append, List.nodup_append] at distinct
    obtain ⟨d, before, gives⟩ := ih distinct.1
    have fresh : e.key ∉ entries.map Entry.key := fun here ↦
      distinct.2.2 _ here e.key List.mem_cons_self rfl
    obtain ⟨d', last, gives'⟩ := gives.add fresh
    refine ⟨d', ?_, gives'⟩
    rw [ofStatements?] at before ⊢
    rw [List.map_append, List.foldlM_append, before]
    show d.add e.statement >>= pure = _
    rw [last]
    rfl

theorem skipMark_entries (entries : List Entry) :
    skipMark (entries.flatMap Entry.chars) = entries.flatMap Entry.chars := by
  rcases entries with _ | ⟨e, entries⟩
  · rfl
  · rw [List.flatMap_cons, e.chars_append]
    unfold skipMark
    split
    · next same => exact absurd same (e.key_append_ne rfl _ _)
    · rfl

/-- A plain file is read as what it says. -/
theorem Document.parse?_entries {entries : List Entry} (distinct : (entries.map Entry.key).Nodup) :
    ∃ d, Document.parse? (String.ofList (entries.flatMap Entry.chars)) = some d ∧
      d.Gives entries := by
  obtain ⟨d, built, gives⟩ := Document.exists_ofStatements? distinct
  have enough : (entries.flatMap Entry.chars).length < fuelFor (entries.flatMap Entry.chars) := by
    rw [fuelFor]
    omega
  refine ⟨d, ?_, gives⟩
  rw [parse?, String.toList_ofList, skipMark_entries, Entry.statements_flatMap_chars entries enough]
  exact built

end ShowControl.Toml
