import ShowControl.Address.HostPort
import ShowControl.Proofs.Text.Integer
import Mathlib.Data.List.TakeWhile

/-!
# Which texts are addresses

An address is read by its last colon: what follows it is the port, and what stands before it is the
host, without any brackets at its ends. Both are said here of the text as it is, by the pieces it is
made up of (`Spells`), and so is the fault of a text that is no address (`Refuses`).

For each of the two steps there is one lemma at the pieces, that they are found again
(`splitLast?_append_cons`, `trimBrackets_append`), and one that every text has such pieces
(`exists_last`, `encloses_trimBrackets`). So a host that has no bracket at its ends comes back from
its address as it is, plain or within brackets, whatever colons it holds
(`HostPort.address_grammar`).
-/

namespace ShowControl.HostPort

open Text (IsNatural NaturalFault naturalUpTo_eq_ok_iff naturalUpTo_eq_error_iff splits_of_head)

variable {mark : Char} {cs core back : List Char} {text : String} {address : HostPort}
  {e : HostPortError}

/-! ### The last colon -/

theorem splitLast?_of_not_mem (free : mark ∉ cs) : splitLast? mark cs = none := by
  induction cs with
  | nil => rfl
  | cons c cs ih =>
    rw [List.mem_cons, not_or] at free
    rw [splitLast?, ih free.2]
    exact if_neg (Ne.symm free.1)

/-- The last occurrence is the one behind which there is no other. -/
theorem splitLast?_append_cons (front : List Char) (free : mark ∉ back) :
    splitLast? mark (front ++ mark :: back) = some (front, back) := by
  induction front with
  | nil =>
    rw [List.nil_append, splitLast?, splitLast?_of_not_mem free]
    exact if_pos rfl
  | cons c front ih => rw [List.cons_append, splitLast?, ih]

theorem exists_last (mem : mark ∈ cs) : ∃ front back, cs = front ++ mark :: back ∧ mark ∉ back := by
  obtain ⟨back, front, reversed, free⟩ := List.eq_append_cons_of_mem (List.mem_reverse.2 mem)
  refine ⟨front.reverse, back.reverse, ?_, fun here ↦ free (List.mem_reverse.1 here)⟩
  rw [← List.reverse_reverse cs, reversed]
  simp

/-! ### Brackets -/

/-- The characters neither begin nor end with a bracket. -/
structure IsBare (cs : List Char) : Prop where
  head : ∀ c ∈ cs.head?, isBracket c = false
  last : ∀ c ∈ cs.getLast?, isBracket c = false

/-- The characters are these with brackets in front and behind, any number of either kind, and these
have no more of them at their ends. -/
def Encloses (cs core : List Char) : Prop :=
  ∃ left right, cs = left ++ core ++ right ∧ (∀ c ∈ left, isBracket c = true) ∧
    (∀ c ∈ right, isBracket c = true) ∧ IsBare core

/-- Brackets around a text that has none at its ends are dropped, and nothing else is. -/
theorem trimBrackets_append {left right : List Char} (opening : ∀ c ∈ left, isBracket c = true)
    (closing : ∀ c ∈ right, isBracket c = true) (bare : IsBare core) :
    trimBrackets (left ++ core ++ right) = core := by
  have closing' : ∀ c ∈ right.reverse, isBracket c = true :=
    fun c mem ↦ closing c (List.mem_reverse.1 mem)
  rw [trimBrackets]
  by_cases nothing : core = []
  · subst nothing
    have brackets : ∀ c ∈ left ++ [] ++ right, isBracket c = true := by
      simpa [or_imp, forall_and] using ⟨opening, closing⟩
    rw [List.dropWhile_eq_nil_iff.2 brackets]
    rfl
  · have ahead : ∀ c ∈ (core ++ right).head?, isBracket c = false := by
      rw [List.head?_append_of_ne_nil _ nothing]
      exact bare.head
    have behind : ∀ c ∈ core.reverse.head?, isBracket c = false := by
      rw [List.head?_reverse]
      exact bare.last
    rw [List.append_assoc, (splits_of_head opening ahead).2, List.reverse_append,
      (splits_of_head closing' behind).2, List.reverse_reverse]

/-- What is left behind characters of a kind does not begin with one. -/
theorem other_of_head?_dropWhile {p : Char → Bool} (cs : List Char) :
    ∀ c ∈ (cs.dropWhile p).head?, p c = false := by
  intro c first
  have other := List.head?_dropWhile_not p cs
  rwa [Option.mem_def.1 first] at other

theorem encloses_trimBrackets (cs : List Char) : Encloses cs (trimBrackets cs) := by
  let inner := cs.dropWhile isBracket
  let right := (inner.reverse.takeWhile isBracket).reverse
  have made : trimBrackets cs ++ right = inner := by
    rw [trimBrackets, ← List.reverse_append, List.takeWhile_append_dropWhile, List.reverse_reverse]
  refine ⟨cs.takeWhile isBracket, right, ?_, fun c ↦ List.mem_takeWhile_imp, fun c mem ↦ ?_, ?_, ?_⟩
  · rw [List.append_assoc, made, List.takeWhile_append_dropWhile]
  · exact List.mem_takeWhile_imp (List.mem_reverse.1 mem)
  · -- what the text begins with is what it began with before the brackets behind were dropped
    intro c first
    refine other_of_head?_dropWhile cs c ?_
    show c ∈ inner.head?
    rw [← made, List.head?_append, Option.mem_def.1 first]
    rfl
  · rw [trimBrackets, List.getLast?_reverse]
    exact other_of_head?_dropWhile _

/-- What is left of a text without the brackets at its ends is what they enclose. -/
theorem trimBrackets_eq_iff : trimBrackets cs = core ↔ Encloses cs core := by
  constructor
  · rintro rfl
    exact encloses_trimBrackets cs
  · rintro ⟨left, right, rfl, opening, closing, bare⟩
    exact trimBrackets_append opening closing bare

/-! ### Addresses -/

/-- The text is cut at its last colon. -/
structure Splits (text front back : String) : Prop where
  joined : text = front ++ ":" ++ back
  last : ':' ∉ back.toList

/-- The text is this address: behind its last colon there is the port, and in front of it the host,
perhaps within brackets. -/
def Spells (text : String) (address : HostPort) : Prop :=
  ∃ front back, Splits text front back ∧ Encloses front.toList address.host.toList ∧
    IsNatural back address.port ∧ address.port ≤ maxPort

/-- Why a text is no address: it has no colon, or what follows the last colon is no port. Either is
told with the text. -/
inductive Refuses (text : String) : HostPortError → Prop
  | noPort (free : ':' ∉ text.toList) : Refuses text (.noPort text)
  | invalidPort {front back : String} {reason : Text.IntegerError}
      (split : Splits text front back) (fault : NaturalFault maxPort back reason) :
      Refuses text (.invalidPort text reason)

theorem Splits.splitLast?_eq {front back : String} (split : Splits text front back) :
    splitLast? ':' text.toList = some (front.toList, back.toList) := by
  obtain ⟨rfl, last⟩ := split
  rw [String.toList_append, String.toList_append, List.append_assoc]
  exact splitLast?_append_cons _ last

/-- A text with a colon is cut at the last. -/
theorem exists_splits (colon : ':' ∈ text.toList) : ∃ front back, Splits text front back := by
  obtain ⟨front, back, chars, last⟩ := exists_last colon
  refine ⟨String.ofList front, String.ofList back, ?_, by rwa [String.toList_ofList]⟩
  rw [← String.toList_inj, chars]
  simp

theorem parse_of_free (free : ':' ∉ text.toList) : parse text = .error (.noPort text) := by
  rw [parse, splitLast?_of_not_mem free]

section Pieces

variable {before behind : String} (split : Splits text before behind)

include split

theorem Splits.parse_of_ok {port : ℕ} (read : Text.naturalUpTo maxPort behind = .ok port) :
    parse text = .ok ⟨String.ofList (trimBrackets before.toList), port⟩ := by
  rw [parse, split.splitLast?_eq]
  dsimp only
  rw [String.ofList_toList, read]

theorem Splits.parse_of_error {reason : Text.IntegerError}
    (refused : Text.naturalUpTo maxPort behind = .error reason) :
    parse text = .error (.invalidPort text reason) := by
  rw [parse, split.splitLast?_eq]
  dsimp only
  rw [String.ofList_toList, refused]

end Pieces

theorem Spells.parse_eq (spells : Spells text address) : parse text = .ok address := by
  obtain ⟨front, back, split, enclosed, natural, small⟩ := spells
  rw [split.parse_of_ok (naturalUpTo_eq_ok_iff.2 ⟨natural, small⟩), trimBrackets_eq_iff.2 enclosed,
    String.ofList_toList]

theorem Refuses.parse_eq (refuses : Refuses text e) : parse text = .error e := by
  cases refuses with
  | noPort free => exact parse_of_free free
  | invalidPort split fault => exact split.parse_of_error (naturalUpTo_eq_error_iff.2 fault)

/-- Every text is an address, or there is a reason why it is none. -/
theorem spells_or_refuses (text : String) :
    (∃ address, Spells text address) ∨ ∃ e, Refuses text e := by
  by_cases colon : ':' ∈ text.toList
  · obtain ⟨front, back, split⟩ := exists_splits colon
    cases read : Text.naturalUpTo maxPort back with
    | ok port =>
      obtain ⟨natural, small⟩ := naturalUpTo_eq_ok_iff.1 read
      refine .inl ⟨⟨String.ofList (trimBrackets front.toList), port⟩, front, back, split, ?_,
        natural, small⟩
      rw [String.toList_ofList]
      exact encloses_trimBrackets _
    | error reason => exact .inr ⟨_, .invalidPort split (naturalUpTo_eq_error_iff.1 read)⟩
  · exact .inr ⟨_, .noPort colon⟩

theorem parse_eq_ok_iff : parse text = .ok address ↔ Spells text address := by
  refine ⟨fun read ↦ ?_, Spells.parse_eq⟩
  rcases spells_or_refuses text with ⟨address', spells⟩ | ⟨e, refuses⟩
  · rw [spells.parse_eq] at read
    cases read
    exact spells
  · rw [refuses.parse_eq] at read
    cases read

theorem parse_eq_error_iff : parse text = .error e ↔ Refuses text e := by
  refine ⟨fun refused ↦ ?_, Refuses.parse_eq⟩
  rcases spells_or_refuses text with ⟨address, spells⟩ | ⟨e', refuses⟩
  · rw [spells.parse_eq] at refused
    cases refused
  · rw [refuses.parse_eq] at refused
    cases refused
    exact refuses

/-- A port does not hold the colon in front of it. -/
theorem colon_not_mem_of_isNatural {digits : String} {n : ℕ} (natural : IsNatural digits n) :
    ':' ∉ digits.toList := by
  obtain ⟨sign, digits, rfl, signed, -, all, -⟩ := natural
  rw [String.toList_append, List.mem_append, not_or]
  constructor
  · rcases signed with rfl | rfl <;> decide
  · exact fun colon ↦ absurd (all _ colon) (by decide)

/-- A host and a port make an address, whatever colons the host holds. -/
theorem parse_append {front host digits : String} {port : ℕ}
    (enclosed : Encloses front.toList host.toList) (natural : IsNatural digits port)
    (small : port ≤ maxPort) : parse (front ++ ":" ++ digits) = .ok ⟨host, port⟩ :=
  Spells.parse_eq
    ⟨front, digits, ⟨rfl, colon_not_mem_of_isNatural natural⟩, enclosed, natural, small⟩

theorem IsBare.encloses_self (bare : IsBare core) : Encloses core core :=
  ⟨[], [], by simp, List.forall_mem_nil _, List.forall_mem_nil _, bare⟩

theorem IsBare.encloses_bracketed (bare : IsBare core) : Encloses ('[' :: (core ++ [']'])) core :=
  ⟨['['], [']'], by simp, List.all_eq_true.1 rfl, List.all_eq_true.1 rfl, bare⟩

/-- What texts are addresses, and of what. -/
structure Grammar : Prop where
  /-- A text is read as the address that it spells, -/
  read (text : String) (address : HostPort) : parse text = .ok address ↔ Spells text address
  /-- and every other text is refused, -/
  refused (text : String) : (∃ e, parse text = .error e) ↔ ∀ address, ¬Spells text address
  /-- with the reason that it has no colon, or the first fault of its port. -/
  told (text : String) (e : HostPortError) : parse text = .error e ↔ Refuses text e
  /-- A host without brackets at its ends and a port come back from their text, -/
  plain (host : String) (port : ℕ) : IsBare host.toList → port ≤ maxPort →
    parse (host ++ ":" ++ toString port) = .ok ⟨host, port⟩
  /-- also with the host within brackets. -/
  bracketed (host : String) (port : ℕ) : IsBare host.toList → port ≤ maxPort →
    parse ("[" ++ host ++ "]:" ++ toString port) = .ok ⟨host, port⟩

/-- Addresses are read by this grammar, and no text is left open by it. -/
theorem address_grammar : Grammar where
  read _ _ := parse_eq_ok_iff
  refused text := by
    simp only [← parse_eq_ok_iff]
    cases parse text <;> simp
  told _ _ := parse_eq_error_iff
  plain _ port bare small := parse_append bare.encloses_self (Text.isNatural_toString port) small
  bracketed host port bare small := by
    have enclosed : Encloses ("[" ++ host ++ "]").toList host.toList := by
      simpa using bare.encloses_bracketed
    have read := parse_append enclosed (Text.isNatural_toString port) small
    have text : "[" ++ host ++ "]:" ++ toString port =
        "[" ++ host ++ "]" ++ ":" ++ toString port := by
      simp [String.append_assoc]
    rwa [text]

/-- Brackets of either kind, more of them in front than behind, and a port with a sign and zeros. -/
theorem address_grammar_brackets : parse "[][fe80::1]:+005050" = .ok ⟨"fe80::1", 5050⟩ := by
  refine (address_grammar.read _ _).2
    ⟨"[][fe80::1]", "+005050", ⟨rfl, by decide⟩, ?_, ?_, by decide⟩
  · have bare : IsBare "fe80::1".toList := ⟨by simp [isBracket], by simp [isBracket]⟩
    exact ⟨['[', ']', '['], [']'], rfl, List.all_eq_true.1 rfl, List.all_eq_true.1 rfl, bare⟩
  · exact ⟨"+", "005050", rfl, .inr rfl, by decide, List.all_eq_true.1 rfl, by decide⟩

-- Without brackets the last group of an Internet address is taken for the port.
example : parse "::1" = .ok ⟨":", 1⟩ := by decide

end ShowControl.HostPort
