import ShowControl.Proofs.Text.Digits
import ShowControl.Text.Integer

/-!
# What is read as a number

A number up to a bound is read digit by digit, and the reading ends at the first fault. Here both
outcomes are said of the text as it is. `IsNatural text n` is that the text consists of decimal
digits that are worth `n`, with or without a plus sign in front of them. `NaturalFault bound text`
is the first fault of the text, if it has one.

These are what the reader gives (`naturalUpTo_eq_ok_iff`, `naturalUpTo_eq_error_iff`). All that is
needed of it is that digits within the bound are passed over for their worth
(`digitsUpTo_append`): a text has only such digits, or it has its first fault behind some of them
(`within_or_fault`).
-/

namespace ShowControl.Text

variable {bound value n : ℕ} {cs : List Char} {text : String} {e : IntegerError}

/-- The text is this number in decimal, with or without a plus sign in front of the digits. -/
def IsNatural (text : String) (n : ℕ) : Prop :=
  ∃ sign digits : String, text = sign ++ digits ∧ (sign = "" ∨ sign = "+") ∧ digits ≠ "" ∧
    (∀ c ∈ digits.toList, c.isDigit = true) ∧ Nat.ofDigitChars 10 digits.toList 0 = n

/-- The first fault of what should be digits, behind others that are worth `value`. Before it there
are digits, and with them the number is within the bound. -/
inductive DigitFault (bound value : ℕ) : List Char → IntegerError → Prop
  /-- A character is no digit. -/
  | invalidDigit (digits : List Char) (c : Char) (rest : List Char)
      (all : ∀ d ∈ digits, d.isDigit = true) (within : Nat.ofDigitChars 10 digits value ≤ bound)
      (other : c.isDigit = false) : DigitFault bound value (digits ++ c :: rest) .invalidDigit
  /-- With the next digit the number is beyond the bound, whatever follows. -/
  | tooLarge (digits : List Char) (c : Char) (rest : List Char)
      (all : ∀ d ∈ digits, d.isDigit = true) (within : Nat.ofDigitChars 10 digits value ≤ bound)
      (digit : c.isDigit = true) (beyond : bound < Nat.ofDigitChars 10 (digits ++ [c]) value) :
      DigitFault bound value (digits ++ c :: rest) .tooLarge

/-- The characters without a plus sign in front of them. One that stands alone stays, where it is no
digit. -/
def unsigned : List Char → List Char
  | '+' :: c :: cs => c :: cs
  | cs => cs

/-- The first fault of a text that should be a number up to a bound. -/
inductive NaturalFault (bound : ℕ) (text : String) : IntegerError → Prop
  | empty (nothing : text = "") : NaturalFault bound text .empty
  | digits {e : IntegerError} (nonempty : text ≠ "")
      (fault : DigitFault bound 0 (unsigned text.toList) e) : NaturalFault bound text e

/-! ### Digits -/

/-- Digits are passed over while the number is within the bound. -/
theorem digitsUpTo_append {digits : List Char} (all : ∀ c ∈ digits, c.isDigit = true)
    (within : Nat.ofDigitChars 10 digits value ≤ bound) (rest : List Char) :
    digitsUpTo bound value (digits ++ rest) =
      digitsUpTo bound (Nat.ofDigitChars 10 digits value) rest := by
  induction digits generalizing value with
  | nil => rw [Nat.ofDigitChars_nil, List.nil_append]
  | cons c digits ih =>
    obtain ⟨digit, others⟩ := List.forall_mem_cons.1 all
    rw [Nat.ofDigitChars_cons, Nat.mul_comm] at within ⊢
    have small : value * 10 + digitWorth c ≤ bound :=
      Nat.le_trans (le_ofDigitChars digits _) within
    rw [List.cons_append, digitsUpTo, if_pos digit]
    dsimp only
    rw [if_neg (Nat.not_lt.2 small)]
    exact ih others within

/-- A digit in front of a fault is one more before it. -/
theorem DigitFault.cons {c : Char} (digit : c.isDigit = true)
    (fault : DigitFault bound (10 * value + (c.toNat - '0'.toNat)) cs e) :
    DigitFault bound value (c :: cs) e := by
  cases fault with
  | invalidDigit digits d rest all within other =>
    rw [← Nat.ofDigitChars_cons] at within
    exact .invalidDigit (c :: digits) d rest (List.forall_mem_cons.2 ⟨digit, all⟩) within other
  | tooLarge digits d rest all within last beyond =>
    rw [← Nat.ofDigitChars_cons] at within beyond
    exact .tooLarge (c :: digits) d rest (List.forall_mem_cons.2 ⟨digit, all⟩) within last beyond

/-- A text consists of digits within the bound, or has a first fault. -/
theorem within_or_fault (small : value ≤ bound) (cs : List Char) :
    ((∀ c ∈ cs, c.isDigit = true) ∧ Nat.ofDigitChars 10 cs value ≤ bound) ∨
      ∃ e, DigitFault bound value cs e := by
  induction cs generalizing value with
  | nil => exact .inl ⟨List.forall_mem_nil _, by rwa [Nat.ofDigitChars_nil]⟩
  | cons c cs ih =>
    rcases Bool.eq_false_or_eq_true c.isDigit with digit | other
    · by_cases within : 10 * value + (c.toNat - '0'.toNat) ≤ bound
      · rcases ih within with ⟨all, worth⟩ | ⟨e, fault⟩
        · rw [← Nat.ofDigitChars_cons] at worth
          exact .inl ⟨List.forall_mem_cons.2 ⟨digit, all⟩, worth⟩
        · exact .inr ⟨e, fault.cons digit⟩
      · have beyond : bound < Nat.ofDigitChars 10 ([] ++ [c]) value := Nat.not_le.1 within
        exact .inr ⟨_, .tooLarge [] c cs (List.forall_mem_nil _) small digit beyond⟩
    · exact .inr ⟨_, .invalidDigit [] c cs (List.forall_mem_nil _) small other⟩

/-- Where the first fault stands, the reading ends with it. -/
theorem DigitFault.digitsUpTo_eq (fault : DigitFault bound value cs e) :
    digitsUpTo bound value cs = .error e := by
  cases fault with
  | invalidDigit digits c rest all within other =>
    rw [digitsUpTo_append all within, digitsUpTo, if_neg (by simp [other])]
  | tooLarge digits c rest all within digit beyond =>
    have large : bound < Nat.ofDigitChars 10 digits value * 10 + digitWorth c := by
      rwa [Nat.ofDigitChars_append, Nat.ofDigitChars_cons, Nat.ofDigitChars_nil, Nat.mul_comm]
        at beyond
    rw [digitsUpTo_append all within, digitsUpTo, if_pos digit]
    exact if_pos large

theorem digitsUpTo_of_within (all : ∀ c ∈ cs, c.isDigit = true)
    (within : Nat.ofDigitChars 10 cs value ≤ bound) :
    digitsUpTo bound value cs = .ok (Nat.ofDigitChars 10 cs value) := by
  have passed := digitsUpTo_append all within []
  rwa [List.append_nil, digitsUpTo] at passed

theorem digitsUpTo_eq_ok_iff (small : value ≤ bound) :
    digitsUpTo bound value cs = .ok n ↔
      (∀ c ∈ cs, c.isDigit = true) ∧ Nat.ofDigitChars 10 cs value = n ∧ n ≤ bound := by
  constructor
  · intro read
    rcases within_or_fault small cs with ⟨all, within⟩ | ⟨e, fault⟩
    · rw [digitsUpTo_of_within all within] at read
      cases read
      exact ⟨all, rfl, within⟩
    · rw [fault.digitsUpTo_eq] at read
      cases read
  · rintro ⟨all, rfl, within⟩
    exact digitsUpTo_of_within all within

theorem digitsUpTo_eq_error_iff (small : value ≤ bound) :
    digitsUpTo bound value cs = .error e ↔ DigitFault bound value cs e := by
  refine ⟨fun refused ↦ ?_, DigitFault.digitsUpTo_eq⟩
  rcases within_or_fault small cs with ⟨all, within⟩ | ⟨e', fault⟩
  · rw [digitsUpTo_of_within all within] at refused
    cases refused
  · rw [fault.digitsUpTo_eq] at refused
    cases refused
    exact fault

/-! ### Numbers -/

theorem naturalUpTo_eq (nonempty : text ≠ "") :
    naturalUpTo bound text = digitsUpTo bound 0 (unsigned text.toList) := by
  have some_chars : text.toList ≠ [] := by simpa using nonempty
  rw [naturalUpTo]
  split
  · next nothing => exact absurd nothing some_chars
  · next alone => rw [alone]; rfl
  · next rest not_alone signed =>
    rw [signed]
    cases rest with
    | nil => exact absurd rfl not_alone
    | cons c rest => rfl
  · next unmarked =>
    rw [unsigned]
    exact fun c cs signed ↦ unmarked _ signed

/-- What stands behind a sign is unsigned. -/
theorem unsigned_append {sign digits : List Char} (signed : sign = [] ∨ sign = ['+'])
    (all : ∀ c ∈ digits, c.isDigit = true) (nonempty : digits ≠ []) :
    unsigned (sign ++ digits) = digits := by
  obtain ⟨c, rest, rfl⟩ := List.exists_cons_of_ne_nil nonempty
  rcases signed with rfl | rfl
  · have digit : c.isDigit = true := (List.forall_mem_cons.1 all).1
    rw [List.nil_append, unsigned]
    rintro d ds ⟨rfl, -⟩
    cases digit
  · rfl

/-- A text has at most a sign in front of what is unsigned. -/
theorem exists_sign (cs : List Char) :
    ∃ sign, (sign = [] ∨ sign = ['+']) ∧ cs = sign ++ unsigned cs := by
  unfold unsigned
  split
  · exact ⟨['+'], .inr rfl, rfl⟩
  · exact ⟨[], .inl rfl, rfl⟩

theorem unsigned_eq_nil_iff : unsigned cs = [] ↔ cs = [] := by
  unfold unsigned
  split <;> simp

/-- A text is a number if what stands behind its sign consists of digits. -/
theorem isNatural_iff : IsNatural text n ↔ text ≠ "" ∧
    (∀ c ∈ unsigned text.toList, c.isDigit = true) ∧
      Nat.ofDigitChars 10 (unsigned text.toList) 0 = n := by
  constructor
  · rintro ⟨sign, digits, rfl, signed, nonempty, all, worth⟩
    have chars : unsigned (sign ++ digits).toList = digits.toList := by
      rw [String.toList_append]
      refine unsigned_append ?_ all (by simpa using nonempty)
      rcases signed with rfl | rfl
      · exact .inl rfl
      · exact .inr rfl
    rw [chars]
    exact ⟨by simp [nonempty], all, worth⟩
  · rintro ⟨nonempty, all, worth⟩
    obtain ⟨sign, signed, chars⟩ := exists_sign text.toList
    refine ⟨String.ofList sign, String.ofList (unsigned text.toList), ?_, ?_, ?_, ?_, ?_⟩
    · rw [← String.ofList_append, ← chars, String.ofList_toList]
    · rcases signed with rfl | rfl
      · exact .inl rfl
      · exact .inr rfl
    · simpa [unsigned_eq_nil_iff] using nonempty
    · rwa [String.toList_ofList]
    · rwa [String.toList_ofList]

/-- A number is written as itself. -/
theorem isNatural_toString (n : ℕ) : IsNatural (toString n) n := by
  have chars : (toString n).toList = Nat.toDigits 10 n := by
    rw [Nat.toString_eq_ofList_toDigits, String.toList_ofList]
  refine ⟨"", toString n, by simp, .inl rfl, ?_, ?_, ?_⟩
  · intro nothing
    rw [nothing] at chars
    exact Nat.toDigits_ne_nil chars.symm
  · rw [chars]
    exact fun c ↦ isDigit_of_mem_toDigits
  · rw [chars, Nat.ofDigitChars_ten_toDigits]

theorem naturalUpTo_empty : naturalUpTo bound "" = .error .empty := rfl

/-- The numbers up to the bound are read, and nothing else is. -/
theorem naturalUpTo_eq_ok_iff : naturalUpTo bound text = .ok n ↔ IsNatural text n ∧ n ≤ bound := by
  rw [isNatural_iff]
  by_cases nothing : text = ""
  · rw [nothing, naturalUpTo_empty]
    simp
  · rw [naturalUpTo_eq nothing, digitsUpTo_eq_ok_iff (Nat.zero_le bound)]
    simp [nothing, and_assoc]

/-- Of what is refused the first fault is told. -/
theorem naturalUpTo_eq_error_iff :
    naturalUpTo bound text = .error e ↔ NaturalFault bound text e := by
  by_cases nothing : text = ""
  · subst nothing
    rw [naturalUpTo_empty]
    constructor
    · rintro ⟨⟩
      exact .empty rfl
    · rintro (_ | ⟨nonempty, -⟩)
      · rfl
      · exact absurd rfl nonempty
  · rw [naturalUpTo_eq nothing, digitsUpTo_eq_error_iff (Nat.zero_le bound)]
    constructor
    · exact .digits nothing
    · rintro (empty | ⟨-, fault⟩)
      · exact absurd empty nothing
      · exact fault

end ShowControl.Text
