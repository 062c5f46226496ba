/-!
# Integers as text

A natural number is an optional plus sign and decimal digits, however many zeros lead them. What
keeps a text from being a number up to a bound is told apart, because it is shown to the operator:
of a text with several faults the one that comes first counts.

Where a number beyond some bound is as good as any other, `worthUpTo` reads its digits without ever
holding more than that bound, so that long texts take no long numbers.
-/

namespace ShowControl.Text

/-- The worth of a decimal digit. -/
def digitWorth (c : Char) : Nat := c.toNat - '0'.toNat

/-- The worth of digits in a base, or `cap` where it is more than that. -/
def worthUpTo (cap base : Nat) (digits : List Nat) : Nat :=
  digits.foldl (fun worth digit ↦ min cap (worth * base + digit)) 0

theorem foldl_min_eq {base : Nat} (h : 0 < base) (cap worth : Nat) (digits : List Nat) :
    digits.foldl (fun worth digit ↦ min cap (worth * base + digit)) (min cap worth) =
      min cap (digits.foldl (fun worth digit ↦ worth * base + digit) worth) := by
  induction digits generalizing worth with
  | nil => rfl
  | cons digit rest ih =>
    have one : min cap (min cap worth * base + digit) = min cap (worth * base + digit) := by
      rcases Nat.le_total cap worth with le | le
      · have := Nat.le_mul_of_pos_right cap h
        have := Nat.le_mul_of_pos_right worth h
        rw [Nat.min_eq_left le, Nat.min_eq_left (by omega), Nat.min_eq_left (by omega)]
      · rw [Nat.min_eq_right le]
    rw [List.foldl_cons, List.foldl_cons, one, ih]

theorem worthUpTo_eq {base : Nat} (h : 0 < base) (cap : Nat) (digits : List Nat) :
    worthUpTo cap base digits =
      min cap (digits.foldl (fun worth digit ↦ worth * base + digit) 0) := by
  rw [worthUpTo, ← foldl_min_eq h, Nat.min_zero]

/-- Why a text is no number up to a bound. -/
inductive IntegerError where
  | empty
  | invalidDigit
  | tooLarge
  deriving DecidableEq, Repr

/-- The wording that is shown to operators. -/
def IntegerError.message : IntegerError → String
  | .empty => "cannot parse integer from empty string"
  | .invalidDigit => "invalid digit found in string"
  | .tooLarge => "number too large to fit in target type"

/-- Reads digits behind those that have been read. -/
def digitsUpTo (bound value : Nat) : List Char → Except IntegerError Nat
  | [] => .ok value
  | c :: rest =>
    if c.isDigit then
      let next := value * 10 + digitWorth c
      if bound < next then .error .tooLarge else digitsUpTo bound next rest
    else .error .invalidDigit

/-- Reads a number up to a bound. -/
def naturalUpTo (bound : Nat) (text : String) : Except IntegerError Nat :=
  match text.toList with
  | [] => .error .empty
  | ['+'] => .error .invalidDigit
  | '+' :: rest => digitsUpTo bound 0 rest
  | cs => digitsUpTo bound 0 cs

/-- Reads an integer whose sign may be a minus, if it lies between zero and a bound. -/
def integerUpTo? (bound : Nat) (text : String) : Option Nat :=
  match text.toList with
  | '-' :: rest =>
    match rest with
    | [] => none
    | _ => if rest.all (· = '0') then some 0 else none
  | _ => (naturalUpTo bound text).toOption

end ShowControl.Text
