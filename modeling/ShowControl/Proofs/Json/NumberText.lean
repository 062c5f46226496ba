import ShowControl.Json.Parser
import ShowControl.Proofs.Json.Scaling
import ShowControl.Proofs.Numeric.Shortest
import ShowControl.Proofs.Text.Digits

/-!
# Number texts read back

What is written for a number is read as that number again: exactly for the integers of 64 bits
(`read?_integerText`), and for a widened number of 32 bits as a double that narrows back to it
(`read?_floatText`).

For the second the text is taken apart once. `Spells text significand exponent` says that a text has
digits, perhaps a fraction and perhaps an exponent, and what these come to. Reading such a text is
one scaling (`Spells.read?_eq`), and each of the four layouts of a decimal spells the decimal
(`exists_spells_decimalText`).
-/

namespace ShowControl.Json.Number

open Numeric Text

/-! ### Runs of digits -/

theorem foldl_whole (ds : List Char) {d : Digits} (room : d.full = false)
    (small : Nat.ofDigitChars 10 ds d.significand < 2 ^ 64) :
    ds.foldl Digits.whole d = { d with significand := Nat.ofDigitChars 10 ds d.significand } := by
  induction ds generalizing d with
  | nil => simp
  | cons c ds ih =>
    rw [Nat.ofDigitChars_cons, Nat.mul_comm] at small ⊢
    have fits : d.significand * 10 + (c.toNat - '0'.toNat) < 2 ^ 64 :=
      (le_ofDigitChars ds _).trans_lt small
    have step : d.whole c =
        { d with significand := d.significand * 10 + (c.toNat - '0'.toNat) } := by
      simp only [Digits.whole, Text.digitWorth, room, Nat.pow_eq]
      rw [if_neg]
      simpa using fits
    rw [List.foldl_cons, step]
    exact ih room small

theorem foldl_fraction (ds : List Char) {d : Digits} (room : d.full = false)
    (small : Nat.ofDigitChars 10 ds d.significand < 2 ^ 64) :
    ds.foldl Digits.fraction d =
      { d with significand := Nat.ofDigitChars 10 ds d.significand
               exponent := d.exponent - ds.length } := by
  induction ds generalizing d with
  | nil => simp
  | cons c ds ih =>
    rw [Nat.ofDigitChars_cons, Nat.mul_comm] at small ⊢
    have fits : d.significand * 10 + (c.toNat - '0'.toNat) < 2 ^ 64 :=
      (le_ofDigitChars ds _).trans_lt small
    have step : d.fraction c =
        { d with significand := d.significand * 10 + (c.toNat - '0'.toNat)
                 exponent := d.exponent - 1 } := by
      simp only [Digits.fraction, Text.digitWorth, room, Nat.pow_eq]
      rw [if_neg]
      simpa using fits
    have rest := ih (d := { d with significand := _, exponent := d.exponent - 1 }) room small
    rw [List.foldl_cons, step, rest, List.length_cons, Nat.cast_add_one, sub_sub, add_comm 1]

/-- The digits in front of what does not begin with one. -/
theorem digits?_append {ds rest : List Char} (digits : ∀ c ∈ ds, c.isDigit = true)
    (nonempty : ds ≠ []) (after : ∀ c ∈ rest.head?, c.isDigit = false) :
    digits? (ds ++ rest) = some (ds, rest) := by
  obtain ⟨taken, left⟩ := splits_of_head digits after
  simp [digits?, taken, left, nonempty]

/-! ### Texts taken apart -/

/-- The text has digits, and a fraction or an exponent or both; they come to
`significand * 10 ^ exponent`. -/
inductive Spells : List Char → ℕ → ℤ → Prop
  | point {ds fs tail : List Char} {e : Option ℤ} (digits : ∀ c ∈ ds, c.isDigit = true)
      (nonempty : ds ≠ []) (lead : ¬(1 < ds.length ∧ ds.head? = some '0'))
      (digits' : ∀ c ∈ fs, c.isDigit = true) (nonempty' : fs ≠ [])
      (ends : exponent? tail = some e) {significand : ℕ} {exponent : ℤ}
      (value : Nat.ofDigitChars 10 (ds ++ fs) 0 = significand)
      (places : e.getD 0 - fs.length = exponent) :
      Spells (ds ++ '.' :: (fs ++ tail)) significand exponent
  | plain {ds tail : List Char} {e : ℤ} (digits : ∀ c ∈ ds, c.isDigit = true)
      (nonempty : ds ≠ []) (lead : ¬(1 < ds.length ∧ ds.head? = some '0'))
      (ends : exponent? tail = some (some e)) {significand : ℕ}
      (value : Nat.ofDigitChars 10 ds 0 = significand) :
      Spells (ds ++ tail) significand e

/-- What ends a number does not begin with a digit. -/
theorem head?_exponent {tail : List Char} {e : Option ℤ} (h : exponent? tail = some e) :
    ∀ c ∈ tail.head?, c.isDigit = false := by
  cases tail with
  | nil => simp
  | cons mark tail =>
    intro c hc
    obtain rfl : mark = c := by simpa using hc
    by_cases marks : mark = 'e' ∨ mark = 'E'
    · rcases marks with rfl | rfl <;> rfl
    · rw [exponent?, if_neg marks] at h
      simp at h

theorem ne_minus_of_isDigit {c : Char} (h : c.isDigit = true) : c ≠ '-' := by
  rintro rfl
  exact absurd h (by decide)

/-- A sign in front of digits is taken off. -/
theorem read?_sign (negative : Bool) {text : List Char}
    (digits : ∀ c ∈ text.head?, c.isDigit = true) :
    read? (if negative then '-' :: text else text) = readUnsigned? negative text := by
  cases negative with
  | true => rfl
  | false =>
    simp only [Bool.false_eq_true, if_false]
    unfold read?
    split
    · next rest => exact absurd rfl (ne_minus_of_isDigit (digits '-' rfl))
    · rfl

/-- A number that goes on behind its first digits is floating point. -/
theorem readUnsigned?_eq {negative : Bool} {ds text rest tail : List Char} {d : Digits}
    {e : Option ℤ} (taken : digits? text = some (ds, rest))
    (lead : ¬(1 < ds.length ∧ ds.head? = some '0')) (more : rest ≠ [])
    (fraction : fraction? (ds.foldl Digits.whole {}) rest = some (d, tail))
    (ends : exponent? tail = some e) :
    readUnsigned? negative text =
      (scale d.significand (d.exponent + e.getD 0)).map fun a ↦ .float (signed negative a) := by
  have more : rest.isEmpty = false := by simpa using more
  simp only [readUnsigned?, taken, Option.bind_eq_bind, Option.bind_some, if_neg lead, more,
    Bool.false_eq_true, if_false, fraction, ends]
  cases scale d.significand (d.exponent + e.getD 0) <;> rfl

/-- Reading such a text is one scaling. -/
theorem Spells.read?_eq {text : List Char} {significand : ℕ} {exponent : ℤ}
    (h : Spells text significand exponent) (small : significand < 2 ^ 64) (negative : Bool) :
    read? (if negative then '-' :: text else text) =
      (scale significand exponent).map fun a ↦ .float (signed negative a) := by
  cases h with
  | @point ds fs tail e digits nonempty lead digits' nonempty' ends _ _ value places =>
    subst value places
    rw [Nat.ofDigitChars_append] at small ⊢
    have first : ∀ c ∈ (ds ++ '.' :: (fs ++ tail)).head?, c.isDigit = true := by
      obtain ⟨c, rest, rfl⟩ := List.exists_cons_of_ne_nil nonempty
      simpa using digits c List.mem_cons_self
    -- the digits before the point are few enough as all of them are
    have whole := foldl_whole ds (d := {}) rfl ((le_ofDigitChars fs _).trans_lt small)
    have fraction : fraction? (ds.foldl Digits.whole {}) ('.' :: (fs ++ tail)) =
        some ({ significand := Nat.ofDigitChars 10 fs (Nat.ofDigitChars 10 ds 0)
                exponent := 0 - fs.length }, tail) := by
      simp only [fraction?, whole, digits?_append digits' nonempty' (head?_exponent ends),
        Option.map_some]
      rw [foldl_fraction fs rfl small]
    rw [read?_sign negative first, readUnsigned?_eq (digits?_append digits nonempty (by simp)) lead
      (List.cons_ne_nil _ _) fraction ends]
    congr 2
    ring
  | @plain ds tail e digits nonempty lead ends _ value =>
    subst value
    have first : ∀ c ∈ (ds ++ tail).head?, c.isDigit = true := by
      obtain ⟨c, rest, rfl⟩ := List.exists_cons_of_ne_nil nonempty
      simpa using digits c List.mem_cons_self
    have more : tail ≠ [] := by
      rintro rfl
      simp [exponent?] at ends
    have whole := foldl_whole ds (d := {}) rfl small
    have fraction : fraction? (ds.foldl Digits.whole {}) tail =
        some ({ significand := Nat.ofDigitChars 10 ds 0, exponent := 0 }, tail) := by
      rw [whole, fraction?]
      rintro rest rfl
      simp [exponent?] at ends
    rw [read?_sign negative first, readUnsigned?_eq (digits?_append digits nonempty
      (head?_exponent ends)) lead more fraction ends]
    simp

/-! ### The layouts of a decimal -/

/-- The text spells the decimal, perhaps with more digits and a smaller exponent. -/
def SpellsDecimal (text : List Char) (d : Decimal) : Prop :=
  ∃ (significand : ℕ) (exponent : ℤ), Spells text significand exponent ∧
    (significand : ℚ) * 10 ^ exponent = d.digits * 10 ^ d.exponent ∧
    significand < 2 ^ 64 ∧ -100 ≤ exponent ∧ exponent ≤ 100

/-- The exponent behind its mark and sign. -/
theorem exponent?_mark (e : ℤ) (small : e.natAbs ≤ exponentCap) :
    exponent? ('e' :: (if e < 0 then '-' else '+') :: Nat.toDigits 10 e.natAbs) =
      some (some e) := by
  have digits : digits? (Nat.toDigits 10 e.natAbs) = some (Nat.toDigits 10 e.natAbs, []) := by
    have taken := digits?_append (fun c ↦ isDigit_of_mem_toDigits (n := e.natAbs) (c := c))
      Nat.toDigits_ne_nil (by simp : ∀ c ∈ ([] : List Char).head?, c.isDigit = false)
    rwa [List.append_nil] at taken
  have worth : Text.worthUpTo exponentCap 10
      ((Nat.toDigits 10 e.natAbs).map Text.digitWorth) = e.natAbs := by
    have value := Nat.ofDigitChars_ten_toDigits (n := e.natAbs)
    rw [Nat.ofDigitChars_eq_foldl] at value
    rw [Text.worthUpTo_eq (by decide), List.foldl_map]
    simp only [Text.digitWorth, Nat.mul_comm _ 10]
    rw [value, Nat.min_eq_right small]
  by_cases negative : e < 0
  · simp only [exponent?, if_pos negative, sign, digits, worth, true_or, if_true]
    congr 2
    omega
  · simp only [exponent?, if_neg negative, sign, digits, worth, true_or, if_true,
      Bool.false_eq_true, if_false]
    congr 2
    omega

section Layouts

variable {d : Decimal}

theorem lt_ten_pow_length (n : ℕ) : n < 10 ^ (Nat.toDigits 10 n).length :=
  (Nat.length_toDigits_le_iff (by decide) Nat.length_toDigits_pos).1 le_rfl

/-- Zeros up to the point and one behind it. -/
theorem spellsDecimal_whole (nonneg : 0 ≤ d.exponent) (normal : d.digits = 0 → d.exponent = 0)
    (low : d.exponent + (Nat.toDigits 10 d.digits).length ≤ 16) :
    SpellsDecimal (Nat.toDigits 10 d.digits ++ List.replicate d.exponent.toNat '0' ++ ['.', '0'])
      d := by
  obtain ⟨digits, exponent⟩ := d
  obtain ⟨e, rfl⟩ := Int.eq_ofNat_of_zero_le nonneg
  simp only [Int.toNat_natCast] at *
  have value : Nat.ofDigitChars 10
      ((Nat.toDigits 10 digits ++ List.replicate e '0') ++ ['0']) 0 = digits * 10 ^ e * 10 := by
    rw [Nat.ofDigitChars_append, Nat.ofDigitChars_append, Nat.ofDigitChars_ten_toDigits,
      Nat.ofDigitChars_replicate_zero, Nat.ofDigitChars_cons, Nat.ofDigitChars_nil]
    simp only [Nat.sub_self]
    ring
  refine ⟨digits * 10 ^ e * 10, -1, ?_, ?_, ?_, by omega, by omega⟩
  · refine Spells.point ?_ (by simp [Nat.toDigits_ne_nil]) ?_ (by simp) (List.cons_ne_nil '0' [])
      (rfl : exponent? [] = some none) value rfl
    · intro c hc
      rcases List.mem_append.1 hc with hc | hc
      · exact isDigit_of_mem_toDigits hc
      · rw [List.eq_of_mem_replicate hc]
        rfl
    · -- a leading zero would be that of zero, which has no further digits
      rintro ⟨long, zero⟩
      rw [List.head?_append_of_ne_nil _ Nat.toDigits_ne_nil] at zero
      rcases Nat.eq_zero_or_pos digits with rfl | positive
      · have : e = 0 := by exact_mod_cast normal rfl
        rw [this] at long
        simp at long
      · exact head?_toDigits_ne positive zero
  · push_cast
    rw [zpow_natCast, zpow_neg_one, mul_assoc, mul_inv_cancel₀ (by norm_num), mul_one]
  · have few := lt_ten_pow_length digits
    calc digits * 10 ^ e * 10
        ≤ 10 ^ (Nat.toDigits 10 digits).length * 10 ^ e * 10 := by gcongr
      _ = 10 ^ (e + (Nat.toDigits 10 digits).length + 1) := by ring
      _ ≤ 10 ^ 17 := Nat.pow_le_pow_right (by decide) (by omega)
      _ < 2 ^ 64 := by decide

/-- A point between the digits. -/
theorem spellsDecimal_split (positive : 0 < d.digits) (small : d.digits < 2 ^ 64) {n : ℕ}
    (low : 0 < n) (split : d.exponent + (Nat.toDigits 10 d.digits).length = n)
    (negative : d.exponent < 0) (bound : -100 ≤ d.exponent) :
    SpellsDecimal ((Nat.toDigits 10 d.digits).take n ++ '.' :: (Nat.toDigits 10 d.digits).drop n)
      d := by
  have value := Nat.ofDigitChars_ten_toDigits (n := d.digits)
  rw [← List.take_append_drop n (Nat.toDigits 10 d.digits)] at value
  have behind : ((Nat.toDigits 10 d.digits).drop n).length = -d.exponent := by
    rw [List.length_drop]
    omega
  have spells : Spells ((Nat.toDigits 10 d.digits).take n
      ++ '.' :: ((Nat.toDigits 10 d.digits).drop n ++ [])) d.digits d.exponent := by
    refine Spells.point (fun c hc ↦ isDigit_of_mem_toDigits (List.mem_of_mem_take hc))
      (by simp [Nat.toDigits_ne_nil, low.ne']) ?_
      (fun c hc ↦ isDigit_of_mem_toDigits (List.mem_of_mem_drop hc)) ?_ (e := none) rfl value ?_
    · rintro ⟨-, zero⟩
      rw [List.head?_take, if_neg low.ne'] at zero
      exact head?_toDigits_ne positive zero
    · rw [← List.length_pos_iff_ne_nil]
      omega
    · rw [behind, Option.getD_none]
      omega
  rw [List.append_nil] at spells
  exact ⟨d.digits, d.exponent, spells, rfl, small, bound, by omega⟩

/-- A zero in front of the point and perhaps more behind it. -/
theorem spellsDecimal_below (small : d.digits < 2 ^ 64) {n : ℕ}
    (zeros : d.exponent + (Nat.toDigits 10 d.digits).length = -n) (bound : -100 ≤ d.exponent) :
    SpellsDecimal ('0' :: '.' :: List.replicate n '0' ++ Nat.toDigits 10 d.digits) d := by
  have value : Nat.ofDigitChars 10
      (['0'] ++ (List.replicate n '0' ++ Nat.toDigits 10 d.digits)) 0 = d.digits := by
    rw [Nat.ofDigitChars_append, Nat.ofDigitChars_append, Nat.ofDigitChars_cons,
      Nat.ofDigitChars_nil, Nat.ofDigitChars_replicate_zero]
    simp
  have behind : (List.replicate n '0' ++ Nat.toDigits 10 d.digits).length = -d.exponent := by
    rw [List.length_append, List.length_replicate]
    omega
  have spells : Spells (['0'] ++ '.' :: (List.replicate n '0' ++ Nat.toDigits 10 d.digits ++ []))
      d.digits d.exponent := by
    refine Spells.point (by simp) (by simp) (by simp) ?_ (by simp [Nat.toDigits_ne_nil])
      (e := none) rfl value ?_
    · intro c hc
      rcases List.mem_append.1 hc with hc | hc
      · rw [List.eq_of_mem_replicate hc]
        rfl
      · exact isDigit_of_mem_toDigits hc
    · rw [behind, Option.getD_none]
      omega
  rw [List.append_nil] at spells
  have length := Nat.length_toDigits_pos (b := 10) (n := d.digits)
  exact ⟨d.digits, d.exponent, spells, rfl, small, bound, by omega⟩

/-- One digit in front of the point, and an exponent. -/
theorem spellsDecimal_scientific (small : d.digits < 2 ^ 64) (low : -100 ≤ d.exponent)
    (high : d.exponent ≤ 100) {c : Char} {rest : List Char}
    (digits : Nat.toDigits 10 d.digits = c :: rest) {tail : List Char}
    (ends : exponent? tail = some (some (d.exponent + rest.length))) :
    SpellsDecimal ((if rest = [] then [c] else c :: '.' :: rest) ++ tail) d := by
  have value := Nat.ofDigitChars_ten_toDigits (n := d.digits)
  have all : ∀ a ∈ c :: rest, a.isDigit = true := fun a ha ↦
    isDigit_of_mem_toDigits (digits ▸ ha)
  rw [digits] at value
  refine ⟨d.digits, d.exponent, ?_, rfl, small, low, high⟩
  cases rest with
  | nil =>
    have spells := Spells.plain all (by simp) (by simp) ends value
    simpa using spells
  | cons a rest =>
    exact Spells.point (by simpa using all c (by simp)) (List.cons_ne_nil c []) (by simp)
      (fun b hb ↦ all b (List.mem_cons_of_mem _ hb)) (by simp) ends value (by simp)

end Layouts

/-- The text of a decimal with few digits and a moderate exponent spells it. -/
theorem spellsDecimal_decimalText {d : Decimal} (normal : d.digits = 0 → d.exponent = 0)
    (small : d.digits < 2 ^ 64) (low : -100 ≤ d.exponent) (high : d.exponent ≤ 100) :
    SpellsDecimal (decimalText d) d := by
  have length := Nat.length_toDigits_pos (b := 10) (n := d.digits)
  have few : (Nat.toDigits 10 d.digits).length ≤ 20 :=
    (Nat.length_toDigits_le_iff (by decide) (by decide)).2 (small.trans (by decide))
  have nonzero (h : d.exponent ≠ 0) : 0 < d.digits := by
    by_contra zero
    exact h (normal (by omega))
  have least : layout.least = -5 := rfl
  have greatest : layout.greatest = 15 := rfl
  simp only [decimalText]
  split
  · next positional =>
    -- where the exponent is not zero the decimal is not, so its digits do not begin with a zero
    split_ifs with nonneg lead
    · exact spellsDecimal_whole nonneg normal (by omega)
    · exact spellsDecimal_split (nonzero (by omega)) small (by omega) (by omega) (by omega) low
    · exact spellsDecimal_below small (by omega) low
  · next scientific =>
    obtain ⟨c, rest, digits⟩ := List.exists_cons_of_ne_nil (Nat.toDigits_ne_nil (b := 10)
      (n := d.digits))
    have first : d.exponent + (Nat.toDigits 10 d.digits).length - 1 = d.exponent + rest.length := by
      rw [digits, List.length_cons]
      omega
    have ends := exponent?_mark (d.exponent + rest.length) (by
      rw [← first]
      simp only [exponentCap]
      omega)
    have spells := spellsDecimal_scientific small low high digits ends
    rw [first, digits]
    cases rest with
    | nil => exact spells
    | cons a rest => exact spells

/-! ### Numbers as tokens -/

/-- The text is one token to the reader of values: it begins as a number does, and nothing in it
ends a number. -/
def IsToken (text : List Char) : Prop :=
  (∃ c ∈ text.head?, c.isDigit = true ∨ c = '-') ∧ ∀ c ∈ text, Reader.isNumberPart c = true

theorem isNumberPart_of_isDigit {c : Char} (h : c.isDigit = true) :
    Reader.isNumberPart c = true := by
  simp [Reader.isNumberPart, h]

theorem IsToken.of_isDigit {text : List Char} (digit : ∀ c ∈ text.head?, c.isDigit = true)
    (nonempty : text ≠ []) (parts : ∀ c ∈ text, Reader.isNumberPart c = true) (negative : Bool) :
    IsToken (if negative then '-' :: text else text) := by
  cases negative with
  | true =>
    refine ⟨⟨'-', rfl, .inr rfl⟩, fun c hc ↦ ?_⟩
    rcases List.mem_cons.1 hc with rfl | hc
    · rfl
    · exact parts c hc
  | false =>
    obtain ⟨c, rest, rfl⟩ := List.exists_cons_of_ne_nil nonempty
    exact ⟨⟨c, rfl, .inl (digit c rfl)⟩, parts⟩

theorem isNumberPart_of_mem_toDigits {n : ℕ} {c : Char} (h : c ∈ Nat.toDigits 10 n) :
    Reader.isNumberPart c = true :=
  isNumberPart_of_isDigit (isDigit_of_mem_toDigits h)

/-- Whatever its size, the text of a decimal begins with a digit and has nothing that ends a
number. -/
theorem decimalText_eq_cons (d : Decimal) : ∃ c rest, decimalText d = c :: rest ∧
    c.isDigit = true ∧ ∀ a ∈ rest, Reader.isNumberPart a = true := by
  obtain ⟨c, rest, digits⟩ := List.exists_cons_of_ne_nil (Nat.toDigits_ne_nil (b := 10)
    (n := d.digits))
  have digit : c.isDigit = true := isDigit_of_mem_toDigits (n := d.digits) (by simp [digits])
  have parts : ∀ a ∈ rest, Reader.isNumberPart a = true := fun a ha ↦
    isNumberPart_of_mem_toDigits (n := d.digits) (by simp [digits, ha])
  have zeros (n : ℕ) : ∀ a ∈ List.replicate n '0', Reader.isNumberPart a = true := fun a ha ↦ by
    rw [List.eq_of_mem_replicate ha]
    rfl
  simp only [decimalText, digits]
  generalize d.exponent + ((c :: rest).length : ℤ) - 1 = first
  split
  · split_ifs
    · rw [List.cons_append, List.cons_append]
      refine ⟨c, _, rfl, digit, ?_⟩
      rw [List.forall_mem_append, List.forall_mem_append]
      exact ⟨⟨parts, zeros _⟩, List.all_eq_true.1 rfl⟩
    · rw [List.take_succ_cons, List.drop_succ_cons, List.cons_append]
      refine ⟨c, _, rfl, digit, ?_⟩
      rw [List.forall_mem_append, List.forall_mem_cons]
      exact ⟨fun a ha ↦ parts a (List.mem_of_mem_take ha), rfl,
        fun a ha ↦ parts a (List.mem_of_mem_drop ha)⟩
    · rw [List.cons_append, List.cons_append]
      refine ⟨'0', _, rfl, rfl, ?_⟩
      rw [List.forall_mem_cons, List.forall_mem_append, List.forall_mem_cons]
      exact ⟨rfl, zeros _, isNumberPart_of_isDigit digit, parts⟩
  · have ends : ∀ a ∈ 'e' :: (if first < 0 then '-' else '+') :: Nat.toDigits 10 first.natAbs,
        Reader.isNumberPart a = true := by
      rw [List.forall_mem_cons, List.forall_mem_cons]
      refine ⟨rfl, ?_, fun a ha ↦ isNumberPart_of_mem_toDigits ha⟩
      split <;> rfl
    cases rest with
    | nil => exact ⟨c, _, rfl, digit, ends⟩
    | cons b rest =>
      simp only [List.cons_append]
      refine ⟨c, _, rfl, digit, ?_⟩
      rw [List.forall_mem_cons, ← List.cons_append, List.forall_mem_append]
      exact ⟨rfl, parts, ends⟩

theorem isToken_floatText {x : Double} (finite : x.isFinite = true) : IsToken (floatText x) := by
  obtain ⟨c, rest, text, digit, parts⟩ := decimalText_eq_cons x.shortest
  have first : ∀ a ∈ (c :: rest).head?, a.isDigit = true := by simpa using digit
  have token := IsToken.of_isDigit first (by simp)
    (List.forall_mem_cons.2 ⟨isNumberPart_of_isDigit digit, parts⟩) x.negative
  rwa [floatText, if_pos finite, text]

theorem isToken_integerText (i : ℤ) : IsToken (integerText i) := by
  have token := IsToken.of_isDigit
    (fun c hc ↦ isDigit_of_mem_toDigits (n := i.natAbs) (List.mem_of_mem_head? hc))
    Nat.toDigits_ne_nil (fun c hc ↦ isNumberPart_of_mem_toDigits hc) (i < 0)
  simpa [integerText] using token

/-! ### What is written for a number -/

/-- Zero is read as zero. -/
theorem read?_decimalText_zero (negative : Bool) :
    read? (if negative then '-' :: decimalText ⟨0, 0⟩ else decimalText ⟨0, 0⟩) =
      some (.float (signed negative 0)) := by
  obtain ⟨significand, exponent, spells, value, small, low, high⟩ :=
    spellsDecimal_decimalText (d := ⟨0, 0⟩) (fun _ ↦ rfl) (by decide) (by decide) (by decide)
  have none : significand = 0 := by
    simpa [zpow_ne_zero] using value
  rw [spells.read?_eq small, none, scale_zero low high]
  rfl

/-- The text of a decimal that is not zero is read as a number near it. -/
theorem read?_decimalText {d : Decimal} (positive : 0 < d.digits) (small : d.digits < 2 ^ 64)
    (low : -100 ≤ d.exponent) (high : d.exponent ≤ 100) (negative : Bool) :
    ∃ index, read? (if negative then '-' :: decimalText d else decimalText d) =
        some (.float (signed negative index)) ∧ index < Format.double.infinity ∧
      Near (1 / 2 ^ 49) (Format.double.worth index) (d.digits * 10 ^ d.exponent) := by
  obtain ⟨significand, exponent, spells, value, small, low, high⟩ :=
    spellsDecimal_decimalText (fun zero ↦ absurd zero positive.ne') small low high
  have significand_pos : 0 < significand := by
    by_contra zero
    rw [Nat.eq_zero_of_not_pos zero, Nat.cast_zero, zero_mul] at value
    exact (mul_pos (by exact_mod_cast positive) (zpow_pos (by norm_num) _)).ne value
  obtain ⟨index, scaled, finite, near⟩ := near_scale significand_pos small low high
  refine ⟨index, ?_, finite, by rwa [value] at near⟩
  rw [spells.read?_eq small, scaled]
  rfl

/-- The text of a widened number of 32 bits is read as a number that narrows back to it. -/
theorem read?_floatText {x : Single} (finite : x.isFinite = true) :
    ∃ y, read? (floatText (x.convert .double)) = some (.float y) ∧ y.convert .single = x := by
  obtain ⟨sign, finite', -⟩ := widen_spec finite
  have worth := worth_widen finite
  rw [floatText, if_pos finite', sign]
  -- a zero is written with the digit zero; the shortest decimal says something only of the others
  rcases Nat.eq_zero_or_pos x.index with zero | positive
  · have index : (x.convert .double).index = 0 := by
      by_contra nonzero
      have := Format.double.worth_pos (Nat.pos_of_ne_zero nonzero)
      rw [worth, zero, Format.worth_zero] at this
      exact this.false
    have shortest : (x.convert .double).shortest = ⟨0, 0⟩ := if_pos index
    rw [shortest]
    refine ⟨signed x.negative 0, read?_decimalText_zero _, ?_⟩
    refine convert_single_eq_of_near finite rfl rfl ?_
    simp [Near, signed, zero]
  · obtain ⟨low, high⟩ := doublings_widen finite positive
    obtain ⟨near, few, least, greatest⟩ := near_shortest low high
    have worth_pos := Format.single.worth_pos positive
    have digits_pos : 0 < (x.convert .double).shortest.digits := by
      by_contra zero
      have half := near.half_le (Format.double.worth_nonneg _) (by norm_num)
      rw [worth, Nat.eq_zero_of_not_pos zero, Nat.cast_zero, zero_mul] at half
      linarith
    obtain ⟨index, read, bounded, near'⟩ := read?_decimalText digits_pos
      (few.trans (by decide)) (by omega) (by omega) x.negative
    refine ⟨signed x.negative index, read, ?_⟩
    have kept : (signed x.negative index).index = index := Nat.min_eq_left bounded.le
    rw [worth] at near
    refine convert_single_eq_of_near finite rfl ?_ ?_
    · simpa [Binary.isFinite, kept] using bounded
    · -- what is read is near the decimal, and the decimal is near the number
      rw [kept]
      exact (near'.trans near (by norm_num)).mono worth_pos.le (by norm_num)

/-- The text of an integer of 64 bits. -/
theorem read?_integerText {i : ℤ} (low : -2 ^ 63 ≤ i) (high : i < 2 ^ 64) :
    read? (integerText i) = some (.integer i) := by
  have form : integerText i = if decide (i < 0) then '-' :: Nat.toDigits 10 i.natAbs
      else Nat.toDigits 10 i.natAbs := by
    simp [integerText]
  have first : ∀ c ∈ (Nat.toDigits 10 i.natAbs).head?, c.isDigit = true := fun c hc ↦
    isDigit_of_mem_toDigits (List.mem_of_mem_head? hc)
  have taken := digits?_append (fun c ↦ isDigit_of_mem_toDigits (n := i.natAbs) (c := c))
    Nat.toDigits_ne_nil (by simp : ∀ c ∈ ([] : List Char).head?, c.isDigit = false)
  have digits := foldl_whole (Nat.toDigits 10 i.natAbs) (d := {}) rfl (by
    simp only [Nat.ofDigitChars_ten_toDigits]
    omega)
  simp only [Nat.ofDigitChars_ten_toDigits] at digits
  rw [List.append_nil] at taken
  rw [form, read?_sign _ first]
  simp only [readUnsigned?, taken, Option.bind_eq_bind, Option.bind_some, if_neg (toDigits_lead _),
    digits, List.isEmpty_nil, if_true, whole, Nat.pow_eq, Bool.false_eq_true, if_false]
  by_cases negative : i < 0
  · rw [if_pos (by simpa using negative), if_pos (by omega)]
    congr 2
    omega
  · rw [if_neg (by simpa using negative)]
    congr 2
    omega

end ShowControl.Json.Number
