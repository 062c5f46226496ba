import ShowControl.Json.Number
import ShowControl.Proofs.Numeric.Conversion

/-!
# How well a decimal is scaled

`Json.Number.scale` turns a significand and a power of ten into a double with three rounded
operations: one for the significand, one for the power and one for their product or quotient. The
result need not be the double nearest to the decimal. `near_scale` says how far off it may be, for
the exponents that numbers of 32 bits lead to: by `2 ^ -49` of the decimal.
-/

namespace ShowControl.Json.Number

open Numeric

/-! ### The three operations -/

/-- A rounded operation, whose exact result is well within the range of doubles. -/
theorem near_double {n d : ℕ} {e : ℤ} {q : ℚ} (hd : 0 < d)
    (value : (n : ℚ) / d * 2 ^ e = q * 2 ^ Format.double.unitBits)
    (low : 1 ≤ q * 2 ^ 1000) (high : q < 2 ^ 1000) :
    Format.double.nearestScaled n d e < Format.double.infinity ∧
      Near (1 / 2 ^ 53) (Format.double.worth (Format.double.nearestScaled n d e)) q := by
  have unit : Format.double.unitBits = 1000 + 74 := by decide
  have most : Format.double.fractionBits + (2 ^ Format.double.exponentBits - 3) =
      1000 + (1000 + 74) + 23 := by decide
  refine Format.double.near_worth_nearestScaled hd value ?_ ?_
  · rw [unit, pow_add, ← mul_assoc]
    calc (2 : ℚ) ^ 52 ≤ 1 * 2 ^ 74 := by norm_num
      _ ≤ q * 2 ^ 1000 * 2 ^ 74 := mul_le_mul_of_nonneg_right low (by positivity)
  · rw [unit, most, pow_add _ (1000 + (1000 + 74)), pow_add _ 1000 (1000 + 74)]
    calc q * 2 ^ (1000 + 74) < 2 ^ 1000 * 2 ^ (1000 + 74) :=
          mul_lt_mul_of_pos_right high (pow_pos two_pos _)
      _ ≤ 2 ^ 1000 * 2 ^ (1000 + 74) * 2 ^ 23 :=
          le_mul_of_one_le_right (by positivity) (by norm_num)

theorem near_ofNat {n : ℕ} (positive : 0 < n) (small : (n : ℚ) < 2 ^ 1000) :
    ofNat n < Format.double.infinity ∧ Near (1 / 2 ^ 53) (Format.double.worth (ofNat n)) n := by
  have one : (1 : ℚ) ≤ n := by exact_mod_cast positive
  refine near_double Nat.one_pos ?_ ?_ small
  · rw [Nat.cast_one, div_one, zpow_natCast]
  · exact one_le_mul_of_one_le_of_one_le one (one_le_pow₀ one_le_two)

theorem near_mul {a b : ℕ} (low : 1 ≤ Format.double.worth a * Format.double.worth b * 2 ^ 1000)
    (high : Format.double.worth a * Format.double.worth b < 2 ^ 1000) :
    mul a b < Format.double.infinity ∧
      Near (1 / 2 ^ 53) (Format.double.worth (mul a b))
        (Format.double.worth a * Format.double.worth b) := by
  refine near_double Nat.one_pos ?_ low high
  rw [Format.worth_eq, Format.worth_eq, mul_mul_mul_comm, ← zpow_add₀ two_ne_zero, mul_assoc,
    ← zpow_natCast, ← zpow_add₀ two_ne_zero, Nat.cast_one, div_one, Nat.cast_mul]
  congr 2
  omega

theorem near_div {a b : ℕ} (hb : 0 < b)
    (low : 1 ≤ Format.double.worth a / Format.double.worth b * 2 ^ 1000)
    (high : Format.double.worth a / Format.double.worth b < 2 ^ 1000) :
    div a b < Format.double.infinity ∧
      Near (1 / 2 ^ 53) (Format.double.worth (div a b))
        (Format.double.worth a / Format.double.worth b) := by
  refine near_double (Format.double.significand_pos hb) ?_ low high
  rw [Format.worth_eq, Format.worth_eq, mul_div_mul_comm, ← zpow_sub₀ two_ne_zero, mul_assoc,
    ← zpow_natCast, ← zpow_add₀ two_ne_zero]
  congr 2
  omega

/-! ### Scaling -/

theorem power_eq {e : ℕ} (h : e ≤ greatestPower) : power e = ofNat (10 ^ e) := by
  have h' : e < greatestPower + 1 := by omega
  simp [power, powers, Array.getD, h']

/-- The powers of ten that are used are a few hundred bits long at most. -/
theorem ten_pow_le {e : ℕ} (h : e ≤ 100) : (10 : ℚ) ^ e ≤ 2 ^ 400 := by
  calc (10 : ℚ) ^ e ≤ (2 ^ 4) ^ e := pow_le_pow_left₀ (by norm_num) (by norm_num) e
    _ = 2 ^ (4 * e) := (pow_mul ..).symm
    _ ≤ 2 ^ 400 := pow_le_pow_right₀ one_le_two (by omega)

theorem near_power {e : ℕ} (h : e ≤ 100) :
    power e < Format.double.infinity ∧
      Near (1 / 2 ^ 53) (Format.double.worth (power e)) (10 ^ e) := by
  have small := (ten_pow_le h).trans_lt (pow_lt_pow_right₀ one_lt_two (by omega : 400 < 1000))
  rw [power_eq (h.trans (by decide))]
  have := near_ofNat (n := 10 ^ e) (by positivity) (by exact_mod_cast small)
  simpa using this

/-! ### Operations on approximations -/

section Approximations

variable {a b : ℕ} {x y : ℚ}

/-- What approximates a moderate number is moderate itself. -/
theorem bounds_of_near (h : Near (1 / 2 ^ 53) (Format.double.worth a) x) (hx : 1 ≤ x)
    (hx' : x ≤ 2 ^ 400) : 1 / 2 ≤ Format.double.worth a ∧ Format.double.worth a ≤ 2 ^ 401 := by
  have x_nonneg : 0 ≤ x := zero_le_one.trans hx
  have half := h.half_le x_nonneg (by norm_num)
  have twice := h.le_two_mul x_nonneg (by norm_num)
  refine ⟨by linarith, ?_⟩
  calc Format.double.worth a ≤ 2 * x := twice
    _ ≤ 2 * 2 ^ 400 := mul_le_mul_of_nonneg_left hx' zero_le_two
    _ = 2 ^ 401 := by rw [← pow_succ']

theorem near_mul_of_near (left : Near (1 / 2 ^ 53) (Format.double.worth a) x)
    (right : Near (1 / 2 ^ 53) (Format.double.worth b) y) (hx : 1 ≤ x) (hy : 1 ≤ y)
    (hx' : x ≤ 2 ^ 400) (hy' : y ≤ 2 ^ 400) :
    mul a b < Format.double.infinity ∧
      Near (1 / 2 ^ 49) (Format.double.worth (mul a b)) (x * y) := by
  have x_nonneg : 0 ≤ x := zero_le_one.trans hx
  have y_nonneg : 0 ≤ y := zero_le_one.trans hy
  obtain ⟨a_low, a_high⟩ := bounds_of_near left hx hx'
  obtain ⟨b_low, b_high⟩ := bounds_of_near right hy hy'
  have exact_near := left.mul right (by norm_num) x_nonneg (Format.double.worth_nonneg b)
  have low : 1 ≤ Format.double.worth a * Format.double.worth b * 2 ^ 1000 := by
    have quarter : (1 / 2 : ℚ) * (1 / 2) ≤ Format.double.worth a * Format.double.worth b :=
      mul_le_mul a_low b_low (by norm_num) (Format.double.worth_nonneg a)
    have four : (4 : ℚ) ≤ 2 ^ 1000 := by
      calc (4 : ℚ) = 2 ^ 2 := by norm_num
        _ ≤ 2 ^ 1000 := pow_le_pow_right₀ one_le_two (by omega)
    calc (1 : ℚ) = 1 / 2 * (1 / 2) * 4 := by norm_num
      _ ≤ _ := mul_le_mul quarter four (by norm_num) (by linarith)
  have high : Format.double.worth a * Format.double.worth b < 2 ^ 1000 := by
    calc Format.double.worth a * Format.double.worth b
        ≤ 2 ^ 401 * 2 ^ 401 :=
          mul_le_mul a_high b_high (Format.double.worth_nonneg b) (by positivity)
      _ = 2 ^ 802 := by rw [← pow_add]
      _ < 2 ^ 1000 := pow_lt_pow_right₀ one_lt_two (by omega)
  obtain ⟨finite, rounded⟩ := near_mul low high
  exact ⟨finite, (rounded.trans exact_near (by norm_num)).mono (mul_nonneg x_nonneg y_nonneg)
    (by norm_num)⟩

theorem near_div_of_near (left : Near (1 / 2 ^ 53) (Format.double.worth a) x)
    (right : Near (1 / 2 ^ 53) (Format.double.worth b) y) (hx : 1 ≤ x) (hy : 1 ≤ y)
    (hx' : x ≤ 2 ^ 400) (hy' : y ≤ 2 ^ 400) :
    div a b < Format.double.infinity ∧
      Near (1 / 2 ^ 49) (Format.double.worth (div a b)) (x / y) := by
  have x_nonneg : 0 ≤ x := zero_le_one.trans hx
  have y_pos : 0 < y := zero_lt_one.trans_le hy
  obtain ⟨a_low, a_high⟩ := bounds_of_near left hx hx'
  obtain ⟨b_low, b_high⟩ := bounds_of_near right hy hy'
  have b_pos : 0 < Format.double.worth b := by linarith
  have exact_near := left.mul (right.inv y_pos (by norm_num)) (by norm_num) x_nonneg
    (inv_nonneg.2 b_pos.le)
  rw [← div_eq_mul_inv, ← div_eq_mul_inv] at exact_near
  have half : (2 : ℚ) ^ 999 = 1 / 2 * 2 ^ (999 + 1) := by
    rw [pow_succ' 2 999, ← mul_assoc, one_div, inv_mul_cancel₀ two_ne_zero, one_mul]
  have low : 1 ≤ Format.double.worth a / Format.double.worth b * 2 ^ 1000 := by
    rw [div_mul_eq_mul_div, one_le_div b_pos]
    calc Format.double.worth b ≤ 2 ^ 401 := b_high
      _ ≤ 2 ^ 999 := pow_le_pow_right₀ one_le_two (by omega)
      _ = 1 / 2 * 2 ^ 1000 := half
      _ ≤ Format.double.worth a * 2 ^ 1000 :=
        mul_le_mul_of_nonneg_right a_low (by positivity)
  have high : Format.double.worth a / Format.double.worth b < 2 ^ 1000 := by
    rw [div_lt_iff₀ b_pos]
    calc Format.double.worth a ≤ 2 ^ 401 := a_high
      _ < 2 ^ 999 := pow_lt_pow_right₀ one_lt_two (by omega)
      _ = 2 ^ 1000 * (1 / 2) := half.trans (mul_comm _ _)
      _ ≤ 2 ^ 1000 * Format.double.worth b :=
        mul_le_mul_of_nonneg_left b_low (by positivity)
  obtain ⟨finite, rounded⟩ := near_div (Format.double.pos_of_worth_pos b_pos) low high
  exact ⟨finite, (rounded.trans exact_near (by norm_num)).mono (div_nonneg x_nonneg y_pos.le)
    (by norm_num)⟩

end Approximations

/-! ### Scaling a decimal -/

/-- A decimal that is not zero and has a moderate exponent is scaled to a finite number, which is
off by at most `2 ^ -49` of the decimal. -/
theorem near_scale {significand : ℕ} {exponent : ℤ} (positive : 0 < significand)
    (small : significand < 2 ^ 64) (low : -100 ≤ exponent) (high : exponent ≤ 100) :
    ∃ index, scale significand exponent = some index ∧ index < Format.double.infinity ∧
      Near (1 / 2 ^ 49) (Format.double.worth index) (significand * 10 ^ exponent) := by
  have one_le : (1 : ℚ) ≤ significand := by exact_mod_cast positive
  have lt : (significand : ℚ) < 2 ^ 64 := by exact_mod_cast small
  have le : (significand : ℚ) ≤ 2 ^ 400 :=
    lt.le.trans (pow_le_pow_right₀ one_le_two (by omega))
  obtain ⟨-, near⟩ := near_ofNat positive (lt.trans (pow_lt_pow_right₀ one_lt_two (by omega)))
  have nonzero : ofNat significand ≠ 0 := by
    refine (Format.double.pos_of_worth_pos ?_).ne'
    have := near.half_le (zero_le_one.trans one_le) (by norm_num)
    linarith
  have one_le_pow (e : ℕ) : (1 : ℚ) ≤ 10 ^ e := one_le_pow₀ (by norm_num)
  match exponent with
  -- such an exponent is in the table of powers, so one operation is all
  | .ofNat e =>
    rw [Int.ofNat_eq_natCast] at high ⊢
    have he : e ≤ 100 := by omega
    obtain ⟨finite, result⟩ := near_mul_of_near near (near_power he).2 one_le (one_le_pow e) le
      (ten_pow_le he)
    refine ⟨mul (ofNat significand) (power e), ?_, finite, by rwa [zpow_natCast]⟩
    have in_table : ¬greatestPower < e := by
      simp only [greatestPower]
      omega
    simp only [scale, if_neg nonzero, if_neg in_table, if_pos finite]
  | .negSucc e =>
    have he : e + 1 ≤ 100 := by omega
    obtain ⟨finite, result⟩ := near_div_of_near near (near_power he).2 one_le (one_le_pow _) le
      (ten_pow_le he)
    have once : e / greatestPower = 0 := Nat.div_eq_of_lt (by simp only [greatestPower]; omega)
    refine ⟨div (ofNat significand) (power (e + 1)), ?_, finite, ?_⟩
    · simp only [scale, once, divGreatest, Nat.mul_zero, Nat.sub_zero]
    · rwa [zpow_negSucc, ← div_eq_mul_inv]

/-- Zero is scaled to zero. -/
theorem scale_zero {exponent : ℤ} (low : -100 ≤ exponent) (high : exponent ≤ 100) :
    scale 0 exponent = some 0 := by
  have zero : ofNat 0 = 0 := rfl
  match exponent with
  | .ofNat e => simp only [scale, zero, if_true]
  | .negSucc e =>
    have once : e / greatestPower = 0 := Nat.div_eq_of_lt (by simp only [greatestPower]; omega)
    simp only [scale, zero, once, divGreatest, div]
    rfl

end ShowControl.Json.Number
