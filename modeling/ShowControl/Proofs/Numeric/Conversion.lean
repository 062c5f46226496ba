import ShowControl.Proofs.Numeric.Rounding

/-!
# Widening and narrowing

What an index is worth as a rational number, and how numbers of 32 bits go through 64 bits:

* widening a finite number is exact (`widen_spec`, `worth_widen`), because every significand of 24
  bits is one of 53 bits in some binade;
* whatever is relatively near to a widened number narrows back to it
  (`convert_single_eq_of_near`). The number kept is the one wanted, bit for bit, and the bound,
  `2 ^ -40`, is far above what a few roundings of 64 bits add up to.
-/

namespace ShowControl.Numeric

namespace Format

/-- The worth of a finite index, as a rational number. -/
def worth (f : Format) (index : ℕ) : ℚ := f.steps index / 2 ^ f.unitBits

variable (f : Format)

theorem worth_nonneg (index : ℕ) : 0 ≤ f.worth index := by
  rw [worth]
  positivity

@[simp] theorem worth_zero : f.worth 0 = 0 := by
  simp [worth, steps, significand, Nat.zero_div, Nat.zero_mod]

theorem worth_eq (index : ℕ) :
    f.worth index = f.significand index * 2 ^ ((f.doublings index : ℤ) - f.unitBits) := by
  rw [worth, zpow_sub₀ two_ne_zero, zpow_natCast, zpow_natCast, steps, Nat.pow_eq]
  push_cast
  rw [mul_div_assoc]

/-- A number is zero only if its significand is. -/
theorem significand_pos {index : ℕ} (h : 0 < index) : 0 < f.significand index := by
  rcases f.doublings_eq_zero_or index with zero | hidden
  · have := f.doublings_mul_add_significand index
    rw [zero] at this
    omega
  · exact Nat.lt_of_lt_of_le (Nat.two_pow_pos _) hidden

theorem worth_pos {index : ℕ} (h : 0 < index) : 0 < f.worth index := by
  have : (0 : ℚ) < f.significand index := by exact_mod_cast f.significand_pos h
  rw [worth_eq]
  exact mul_pos this (zpow_pos two_pos _)

theorem pos_of_worth_pos {index : ℕ} (h : 0 < f.worth index) : 0 < index := by
  refine Nat.pos_of_ne_zero ?_
  rintro rfl
  simp at h

/-- A rounding, in terms of worth. The ratio stands in front of its power of two as the rounding
operations have it. -/
theorem near_worth_nearestScaled {n d : ℕ} {e : ℤ} {q : ℚ} (hd : 0 < d)
    (value : (n : ℚ) / d * 2 ^ e = q * 2 ^ f.unitBits)
    (normal : (2 : ℚ) ^ f.fractionBits ≤ q * 2 ^ f.unitBits)
    (bounded : q * 2 ^ f.unitBits < 2 ^ (f.fractionBits + (2 ^ f.exponentBits - 3))) :
    f.nearestScaled n d e < f.infinity ∧
      Near (1 / 2 ^ (f.fractionBits + 1)) (f.worth (f.nearestScaled n d e)) q := by
  rw [← value] at normal bounded
  obtain ⟨finite, near⟩ := f.near_steps_nearestScaled hd normal bounded
  refine ⟨finite, ?_⟩
  have unit : (0 : ℚ) < 2 ^ f.unitBits := by positivity
  rw [value, Near, ← mul_assoc] at near
  rw [Near, worth, ← mul_le_mul_iff_of_pos_right unit]
  refine le_of_eq_of_le ?_ near
  nth_rewrite 2 [← abs_of_pos unit]
  rw [← abs_mul, sub_mul, div_mul_cancel₀ _ unit.ne']

end Format

/-! ### Widening -/

/-- A number of at most 53 bits times a power of two is an index of 64 bits, within the range. -/
theorem exists_double_index {k e : ℕ} (hk : 0 < k) (small : k < 2 ^ 53) (low : 53 ≤ e)
    (high : e < 2000) :
    ∃ index, index < Format.double.infinity ∧ Format.double.steps index = k * 2 ^ e := by
  have below := Nat.log2_self_le hk.ne'
  have above := Nat.lt_log2_self (n := k)
  have bits : k.log2 < 53 := (Nat.log2_lt hk.ne').2 small
  -- shifted by what it lacks, the number has exactly 53 bits
  have hidden : 2 ^ 52 ≤ k * 2 ^ (52 - k.log2) := by
    calc 2 ^ 52 = 2 ^ k.log2 * 2 ^ (52 - k.log2) := by
          rw [← Nat.pow_add, Nat.add_sub_of_le (by omega)]
      _ ≤ k * 2 ^ (52 - k.log2) := Nat.mul_le_mul_right _ below
  have room : k * 2 ^ (52 - k.log2) ≤ 2 ^ 53 := by
    calc k * 2 ^ (52 - k.log2) ≤ 2 ^ (k.log2 + 1) * 2 ^ (52 - k.log2) :=
          Nat.mul_le_mul_right _ above.le
      _ = 2 ^ 53 := by
          rw [← Nat.pow_add]
          congr 1
          omega
  have shifted : k * 2 ^ (52 - k.log2) * 2 ^ (e - (52 - k.log2)) = k * 2 ^ e := by
    rw [Nat.mul_assoc, ← Nat.pow_add, Nat.add_sub_of_le (by omega)]
  refine ⟨(e - (52 - k.log2)) * 2 ^ 52 + k * 2 ^ (52 - k.log2), ?_, ?_⟩
  · have : e - (52 - k.log2) < 2000 := by omega
    have := Nat.mul_le_mul_right (2 ^ 52) (Nat.le_of_lt this)
    have limit : Format.double.infinity = 2047 * 2 ^ 52 := by decide
    rw [limit]
    omega
  · rw [← shifted]
    exact Format.double.steps_add (.inr hidden) room

/-- The exponents of 32 bits lie well within those of 64 bits. -/
theorem doublings_single_lt {index : ℕ} (finite : index < Format.single.infinity) :
    Format.single.doublings index < 254 := by
  have limit : Format.single.infinity = 255 * 2 ^ 23 := by decide
  have : Format.single.doublings index = index / 2 ^ 23 - 1 := rfl
  omega

/-- Widening a finite number keeps its sign and counts it exactly, in the finer steps. -/
theorem widen_spec {x : Single} (finite : x.isFinite = true) :
    (x.convert .double).negative = x.negative ∧ (x.convert .double).isFinite = true ∧
      Format.double.steps (x.convert .double).index =
        Format.single.significand x.index * 2 ^ (Format.single.doublings x.index + 925) := by
  have in_range : x.index < Format.single.infinity := by simpa [Binary.isFinite] using finite
  have exponent := doublings_single_lt in_range
  have form : x.convert .double = Binary.ofRatio .double x.negative
      (Format.single.significand x.index) 1
      (Format.single.doublings x.index + Format.double.unitBits - Format.single.unitBits) :=
    if_pos finite
  have units : ((Format.double.unitBits : ℤ) = 1074) ∧ ((Format.single.unitBits : ℤ) = 149) :=
    ⟨by decide, by decide⟩
  have scaled : (Format.single.doublings x.index + Format.double.unitBits
      - Format.single.unitBits : ℤ) = (Format.single.doublings x.index + 925 : ℕ) := by
    push_cast
    omega
  rw [form, scaled]
  -- sign and finiteness are read off; what is left is that nothing is rounded
  suffices rounded : Format.double.nearestScaled (Format.single.significand x.index) 1
      (Format.single.doublings x.index + 925 : ℕ) < Format.double.infinity ∧
      Format.double.steps (Format.double.nearestScaled (Format.single.significand x.index) 1
        (Format.single.doublings x.index + 925 : ℕ)) =
      Format.single.significand x.index * 2 ^ (Format.single.doublings x.index + 925) from
    ⟨rfl, decide_eq_true rounded.1, rounded.2⟩
  rcases Nat.eq_zero_or_pos (Format.single.significand x.index) with zero | positive
  · rw [zero, Nat.zero_mul]
    exact ⟨(by decide : 0 < Format.double.infinity), (by decide : Format.double.steps 0 = 0)⟩
  · obtain ⟨index, finite', value⟩ := exists_double_index positive
      (Nat.lt_trans (Format.single.significand_lt x.index) (by decide))
      (by omega : 53 ≤ Format.single.doublings x.index + 925) (by omega)
    have rounded : Format.double.nearestScaled (Format.single.significand x.index) 1
        (Format.single.doublings x.index + 925 : ℕ) = index := by
      refine Format.double.nearestScaled_eq_of_eq Nat.one_pos finite' ?_
      rw [value, zpow_natCast]
      push_cast
      rw [div_one]
    rw [rounded]
    exact ⟨finite', value⟩

theorem worth_widen {x : Single} (finite : x.isFinite = true) :
    Format.double.worth (x.convert .double).index = Format.single.worth x.index := by
  have units : Format.double.unitBits = Format.single.unitBits + 925 := by decide
  have fine : (0 : ℚ) < 2 ^ 925 := by positivity
  rw [Format.worth, (widen_spec finite).2.2, Format.worth, Format.steps, units, Nat.pow_add,
    ← Nat.mul_assoc, pow_add, Nat.pow_eq]
  simp only [Nat.cast_mul, Nat.cast_pow, Nat.cast_ofNat]
  rw [mul_div_mul_right _ _ fine.ne']

/-! ### Narrowing -/

/-- In steps of 32 bits, what is near to a number is within a quarter of the spacing there. -/
theorem abs_steps_sub_lt {q : ℚ} {index : ℕ}
    (near : Near (1 / 2 ^ 40) q (Format.single.worth index)) :
    |q * 2 ^ Format.single.unitBits - Format.single.steps index| <
      2 ^ Format.single.doublings index / 4 := by
  have unit : (0 : ℚ) < 2 ^ Format.single.unitBits := by positivity
  have target : (Format.single.steps index : ℚ) =
      Format.single.worth index * 2 ^ Format.single.unitBits :=
    (div_mul_cancel₀ _ unit.ne').symm
  have significand : (Format.single.significand index : ℚ) < 2 ^ 24 := by
    exact_mod_cast Format.single.significand_lt index
  have binade : (0 : ℚ) < 2 ^ Format.single.doublings index := by positivity
  rw [target, ← sub_mul, abs_mul, abs_of_pos unit]
  calc |q - Format.single.worth index| * 2 ^ Format.single.unitBits
      ≤ 1 / 2 ^ 40 * Format.single.worth index * 2 ^ Format.single.unitBits :=
        mul_le_mul_of_nonneg_right near unit.le
    _ = 1 / 2 ^ 40 * (Format.single.significand index * 2 ^ Format.single.doublings index) := by
        rw [mul_assoc, ← target, Format.steps, Nat.pow_eq]
        push_cast
        rfl
    _ ≤ 1 / 2 ^ 40 * (2 ^ 24 * 2 ^ Format.single.doublings index) := by gcongr
    _ < 2 ^ Format.single.doublings index / 4 := by
        rw [← mul_assoc]
        norm_num
        linarith

/-- What is near to a finite number of 32 bits, and has its sign, narrows to that number. -/
theorem convert_single_eq_of_near {x : Single} {y : Double} (finite : x.isFinite = true)
    (sign : y.negative = x.negative) (finite' : y.isFinite = true)
    (near : Near (1 / 2 ^ 40) (Format.double.worth y.index) (Format.single.worth x.index)) :
    y.convert .single = x := by
  have in_range : x.index < Format.single.infinity := by simpa [Binary.isFinite] using finite
  have form : y.convert .single = Binary.ofRatio .single y.negative
      (Format.double.significand y.index) 1
      (Format.double.doublings y.index + Format.single.unitBits - Format.double.unitBits) :=
    if_pos finite'
  have rounded : Format.single.nearestScaled (Format.double.significand y.index) 1
      (Format.double.doublings y.index + Format.single.unitBits - Format.double.unitBits) =
        x.index := by
    refine Format.single.nearestScaled_eq_of_abs_sub_lt Nat.one_pos in_range ?_
    have value : (Format.double.significand y.index : ℚ) / (1 : ℕ) *
        2 ^ ((Format.double.doublings y.index : ℤ) + Format.single.unitBits
          - Format.double.unitBits) =
        Format.double.worth y.index * 2 ^ Format.single.unitBits := by
      rw [Nat.cast_one, div_one, Format.worth_eq, mul_assoc, ← zpow_natCast,
        ← zpow_add₀ two_ne_zero, sub_add_eq_add_sub]
    rw [value]
    exact abs_steps_sub_lt near
  rw [form]
  simp only [Binary.ofRatio, rounded, sign]

end ShowControl.Numeric
