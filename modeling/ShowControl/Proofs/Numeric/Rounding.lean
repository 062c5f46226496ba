import Mathlib.Algebra.Order.Field.Basic
import Mathlib.Data.Rat.Cast.Order
import Mathlib.Tactic.FieldSimp
import Mathlib.Tactic.Linarith
import Mathlib.Tactic.NormNum
import Mathlib.Tactic.Positivity
import Mathlib.Tactic.Ring
import ShowControl.Numeric.Binary

/-!
# How far rounding goes

The numbers of a binary format are spaced evenly within a binade, and `Format.nearest` goes to the
nearest of them. Two consequences are all that the rest of the library uses:

* `near_steps_nearestScaled`: a ratio that is neither too small nor too great is changed by a
  rounding by at most half a unit of the last place, in proportion to itself. Several roundings in
  a row are then accounted for by `Near`, a relative distance that products, quotients and chains
  of approximations add up.
* `nearestScaled_eq_of_abs_sub_lt`: whatever is less than a quarter of a unit of the last place
  from a number rounds to that very number. A quarter, because below a power of two the numbers are
  twice as dense.

The first needs the spacing at the *result*, the second the spacing at the *number aimed for*; both
read it off `nearest_eq`, which says that any shift that brings the ratio into the range of
significands is the shift that `Format.nearest` takes.
-/

namespace ShowControl.Numeric

/-! ### Relative distance -/

/-- The distance of `x` from `y` is at most `δ` times `y`. -/
def Near (δ x y : ℚ) : Prop := |x - y| ≤ δ * y

namespace Near

variable {δ ε x x' y y' z : ℚ}

theorem mono (h : Near δ x y) (hy : 0 ≤ y) (le : δ ≤ ε) : Near ε x y :=
  h.trans (mul_le_mul_of_nonneg_right le hy)

/-- What is near to a positive number, and not too far, is at least half of it. -/
theorem half_le (h : Near δ x y) (hy : 0 ≤ y) (small : δ ≤ 1 / 2) : y / 2 ≤ x := by
  have below := (abs_le.1 h).1
  have := mul_le_mul_of_nonneg_right small hy
  linarith

theorem le_two_mul (h : Near δ x y) (hy : 0 ≤ y) (small : δ ≤ 1) : x ≤ 2 * y := by
  have above := (abs_le.1 h).2
  have := mul_le_mul_of_nonneg_right small hy
  linarith

/-- Approximations of approximations. -/
theorem trans (first : Near δ x y) (second : Near ε y z) (hδ : 0 ≤ δ) :
    Near (δ + ε + δ * ε) x z := by
  have hy : y ≤ z + ε * z := by
    have := (abs_le.1 second).2
    linarith
  calc |x - z| ≤ |x - y| + |y - z| := abs_sub_le _ _ _
    _ ≤ δ * y + ε * z := add_le_add first second
    _ ≤ δ * (z + ε * z) + ε * z := by
      have := mul_le_mul_of_nonneg_left hy hδ
      linarith
    _ = (δ + ε + δ * ε) * z := by ring

theorem mul (left : Near δ x y) (right : Near ε x' y') (hδ : 0 ≤ δ) (hy : 0 ≤ y)
    (hx' : 0 ≤ x') : Near (δ + ε + δ * ε) (x * x') (y * y') := by
  have first : Near δ (x * x') (y * x') := by
    have := mul_le_mul_of_nonneg_right left hx'
    rw [Near, ← sub_mul, abs_mul, abs_of_nonneg hx', ← mul_assoc]
    exact this
  have second : Near ε (y * x') (y * y') := by
    have := mul_le_mul_of_nonneg_left right hy
    rw [Near, ← mul_sub, abs_mul, abs_of_nonneg hy]
    linarith
  exact first.trans second hδ

/-- The reciprocal of an approximation. -/
theorem inv (h : Near δ x y) (hy : 0 < y) (small : δ ≤ 1 / 2) : Near (2 * δ) x⁻¹ y⁻¹ := by
  have half := h.half_le hy.le small
  have hx : 0 < x := by linarith
  have eq : x⁻¹ - y⁻¹ = (y - x) * (x⁻¹ * y⁻¹) := by
    field_simp
  have positive : 0 < x⁻¹ * y⁻¹ := by positivity
  rw [Near, eq, abs_mul, abs_of_pos positive, abs_sub_comm]
  have twice : y * x⁻¹ ≤ 2 := by
    rw [← div_eq_mul_inv, div_le_iff₀ hx]
    linarith
  have hδ : 0 ≤ δ := by
    by_contra negative
    have := mul_neg_of_neg_of_pos (not_le.1 negative) hy
    exact absurd ((abs_nonneg _).trans h) (not_le.2 this)
  calc |x - y| * (x⁻¹ * y⁻¹) ≤ δ * y * (x⁻¹ * y⁻¹) := mul_le_mul_of_nonneg_right h positive.le
    _ = δ * (y * x⁻¹) * y⁻¹ := by ring
    _ ≤ δ * 2 * y⁻¹ :=
      mul_le_mul_of_nonneg_right (mul_le_mul_of_nonneg_left twice hδ) (inv_pos.2 hy).le
    _ = 2 * δ * y⁻¹ := by ring

end Near

namespace Format

/-! ### Rounding to a whole number -/

theorem abs_roundHalfEven_sub_le (n : ℕ) {d : ℕ} (hd : 0 < d) :
    |(roundHalfEven n d : ℚ) - n / d| ≤ 1 / 2 := by
  have hd' : (0 : ℚ) < d := by exact_mod_cast hd
  have split_n : (n : ℚ) / d = (n / d : ℕ) + (n % d : ℕ) / d := by
    rw [div_eq_iff hd'.ne', add_mul, div_mul_cancel₀ _ hd'.ne']
    exact_mod_cast (Nat.div_add_mod' n d).symm
  have rest : ((n % d : ℕ) : ℚ) / d < 1 := by
    rw [div_lt_one hd']
    exact_mod_cast Nat.mod_lt n hd
  have rest_nonneg : (0 : ℚ) ≤ ((n % d : ℕ) : ℚ) / d := by positivity
  rw [split_n]
  simp only [roundHalfEven]
  -- it goes up only from a half on, and stays only up to a half
  split
  · next up =>
    have half : (1 : ℚ) / 2 ≤ ((n % d : ℕ) : ℚ) / d := by
      rw [div_le_div_iff₀ two_pos hd']
      exact_mod_cast (by omega : 1 * d ≤ n % d * 2)
    push_cast
    rw [abs_le]
    constructor <;> linarith
  · next down =>
    have half : ((n % d : ℕ) : ℚ) / d ≤ 1 / 2 := by
      rw [div_le_div_iff₀ hd' two_pos]
      exact_mod_cast (by omega : n % d * 2 ≤ 1 * d)
    rw [abs_le]
    constructor <;> linarith

theorem roundHalfEven_eq_of_abs_sub_lt {n d m : ℕ} (hd : 0 < d)
    (h : |(n : ℚ) / d - m| < 1 / 2) : roundHalfEven n d = m := by
  have close : |((roundHalfEven n d : ℤ) : ℚ) - (m : ℤ)| < 1 := by
    have := abs_roundHalfEven_sub_le n hd
    push_cast
    calc |(roundHalfEven n d : ℚ) - m|
        ≤ |(roundHalfEven n d : ℚ) - n / d| + |(n : ℚ) / d - m| := abs_sub_le _ _ _
      _ < 1 := by linarith
  have : |(roundHalfEven n d : ℤ) - m| < 1 := by exact_mod_cast close
  have := Int.abs_lt_one_iff.1 this
  omega

/-! ### The binade of a ratio -/

variable (f : Format)

theorem two_pow_le_div_iff (n : ℕ) {d : ℕ} (hd : 0 < d) (k : ℕ) :
    (2 : ℚ) ^ k ≤ n / d ↔ 2 ^ k ≤ n / d := by
  rw [le_div_iff₀ (by exact_mod_cast hd), Nat.le_div_iff_mul_le hd]
  norm_cast

/-- The shift of `Format.nearest` brings the ratio below twice the hidden bit, and not below the
hidden bit unless it is zero. -/
theorem log2_shift_bounds (n : ℕ) {d : ℕ} (hd : 0 < d) :
    ((n / d).log2 - f.fractionBits = 0 ∨
        (2 : ℚ) ^ (f.fractionBits + ((n / d).log2 - f.fractionBits)) ≤ n / d) ∧
      (n : ℚ) / d < 2 ^ (f.fractionBits + 1 + ((n / d).log2 - f.fractionBits)) := by
  constructor
  · rcases Nat.eq_zero_or_pos ((n / d).log2 - f.fractionBits) with zero | pos
    · exact Or.inl zero
    · right
      rw [two_pow_le_div_iff n hd, Nat.add_sub_of_le (by omega)]
      refine Nat.log2_self_le ?_
      intro none
      rw [none] at pos
      simp at pos
  · rw [← not_le, two_pow_le_div_iff n hd, not_le]
    exact Nat.lt_of_lt_of_le Nat.lt_log2_self (Nat.pow_le_pow_right two_pos (by omega))

/-- Those bounds leave a single shift. -/
theorem log2_shift_eq {n d s : ℕ} (hd : 0 < d)
    (low : s = 0 ∨ (2 : ℚ) ^ (f.fractionBits + s) ≤ n / d)
    (high : (n : ℚ) / d < 2 ^ (f.fractionBits + 1 + s)) :
    (n / d).log2 - f.fractionBits = s := by
  have above : n / d < 2 ^ (f.fractionBits + 1 + s) := by
    rwa [← not_le, two_pow_le_div_iff n hd, not_le] at high
  have le : (n / d).log2 - f.fractionBits ≤ s := by
    by_cases none : n / d = 0
    · simp [none]
    · have := (Nat.log2_lt none).2 above
      omega
  rcases low with zero | low
  · omega
  · rw [two_pow_le_div_iff n hd] at low
    have none : n / d ≠ 0 := (Nat.lt_of_lt_of_le (Nat.two_pow_pos _) low).ne'
    have := (Nat.le_log2 none).2 low
    omega

/-- The rounding of a ratio, by any shift that brings it into the range of significands. -/
theorem nearest_eq {n d s : ℕ} (hd : 0 < d)
    (low : s = 0 ∨ (2 : ℚ) ^ (f.fractionBits + s) ≤ n / d)
    (high : (n : ℚ) / d < 2 ^ (f.fractionBits + 1 + s)) :
    f.nearest n d =
      min (s * 2 ^ f.fractionBits + roundHalfEven n (d * 2 ^ s)) f.infinity := by
  simp only [nearest, Nat.pow_eq, log2_shift_eq f hd low high]

/-- A significand in its binade, where the hidden bit doubled stands for the next binade. -/
theorem steps_add {s m : ℕ} (low : s = 0 ∨ 2 ^ f.fractionBits ≤ m)
    (high : m ≤ 2 ^ (f.fractionBits + 1)) :
    f.steps (s * 2 ^ f.fractionBits + m) = m * 2 ^ s := by
  have positive := Nat.two_pow_pos f.fractionBits
  rw [Nat.pow_succ] at high
  simp only [steps, significand, doublings, Nat.pow_eq]
  generalize 2 ^ f.fractionBits = p at *
  rcases Nat.lt_or_ge m p with below | hidden
  · -- without the hidden bit there is no exponent to take off
    obtain rfl : s = 0 := low.resolve_right (by omega)
    simp [Nat.div_eq_of_lt below, Nat.mod_eq_of_lt below]
  · rcases Nat.lt_or_ge m (2 * p) with within | last
    · obtain ⟨rest, rfl⟩ := Nat.exists_eq_add_of_le hidden
      have form : s * p + (p + rest) = rest + p * (s + 1) := by ring
      rw [form, Nat.add_mul_div_left _ _ positive, Nat.add_mul_mod_self_left,
        Nat.div_eq_of_lt (by omega), Nat.mod_eq_of_lt (by omega)]
      simp
    · -- the significand has run over into the next binade
      obtain rfl : m = 2 * p := by omega
      have form : s * p + 2 * p = 0 + p * (s + 2) := by ring
      rw [form, Nat.add_mul_div_left _ _ positive, Nat.add_mul_mod_self_left, Nat.zero_div,
        Nat.zero_mod]
      simp [Nat.pow_succ]
      ring

/-- A rounded significand stays within the range that `steps_add` covers. -/
theorem roundHalfEven_range {n d s : ℕ} (hd : 0 < d)
    (low : s = 0 ∨ (2 : ℚ) ^ (f.fractionBits + s) ≤ n / d)
    (high : (n : ℚ) / d < 2 ^ (f.fractionBits + 1 + s)) :
    (s = 0 ∨ 2 ^ f.fractionBits ≤ roundHalfEven n (d * 2 ^ s)) ∧
      roundHalfEven n (d * 2 ^ s) ≤ 2 ^ (f.fractionBits + 1) := by
  have hscale : (0 : ℚ) < 2 ^ s := by positivity
  have hd' : (0 : ℚ) < d := by exact_mod_cast hd
  have close := abs_le.1 (abs_roundHalfEven_sub_le n (Nat.mul_pos hd (Nat.two_pow_pos s)))
  push_cast at close
  rw [← div_div] at close
  constructor
  · refine low.imp_right fun low ↦ ?_
    have : (2 : ℚ) ^ f.fractionBits ≤ n / d / 2 ^ s := by
      rwa [le_div_iff₀ hscale, ← pow_add]
    have lt : ((2 ^ f.fractionBits : ℕ) : ℚ) < (roundHalfEven n (d * 2 ^ s) + 1 : ℕ) := by
      push_cast
      linarith
    have : 2 ^ f.fractionBits < roundHalfEven n (d * 2 ^ s) + 1 := by exact_mod_cast lt
    omega
  · have : (n : ℚ) / d / 2 ^ s < 2 ^ (f.fractionBits + 1) := by
      rwa [div_lt_iff₀ hscale, ← pow_add]
    have lt : (roundHalfEven n (d * 2 ^ s) : ℚ) < (2 ^ (f.fractionBits + 1) + 1 : ℕ) := by
      push_cast
      linarith
    have : roundHalfEven n (d * 2 ^ s) < 2 ^ (f.fractionBits + 1) + 1 := by exact_mod_cast lt
    omega

/-! ### What a rounding changes -/

/-- A ratio that is at least the least normal number and not in the last binade is rounded to a
finite number, at a relative distance of at most half a unit of the last place. -/
theorem near_steps_nearest {n d : ℕ} (hd : 0 < d) (normal : (2 : ℚ) ^ f.fractionBits ≤ n / d)
    (bounded : (n : ℚ) / d < 2 ^ (f.fractionBits + (2 ^ f.exponentBits - 3))) :
    f.nearest n d < f.infinity ∧
      Near (1 / 2 ^ (f.fractionBits + 1)) (f.steps (f.nearest n d)) (n / d) := by
  obtain ⟨low, high⟩ := f.log2_shift_bounds n hd
  generalize (n / d).log2 - f.fractionBits = s at low high
  have low' : (2 : ℚ) ^ (f.fractionBits + s) ≤ n / d := by
    rcases low with rfl | low
    · exact normal
    · exact low
  have small : s < 2 ^ f.exponentBits - 3 := by
    have : (2 : ℚ) ^ (f.fractionBits + s) < 2 ^ (f.fractionBits + (2 ^ f.exponentBits - 3)) :=
      lt_of_le_of_lt low' bounded
    have := (pow_lt_pow_iff_right₀ (by norm_num : (1 : ℚ) < 2)).1 this
    omega
  obtain ⟨hidden, last⟩ := f.roundHalfEven_range hd (.inr low') high
  have finite : s * 2 ^ f.fractionBits + roundHalfEven n (d * 2 ^ s) < f.infinity := by
    have room : s + 3 ≤ 2 ^ f.exponentBits - 1 := by omega
    have := Nat.mul_le_mul_right (2 ^ f.fractionBits) room
    have positive := Nat.two_pow_pos f.fractionBits
    rw [Nat.pow_succ] at last
    simp only [infinity, Nat.pow_eq]
    rw [Nat.add_mul] at this
    omega
  rw [f.nearest_eq hd (.inr low') high, Nat.min_eq_left finite.le]
  refine ⟨finite, ?_⟩
  rw [f.steps_add hidden last, Near]
  have hscale : (0 : ℚ) < 2 ^ s := by positivity
  have close := abs_roundHalfEven_sub_le n (Nat.mul_pos hd (Nat.two_pow_pos s))
  push_cast at close ⊢
  rw [← div_div] at close
  -- the error of the whole number, scaled back, against the least ratio of the binade
  calc |(roundHalfEven n (d * 2 ^ s) : ℚ) * 2 ^ s - n / d|
      = |(roundHalfEven n (d * 2 ^ s) : ℚ) - n / d / 2 ^ s| * 2 ^ s := by
        nth_rewrite 3 [← abs_of_pos hscale]
        rw [← abs_mul, sub_mul, div_mul_cancel₀ _ hscale.ne']
    _ ≤ 1 / 2 * 2 ^ s := mul_le_mul_of_nonneg_right close hscale.le
    _ = 1 / 2 ^ (f.fractionBits + 1) * 2 ^ (f.fractionBits + s) := by
        rw [pow_succ, pow_add]
        field_simp
    _ ≤ 1 / 2 ^ (f.fractionBits + 1) * (n / d) := mul_le_mul_of_nonneg_left low' (by positivity)

theorem doublings_mul_add_significand (index : ℕ) :
    f.doublings index * 2 ^ f.fractionBits + f.significand index = index := by
  have parts := Nat.div_add_mod' index (2 ^ f.fractionBits)
  simp only [doublings, significand, Nat.pow_eq]
  split
  · next low =>
    rw [low] at parts
    rw [low]
    omega
  · next high =>
    obtain ⟨k, hk⟩ := Nat.exists_eq_succ_of_ne_zero high
    rw [hk] at parts
    rw [hk, Nat.succ_sub_one, ← Nat.add_assoc, ← Nat.succ_mul]
    exact parts

theorem significand_lt (index : ℕ) : f.significand index < 2 ^ (f.fractionBits + 1) := by
  have := Nat.mod_lt index (Nat.two_pow_pos f.fractionBits)
  rw [Nat.pow_succ]
  simp only [significand, Nat.pow_eq]
  split <;> omega

/-- An index is doubled at all only with its hidden bit. -/
theorem doublings_eq_zero_or (index : ℕ) :
    f.doublings index = 0 ∨ 2 ^ f.fractionBits ≤ f.significand index := by
  simp only [significand, doublings, Nat.pow_eq]
  split
  · next low => exact Or.inl (by rw [low])
  · exact Or.inr (Nat.le_add_right _ _)

/-- A multiple of a power of two is rounded to by what is less than half the power from it. -/
theorem roundHalfEven_shift_eq {n d t k : ℕ} (hd : 0 < d)
    (close : |(n : ℚ) / d - k * 2 ^ t| < 2 ^ t / 2) : roundHalfEven n (d * 2 ^ t) = k := by
  have ht : (0 : ℚ) < 2 ^ t := by positivity
  refine roundHalfEven_eq_of_abs_sub_lt (Nat.mul_pos hd (Nat.two_pow_pos t)) ?_
  push_cast
  rw [← div_div, ← mul_lt_mul_iff_of_pos_right ht]
  nth_rewrite 2 [← abs_of_pos ht]
  rw [← abs_mul, sub_mul, div_mul_cancel₀ _ ht.ne']
  linarith

/-- Just below a power of two the numbers are twice as dense, and still the ratio rounds to it. -/
theorem nearest_eq_of_lt_two_pow {n d t : ℕ} (hd : 0 < d)
    (below : (n : ℚ) / d < 2 ^ (f.fractionBits + (t + 1)))
    (close : |(n : ℚ) / d - 2 ^ f.fractionBits * 2 ^ (t + 1)| < 2 ^ (t + 1) / 4) :
    f.nearest n d = min ((t + 1) * 2 ^ f.fractionBits + 2 ^ f.fractionBits) f.infinity := by
  have ht : (0 : ℚ) < 2 ^ t := by positivity
  rw [pow_succ] at close
  have near := abs_lt.1 close
  have low : (2 : ℚ) ^ (f.fractionBits + t) ≤ n / d := by
    have one_le : (1 : ℚ) ≤ 2 ^ f.fractionBits := one_le_pow₀ (by norm_num)
    have := mul_le_mul_of_nonneg_right one_le ht.le
    rw [pow_add]
    linarith
  have high : (n : ℚ) / d < 2 ^ (f.fractionBits + 1 + t) := by
    rwa [Nat.add_right_comm, Nat.add_assoc]
  -- the significand overflows into the hidden bit of the next binade
  have significand : roundHalfEven n (d * 2 ^ t) = 2 ^ (f.fractionBits + 1) := by
    refine roundHalfEven_shift_eq hd ?_
    push_cast
    rw [pow_succ, mul_assoc, mul_comm 2]
    linarith
  have same : t * 2 ^ f.fractionBits + 2 ^ (f.fractionBits + 1) =
      (t + 1) * 2 ^ f.fractionBits + 2 ^ f.fractionBits := by
    rw [Nat.pow_succ, Nat.succ_mul]
    omega
  rw [f.nearest_eq hd (.inr low) high, significand, same]

/-- Where the ratio is in a lower binade than the number aimed for, that number is the least of its
binade. -/
theorem eq_two_pow_of_lt {m s : ℕ} {x : ℚ} (hidden : 2 ^ f.fractionBits ≤ m)
    (below : x < 2 ^ (f.fractionBits + s)) (close : |x - m * 2 ^ s| < 2 ^ s / 4) :
    m = 2 ^ f.fractionBits := by
  have hscale : (0 : ℚ) < 2 ^ s := by positivity
  refine Nat.le_antisymm (Nat.lt_succ_iff.1 ?_) hidden
  have scaled : (m : ℚ) * 2 ^ s < (2 ^ f.fractionBits + 1) * 2 ^ s := by
    have := (abs_lt.1 close).1
    rw [pow_add] at below
    rw [add_mul]
    linarith
  have := lt_of_mul_lt_mul_right scaled hscale.le
  exact_mod_cast this

/-- What lies within a quarter of a unit of the last place of a finite number rounds to it. -/
theorem nearest_eq_of_abs_sub_lt {n d index : ℕ} (hd : 0 < d) (finite : index < f.infinity)
    (close : |(n : ℚ) / d - f.steps index| < 2 ^ f.doublings index / 4) :
    f.nearest n d = index := by
  have steps_eq : f.steps index = f.significand index * 2 ^ f.doublings index := rfl
  have index_eq := f.doublings_mul_add_significand index
  have room := f.significand_lt index
  have hidden := f.doublings_eq_zero_or index
  generalize f.significand index = m at *
  generalize f.doublings index = s at *
  have hscale : (0 : ℚ) < 2 ^ s := by positivity
  rw [steps_eq] at close
  push_cast at close
  by_cases low : s = 0 ∨ (2 : ℚ) ^ (f.fractionBits + s) ≤ n / d
  · have high : (n : ℚ) / d < 2 ^ (f.fractionBits + 1 + s) := by
      have above := (abs_lt.1 close).2
      have : ((m : ℚ) + 1) * 2 ^ s ≤ 2 ^ (f.fractionBits + 1) * 2 ^ s :=
        mul_le_mul_of_nonneg_right (by exact_mod_cast room) hscale.le
      rw [pow_add]
      linarith
    have significand : roundHalfEven n (d * 2 ^ s) = m := roundHalfEven_shift_eq hd (by linarith)
    rw [f.nearest_eq hd low high, significand, index_eq, Nat.min_eq_left finite.le]
  · rw [not_or, not_le] at low
    obtain ⟨positive, below⟩ := low
    obtain ⟨t, rfl⟩ := Nat.exists_eq_succ_of_ne_zero positive
    obtain rfl := f.eq_two_pow_of_lt (hidden.resolve_left positive) below close
    push_cast at close
    rw [f.nearest_eq_of_lt_two_pow hd below close, index_eq, Nat.min_eq_left finite.le]

/-! ### The same for ratios times a power of two -/

theorem ratio_eq (n d : ℕ) (e : ℤ) :
    ((n * Nat.pow 2 e.toNat : ℕ) : ℚ) / (d * Nat.pow 2 (-e).toNat : ℕ) = n / d * 2 ^ e := by
  simp only [Nat.pow_eq]
  push_cast
  rw [mul_div_mul_comm]
  congr 1
  rw [div_eq_iff (by positivity), ← zpow_natCast, ← zpow_natCast, ← zpow_add₀ two_ne_zero]
  congr 1
  omega

theorem near_steps_nearestScaled {n d : ℕ} {e : ℤ} (hd : 0 < d)
    (normal : (2 : ℚ) ^ f.fractionBits ≤ n / d * 2 ^ e)
    (bounded : (n : ℚ) / d * 2 ^ e < 2 ^ (f.fractionBits + (2 ^ f.exponentBits - 3))) :
    f.nearestScaled n d e < f.infinity ∧
      Near (1 / 2 ^ (f.fractionBits + 1)) (f.steps (f.nearestScaled n d e)) (n / d * 2 ^ e) := by
  rw [f.nearestScaled_eq n hd.ne' e, ← ratio_eq]
  rw [← ratio_eq] at normal bounded
  exact f.near_steps_nearest (Nat.mul_pos hd (Nat.two_pow_pos _)) normal bounded

theorem nearestScaled_eq_of_abs_sub_lt {n d index : ℕ} {e : ℤ} (hd : 0 < d)
    (finite : index < f.infinity)
    (close : |(n : ℚ) / d * 2 ^ e - f.steps index| < 2 ^ f.doublings index / 4) :
    f.nearestScaled n d e = index := by
  rw [f.nearestScaled_eq n hd.ne' e]
  rw [← ratio_eq] at close
  exact f.nearest_eq_of_abs_sub_lt (Nat.mul_pos hd (Nat.two_pow_pos _)) finite close

/-- A ratio that is a finite number is not changed. -/
theorem nearestScaled_eq_of_eq {n d index : ℕ} {e : ℤ} (hd : 0 < d) (finite : index < f.infinity)
    (same : (n : ℚ) / d * 2 ^ e = f.steps index) : f.nearestScaled n d e = index := by
  refine f.nearestScaled_eq_of_abs_sub_lt hd finite ?_
  rw [same, sub_self, abs_zero]
  positivity

end Format

end ShowControl.Numeric
