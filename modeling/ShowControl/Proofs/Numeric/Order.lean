import Mathlib.Algebra.Order.Ring.WithTop
import ShowControl.Proofs.Numeric.Conversion
import ShowControl.Scene.Level

/-!
# The order of the numbers

Numbers are compared by what they are worth, where the infinities are above and below all that is
finite and the two zeros are worth the same (`Binary.amount`). Since worth grows with the index
(`Format.strictMono_worth`), the comparison of two numbers is that of their signed indices
(`Binary.amount_le_amount_iff`), which is one of integers.
-/

namespace ShowControl.Numeric

namespace Format

variable (f : Format)

/-! ### Worth grows with the index -/

/-- The next index is one more of the significand, in whatever binade that is. -/
theorem steps_succ (index : ℕ) : f.steps (index + 1) = f.steps index + 2 ^ f.doublings index := by
  have place := f.doublings_mul_add_significand index
  have next : index + 1 =
      f.doublings index * 2 ^ f.fractionBits + (f.significand index + 1) := by omega
  have low : f.doublings index = 0 ∨ 2 ^ f.fractionBits ≤ f.significand index + 1 :=
    (f.doublings_eq_zero_or index).imp_right (Nat.le_add_right_of_le ·)
  rw [next, f.steps_add low (f.significand_lt index), Nat.succ_mul, steps, Nat.pow_eq]

theorem strictMono_worth : StrictMono f.worth := by
  refine strictMono_nat_of_lt_succ fun index ↦ ?_
  have more : (f.steps index : ℚ) < f.steps (index + 1) := by
    rw [steps_succ]
    exact_mod_cast Nat.lt_add_of_pos_right (Nat.two_pow_pos _)
  exact div_lt_div_of_pos_right more (by positivity)

/-- The index of the number one is that of the number one. -/
theorem worth_one (exponents : 2 ≤ f.exponentBits) : f.worth f.one = 1 := by
  have room : 2 ^ 1 ≤ 2 ^ (f.exponentBits - 1) := Nat.pow_le_pow_right two_pos (by omega)
  obtain ⟨s, exponent⟩ := Nat.exists_eq_add_of_le' room
  have place : f.one = s * 2 ^ f.fractionBits + 2 ^ f.fractionBits := by
    simp only [one, Nat.pow_eq, exponent]
    rw [← Nat.succ_mul]
    rfl
  have bits : f.unitBits = s + f.fractionBits := by
    simp only [unitBits, Nat.pow_eq, exponent]
    rfl
  have last : 2 ^ f.fractionBits ≤ 2 ^ (f.fractionBits + 1) :=
    Nat.pow_le_pow_right two_pos (Nat.le_succ _)
  rw [worth, place, f.steps_add (.inr le_rfl) last, bits, ← Nat.pow_add, Nat.add_comm s]
  push_cast
  exact div_self (by positivity)

/-- With their signs, finite numbers compare as their indices do. -/
theorem signed_worth_le_iff (negative negative' : Bool) (index index' : ℕ) :
    (if negative then -f.worth index else f.worth index) ≤
        (if negative' then -f.worth index' else f.worth index') ↔
      (if negative then -index else index : ℤ) ≤ (if negative' then -index' else index' : ℤ) := by
  have grows (a b : ℕ) : f.worth a ≤ f.worth b ↔ a ≤ b := f.strictMono_worth.le_iff_le
  have least := f.worth_nonneg
  cases negative <;> cases negative' <;> simp only [Bool.false_eq_true, if_false, if_true]
  · exact (grows index index').trans Int.ofNat_le.symm
  · constructor
    · intro le
      have zero := (grows index 0).1 (by linarith [least index', f.worth_zero])
      have zero' := (grows index' 0).1 (by linarith [least index, f.worth_zero])
      omega
    · intro le
      obtain ⟨rfl, rfl⟩ : index = 0 ∧ index' = 0 := by omega
      simp
  · exact iff_of_true (by linarith [least index, least index']) (by omega)
  · rw [neg_le_neg_iff, neg_le_neg_iff]
    exact (grows index' index).trans Int.ofNat_le.symm

end Format

namespace Binary

/-- What a number is worth, infinity included. -/
def amount {f : Format} (x : Binary f) : WithBot (WithTop ℚ) :=
  if x.isFinite then
    ((if x.negative then -f.worth x.index else f.worth x.index : ℚ) : WithTop ℚ)
  else if x.negative then ⊥
  else (⊤ : WithTop ℚ)

/-- The index with its sign, in which the two zeros are the same. -/
def rank {f : Format} (x : Binary f) : ℤ := if x.negative then -x.index else x.index

variable {x y : Single}

/-- Numbers compare as their ranks do. -/
theorem amount_le_amount_iff (hx : x.isNaN = false) (hy : y.isNaN = false) :
    x.amount ≤ y.amount ↔ x.rank ≤ y.rank := by
  have infinity : 0 < Format.single.infinity := by decide
  have signed := Format.single.signed_worth_le_iff x.negative y.negative x.index y.index
  simp only [isNaN, decide_eq_false_iff_not, not_lt] at hx hy
  simp only [amount, isFinite, decide_eq_true_eq, rank]
  by_cases finite : x.index < Format.single.infinity <;>
    by_cases finite' : y.index < Format.single.infinity <;>
    simp only [finite, finite', if_true, if_false]
  · rw [WithBot.coe_le_coe, WithTop.coe_le_coe, signed]
  all_goals
    cases x.negative <;> cases y.negative <;> simp <;> omega

@[simp] theorem amount_zero : (zero .single).amount = 0 := by
  have finite : (zero .single).isFinite = true := by decide
  rw [amount, if_pos finite]
  simp [zero]

@[simp] theorem amount_full : Level.full.value.amount = 1 := by
  have finite : Level.full.value.isFinite = true := by decide
  rw [amount, if_pos finite]
  simp [Level.full, Format.worth_one Format.single (by decide)]

/-- The number is one, and it is neither below zero nor above one. -/
structure IsLevel (x : Single) : Prop where
  number : x.isNaN = false
  nonneg : 0 ≤ x.amount
  le_one : x.amount ≤ 1

theorem nonneg_iff (number : x.isNaN = false) : 0 ≤ x.amount ↔ 0 ≤ x.rank := by
  rw [← amount_zero, amount_le_amount_iff (by decide) number]
  rfl

theorem le_one_iff (number : x.isNaN = false) : x.amount ≤ 1 ↔ x.rank ≤ Format.single.one := by
  rw [← amount_full, amount_le_amount_iff number (by decide)]
  rfl

theorem amount_nonpos (number : x.isNaN = false) (negative : x.negative = true) :
    x.amount ≤ 0 := by
  rw [← amount_zero, amount_le_amount_iff number (by decide), rank, if_pos negative]
  exact Int.neg_nonpos_of_nonneg (Int.natCast_nonneg _)

theorem amount_nonneg (number : x.isNaN = false) (positive : x.negative = false) :
    0 ≤ x.amount := by
  rw [nonneg_iff number, rank, if_neg (by simp [positive])]
  exact Int.natCast_nonneg _

theorem inUnit_iff_rank : x.inUnit = true ↔ 0 ≤ x.rank ∧ x.rank ≤ Format.single.one := by
  simp only [inUnit, rank, Bool.or_eq_true, Bool.and_eq_true, Bool.not_eq_true', decide_eq_true_eq]
  cases x.negative <;> simp
  omega

/-- What lies between zero and one by its index does so by its worth. -/
theorem inUnit_iff : x.inUnit = true ↔ x.IsLevel := by
  constructor
  · intro inUnit
    have number : x.isNaN = false := by
      have one : Format.single.one < Format.single.infinity := by decide
      simp only [Binary.inUnit, Bool.or_eq_true, Bool.and_eq_true, decide_eq_true_eq] at inUnit
      simp only [isNaN, decide_eq_false_iff_not]
      omega
    obtain ⟨low, high⟩ := inUnit_iff_rank.1 inUnit
    exact ⟨number, (nonneg_iff number).2 low, (le_one_iff number).2 high⟩
  · rintro ⟨number, nonneg, le_one⟩
    exact inUnit_iff_rank.2 ⟨(nonneg_iff number).1 nonneg, (le_one_iff number).1 le_one⟩

end Binary

end ShowControl.Numeric
