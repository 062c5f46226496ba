/-!
# Binary floating point, exactly

A binary interchange format has finitely many non-negative numbers, and every finite one is a whole
number of *steps*, the step being the least positive number of the format. Numbered in increasing
order, the `k`-th of them has the bit pattern `k`: so a number is kept as a sign and an **index**,
the index of infinity follows that of the largest finite number, and the indices after it are the
patterns that are not a number.

* `Format.steps` says what an index is worth, as a natural number of steps.
* `Format.nearest` is the one rounding rule of this library: the index nearest to an exact ratio of
  steps, ties to the even index, infinity beyond the range.
* `Format.nearestScaled` rounds by the same rule a ratio that still has to be multiplied by a power
  of two, and does not write that product out (`nearestScaled_eq`).

All arithmetic here is on natural numbers, so every result is exact until it is rounded once.
Powers are written `Nat.pow`, which stays the same function whatever instances of `^` are around.
-/

namespace ShowControl.Numeric

/-- A binary interchange format, by the widths of its two magnitude fields. -/
structure Format where
  /-- Stored bits of the significand. -/
  fractionBits : Nat
  /-- Bits of the biased exponent. -/
  exponentBits : Nat
  deriving DecidableEq, Repr

namespace Format

/-- 32 bits in all. -/
@[inline] def single : Format := ⟨23, 8⟩

/-- 64 bits in all. -/
@[inline] def double : Format := ⟨52, 11⟩

/-- The number one is `2 ^ unitBits` steps. -/
@[inline] def unitBits (f : Format) : Nat := Nat.pow 2 (f.exponentBits - 1) - 2 + f.fractionBits

/-- How many indices, and so bit patterns without a sign, the format has. -/
def size (f : Format) : Nat := Nat.pow 2 (f.exponentBits + f.fractionBits)

/-- The index of infinity: all exponent bits set, all fraction bits clear. -/
@[inline] def infinity (f : Format) : Nat :=
  (Nat.pow 2 f.exponentBits - 1) * Nat.pow 2 f.fractionBits

theorem infinity_lt_size (f : Format) : f.infinity < f.size := by
  unfold infinity size
  simp only [Nat.pow_eq, Nat.pow_add]
  exact Nat.mul_lt_mul_of_pos_right (Nat.sub_lt (Nat.two_pow_pos _) Nat.one_pos) (Nat.two_pow_pos _)

/-- The significand of an index: the fraction itself below the least normal number, and from there
on the fraction with its hidden bit. -/
@[inline] def significand (f : Format) (index : Nat) : Nat :=
  let fraction := index % Nat.pow 2 f.fractionBits
  if index / Nat.pow 2 f.fractionBits = 0 then fraction else Nat.pow 2 f.fractionBits + fraction

/-- How often the significand of an index is doubled: once for each exponent above that of the least
normal number. -/
@[inline] def doublings (f : Format) (index : Nat) : Nat := index / Nat.pow 2 f.fractionBits - 1

/-- The worth of a finite index in steps. -/
def steps (f : Format) (index : Nat) : Nat :=
  f.significand index * Nat.pow 2 (f.doublings index)

/-- The whole number nearest to `n / d`, a tie going to the even one. -/
def roundHalfEven (n d : Nat) : Nat :=
  let q := n / d
  let twice := 2 * (n % d)
  if d < twice ∨ (twice = d ∧ q % 2 = 1) then q + 1 else q

/-- The index nearest to `n / d` steps, ties to the even index. The quotient is first scaled to
`fractionBits + 1` bits; a quotient that rounds up to the next power of two lands on the index
after the binade, which is the right one. -/
def nearest (f : Format) (n d : Nat) : Nat :=
  let shift := (n / d).log2 - f.fractionBits
  min (shift * Nat.pow 2 f.fractionBits + roundHalfEven n (d * Nat.pow 2 shift)) f.infinity

/-! ### Rounding a ratio times a power of two -/

theorem shiftLeft_eq (n k : Nat) : Nat.shiftLeft n k = n * Nat.pow 2 k := Nat.shiftLeft_eq n k

/-- The exponent of the greatest power of two that is not above `n / d * 2 ^ e`. -/
def leading (n d : Nat) (e : Int) : Int :=
  let estimate : Int := n.log2 - d.log2 + e
  if Nat.shiftLeft d n.log2 ≤ Nat.shiftLeft n d.log2 then estimate else estimate - 1

/-- The index nearest to `n / d * 2 ^ e` steps, ties to the even index. -/
@[inline] def nearestScaled (f : Format) (n d : Nat) (e : Int) : Nat :=
  if n = 0 then 0
  else
    let shift := (leading n d e - f.fractionBits).toNat
    let rest := e - shift
    min (shift * Nat.pow 2 f.fractionBits
      + roundHalfEven (Nat.shiftLeft n rest.toNat) (Nat.shiftLeft d (-rest).toNat)) f.infinity

theorem nearestScaled_lt_size (f : Format) (n d : Nat) (e : Int) :
    f.nearestScaled n d e < f.size := by
  unfold nearestScaled
  split
  · exact Nat.two_pow_pos _
  · exact Nat.lt_of_le_of_lt (Nat.min_le_right _ _) f.infinity_lt_size

/-- A common factor does not change what a ratio is rounded to. -/
theorem roundHalfEven_mul_right (n d : Nat) {k : Nat} (hk : 0 < k) :
    roundHalfEven (n * k) (d * k) = roundHalfEven n d := by
  have rest : 2 * (n * k % (d * k)) = 2 * (n % d) * k := by
    rw [Nat.mul_mod_mul_right, Nat.mul_assoc]
  simp only [roundHalfEven, rest, Nat.mul_div_mul_right n d hk, Nat.mul_lt_mul_right hk,
    Nat.mul_left_inj (Nat.ne_of_gt hk)]

theorem le_leading_iff {n d : Nat} (hn : n ≠ 0) (hd : d ≠ 0) (e : Int) (k : Nat) :
    (k : Int) ≤ leading n d e ↔
      d * Nat.pow 2 (-e).toNat * Nat.pow 2 k ≤ n * Nat.pow 2 e.toNat := by
  simp only [leading, shiftLeft_eq, Nat.pow_eq]
  have n_low := Nat.log2_self_le hn
  have n_high := Nat.lt_log2_self (n := n)
  have d_low := Nat.log2_self_le hd
  have d_high := Nat.lt_log2_self (n := d)
  generalize n.log2 = a at *
  generalize d.log2 = b at *
  rw [Nat.mul_assoc, ← Nat.pow_add]
  have he : e = e.toNat - ((-e).toNat : Int) := by omega
  generalize e.toNat = y at *
  generalize hx : (-e).toNat + k = x at *
  rcases Nat.lt_trichotomy (x + b) (y + a) with low | same | high
  · refine iff_of_true (by split <;> omega) ?_
    calc d * 2 ^ x ≤ 2 ^ (b + 1) * 2 ^ x := Nat.mul_le_mul_right _ (Nat.le_of_lt d_high)
      _ ≤ 2 ^ a * 2 ^ y := by
        rw [← Nat.pow_add, ← Nat.pow_add]
        exact Nat.pow_le_pow_right (by decide) (by omega)
      _ ≤ n * 2 ^ y := Nat.mul_le_mul_right _ n_low
  · have cancel : d * 2 ^ x ≤ n * 2 ^ y ↔ d * 2 ^ a ≤ n * 2 ^ b := by
      rw [← Nat.mul_le_mul_right_iff (Nat.two_pow_pos b), Nat.mul_assoc, ← Nat.pow_add, same,
        Nat.add_comm y a, Nat.pow_add, ← Nat.mul_assoc, Nat.mul_right_comm n,
        Nat.mul_le_mul_right_iff (Nat.two_pow_pos y)]
    rw [cancel]
    split
    · next le => exact iff_of_true (by omega) le
    · next gt => exact iff_of_false (by omega) gt
  · refine iff_of_false (by split <;> omega) (Nat.not_le.2 ?_)
    calc n * 2 ^ y < 2 ^ (a + 1) * 2 ^ y := Nat.mul_lt_mul_of_pos_right n_high (Nat.two_pow_pos y)
      _ ≤ 2 ^ b * 2 ^ x := by
        rw [← Nat.pow_add, ← Nat.pow_add]
        exact Nat.pow_le_pow_right (by decide) (by omega)
      _ ≤ d * 2 ^ x := Nat.mul_le_mul_right _ d_low

theorem log2_div_eq {n d : Nat} (hn : n ≠ 0) (hd : d ≠ 0) (e : Int) :
    (n * Nat.pow 2 e.toNat / (d * Nat.pow 2 (-e).toNat)).log2 = (leading n d e).toNat := by
  have positive : 0 < d * Nat.pow 2 (-e).toNat :=
    Nat.mul_pos (Nat.pos_of_ne_zero hd) (Nat.two_pow_pos _)
  have le_iff (k : Nat) : (k : Int) ≤ leading n d e ↔
      2 ^ k ≤ n * Nat.pow 2 e.toNat / (d * Nat.pow 2 (-e).toNat) := by
    rw [le_leading_iff hn hd, Nat.le_div_iff_mul_le positive, Nat.mul_comm, Nat.pow_eq]
  generalize n * Nat.pow 2 e.toNat / (d * Nat.pow 2 (-e).toNat) = q at *
  by_cases hq : q = 0
  · have small : ¬(0 : Int) ≤ leading n d e := fun h ↦ by
      have := (le_iff 0).1 h
      simp [hq] at this
    rw [hq, Int.toNat_of_nonpos (by omega)]
    rfl
  · have large : (0 : Int) ≤ leading n d e :=
      (le_iff 0).2 (Nat.pos_of_ne_zero hq)
    refine (Nat.log2_eq_iff hq).2 ⟨(le_iff _).1 (by omega), Nat.not_le.1 fun h ↦ ?_⟩
    have := (le_iff _).2 h
    omega

/-- Rounding by a scale gives what rounding the ratio written out gives. -/
theorem nearestScaled_eq (f : Format) (n : Nat) {d : Nat} (hd : d ≠ 0) (e : Int) :
    f.nearestScaled n d e = f.nearest (n * Nat.pow 2 e.toNat) (d * Nat.pow 2 (-e).toNat) := by
  unfold nearestScaled nearest
  split
  · next zero =>
    have none (k : Nat) : roundHalfEven 0 k = 0 := by simp [roundHalfEven]
    rw [zero, Nat.zero_mul, Nat.zero_div]
    simp only [show Nat.log2 0 = 0 from rfl, Nat.zero_sub, Nat.zero_mul, none, Nat.zero_add,
      Nat.zero_min]
  · next nonzero =>
    have shifts : (leading n d e - f.fractionBits).toNat
        = (leading n d e).toNat - f.fractionBits := by omega
    simp only [log2_div_eq nonzero hd, shifts, shiftLeft_eq]
    generalize (leading n d e).toNat - f.fractionBits = shift
    obtain ⟨common, up, down⟩ : ∃ common,
        e.toNat = (e - shift).toNat + common ∧ (-e).toNat + shift = (-(e - shift)).toNat + common :=
      ⟨min e.toNat ((-e).toNat + shift), by omega, by omega⟩
    have numerator : n * Nat.pow 2 e.toNat
        = n * Nat.pow 2 (e - shift).toNat * Nat.pow 2 common := by
      simp only [Nat.pow_eq]
      rw [Nat.mul_assoc, ← Nat.pow_add, ← up]
    have denominator : d * Nat.pow 2 (-e).toNat * Nat.pow 2 shift
        = d * Nat.pow 2 (-(e - shift)).toNat * Nat.pow 2 common := by
      simp only [Nat.pow_eq]
      rw [Nat.mul_assoc, Nat.mul_assoc, ← Nat.pow_add, ← Nat.pow_add, ← down]
    rw [numerator, denominator,
      roundHalfEven_mul_right (k := Nat.pow 2 common) _ _ (Nat.two_pow_pos common)]

end Format

/-- A number of a binary format: a sign and an index. -/
structure Binary (f : Format) where
  /-- The sign bit. -/
  negative : Bool
  /-- The bit pattern without its sign. -/
  index : Nat
  index_lt : index < f.size
  deriving DecidableEq

/-- A number of 32 bits. -/
abbrev Single := Binary Format.single

/-- A number of 64 bits. -/
abbrev Double := Binary Format.double

namespace Binary

variable {f : Format}

/-- The index is below that of infinity. -/
@[inline] def isFinite (x : Binary f) : Bool := x.index < f.infinity

/-- The index lies beyond infinity. -/
def isNaN (x : Binary f) : Bool := f.infinity < x.index

/-- Positive zero. -/
def zero (f : Format) : Binary f := ⟨false, 0, Nat.two_pow_pos _⟩

/-- The number with this sign nearest to `n / d * 2 ^ e` steps. -/
@[inline] def ofRatio (f : Format) (negative : Bool) (n d : Nat) (e : Int) : Binary f :=
  ⟨negative, f.nearestScaled n d e, f.nearestScaled_lt_size n d e⟩

/-- The number nearest to an integer. -/
@[inline] def ofInt (f : Format) (i : Int) : Binary f := ofRatio f (i < 0) i.natAbs 1 f.unitBits

/-- The worth of a finite number's magnitude, in steps of its format. -/
def steps (x : Binary f) : Nat := f.steps x.index

/-- The same number in another format, rounded where that has fewer bits. Infinity stays infinity,
and what is not a number stays so. -/
@[inline] def convert (g : Format) (x : Binary f) : Binary g :=
  if x.isFinite then
    ofRatio g x.negative (f.significand x.index) 1 (f.doublings x.index + g.unitBits - f.unitBits)
  else if x.isNaN then ⟨x.negative, g.size - 1, Nat.sub_lt (Nat.two_pow_pos _) Nat.one_pos⟩
  else ⟨x.negative, g.infinity, g.infinity_lt_size⟩

/-- The number with this bit pattern, of which bits above the sign are ignored. -/
def ofBits (f : Format) (bits : Nat) : Binary f :=
  ⟨bits / f.size % 2 = 1, bits % f.size, Nat.mod_lt _ (Nat.two_pow_pos _)⟩

/-- The bit pattern of a number. -/
def toBits (x : Binary f) : Nat := if x.negative then f.size + x.index else x.index

end Binary

end ShowControl.Numeric
