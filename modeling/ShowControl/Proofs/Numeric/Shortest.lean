import ShowControl.Numeric.Shortest
import ShowControl.Proofs.Numeric.Conversion

/-!
# The shortest decimal is close

`Binary.shortest` picks a decimal out of the interval of reals that round to a number. What the
readers of that decimal need is not that it is shortest but that it lies in the interval at all, and
hence within half a unit of the last place: `near_shortest`, together with bounds on its digits and
its exponent.

The one invariant is `Interval.Holds`: all multiples of a run lie in the interval. The run of the
finest grid has it and is not empty, because that grid is no coarser than half of the interval;
coarsening keeps both; and the multiple that is picked is one of the run.

`finest_spacing` is a table over the exponents that numbers of 32 bits have when they are widened.
-/

namespace ShowControl.Numeric

namespace Interval

variable (i : Interval)

/-! ### Points of a grid -/

theorem spacing_pos (e : ℤ) : 0 < (i.grid e).spacing := by
  simp only [grid, Format.shiftLeft_eq, Nat.pow_eq]
  positivity

theorem quarters_pos (e : ℤ) : 0 < (i.grid e).quarters := by
  simp only [grid, Format.shiftLeft_eq, Nat.pow_eq]
  positivity

/-- The multiples of `10 ^ e`, in quarters. -/
theorem spacing_div_quarters (e : ℤ) :
    ((i.grid e).spacing : ℚ) / (i.grid e).quarters = 10 ^ e * 2 ^ i.oneBits := by
  have signed (b : ℚ) (hb : b ≠ 0) (k : ℤ) : b ^ k.toNat / b ^ (-k).toNat = b ^ k := by
    rw [← zpow_natCast, ← zpow_natCast, ← zpow_sub₀ hb]
    congr 1
    omega
  simp only [grid, Format.shiftLeft_eq, Nat.pow_eq]
  push_cast
  rw [mul_div_mul_comm, signed 10 (by norm_num), signed 2 (by norm_num)]

theorem le_point_iff (k n : ℕ) (e : ℤ) :
    (n : ℚ) / 2 ^ i.oneBits ≤ k * 10 ^ e ↔ n * (i.grid e).quarters ≤ k * (i.grid e).spacing := by
  have one : (0 : ℚ) < 2 ^ i.oneBits := zpow_pos two_pos _
  have quarters : (0 : ℚ) < (i.grid e).quarters := by exact_mod_cast i.quarters_pos e
  rw [div_le_iff₀ one, mul_assoc, ← spacing_div_quarters, ← mul_div_assoc, le_div_iff₀ quarters]
  norm_cast

theorem point_le_iff (k n : ℕ) (e : ℤ) :
    (k : ℚ) * 10 ^ e ≤ n / 2 ^ i.oneBits ↔ k * (i.grid e).spacing ≤ n * (i.grid e).quarters := by
  have one : (0 : ℚ) < 2 ^ i.oneBits := zpow_pos two_pos _
  have quarters : (0 : ℚ) < (i.grid e).quarters := by exact_mod_cast i.quarters_pos e
  rw [le_div_iff₀ one, mul_assoc, ← spacing_div_quarters, ← mul_div_assoc, div_le_iff₀ quarters]
  norm_cast

/-! ### Runs within the interval -/

/-- All multiples of a run lie in the interval. -/
def Holds (r : Run) : Prop :=
  ∀ k : ℕ, r.low ≤ k → k ≤ r.high →
    (i.lower : ℚ) / 2 ^ i.oneBits ≤ k * 10 ^ r.exponent ∧
      (k : ℚ) * 10 ^ r.exponent ≤ i.upper / 2 ^ i.oneBits

theorem holds_run (e : ℤ) : i.Holds (i.run e) := by
  have spacing := i.spacing_pos e
  intro k
  simp only [run]
  split
  · intro low high
    dsimp only at low high
    refine ⟨(i.le_point_iff k i.lower e).2 ?_, (i.point_le_iff k i.upper e).2 ?_⟩
    · have := Nat.lt_mul_div_succ (i.lower * (i.grid e).quarters + (i.grid e).spacing - 1) spacing
      have := Nat.mul_le_mul_left (i.grid e).spacing low
      rw [Nat.mul_add, Nat.mul_one] at *
      rw [Nat.mul_comm k]
      omega
    · exact (Nat.le_div_iff_mul_le spacing).1 high
  · intro low high
    dsimp only at low high
    refine ⟨(i.le_point_iff k i.lower e).2 ?_, (i.point_le_iff k i.upper e).2 ?_⟩
    · have := Nat.lt_mul_div_succ (i.lower * (i.grid e).quarters) spacing
      have := Nat.mul_le_mul_left (i.grid e).spacing low
      rw [Nat.mul_comm k]
      omega
    · have positive : 1 ≤ k := Nat.le_trans (Nat.le_add_left 1 _) low
      have high : (k + 1) * (i.grid e).spacing ≤
          i.upper * (i.grid e).quarters + (i.grid e).spacing - 1 :=
        (Nat.le_div_iff_mul_le spacing).1 (by omega)
      rw [Nat.succ_mul] at high
      omega

/-- A grid no coarser than half of the interval has a point in it. -/
theorem low_le_high_run {e : ℤ} (wide : i.lower + 3 ≤ i.upper)
    (fine : (i.grid e).spacing ≤ 2 * (i.grid e).quarters) :
    (i.run e).low ≤ (i.run e).high := by
  have spacing := i.spacing_pos e
  have room : i.lower * (i.grid e).quarters + 3 * (i.grid e).quarters ≤
      i.upper * (i.grid e).quarters := by
    rw [← Nat.add_mul]
    exact Nat.mul_le_mul_right _ wide
  have point : i.lower * (i.grid e).quarters / (i.grid e).spacing * (i.grid e).spacing ≤
      i.lower * (i.grid e).quarters := Nat.div_mul_le_self _ _
  -- the point after the last one that is not above the lower end
  have next : (i.lower * (i.grid e).quarters / (i.grid e).spacing + 1) * (i.grid e).spacing <
      i.upper * (i.grid e).quarters := by
    rw [Nat.succ_mul]
    have := i.quarters_pos e
    omega
  simp only [run]
  split
  · have above : (i.lower * (i.grid e).quarters + (i.grid e).spacing - 1) / (i.grid e).spacing ≤
        i.lower * (i.grid e).quarters / (i.grid e).spacing + 1 := by
      rw [← Nat.add_div_right _ spacing]
      exact Nat.div_le_div_right (by omega)
    exact above.trans ((Nat.le_div_iff_mul_le spacing).2 next.le)
  · have below : i.lower * (i.grid e).quarters / (i.grid e).spacing + 2 ≤
        (i.upper * (i.grid e).quarters + (i.grid e).spacing - 1) / (i.grid e).spacing := by
      rw [Nat.le_div_iff_mul_le spacing, Nat.succ_mul]
      omega
    exact Nat.le_sub_of_add_le below

/-! ### Coarsening -/

variable {i} {r : Run}

theorem Holds.coarsen (h : i.Holds r) : i.Holds r.coarsen := by
  intro k low high
  simp only [Run.coarsen] at low high ⊢
  have scaled : (k : ℚ) * 10 ^ (r.exponent + 1) = (10 * k : ℕ) * 10 ^ r.exponent := by
    rw [zpow_add_one₀ (by norm_num)]
    push_cast
    ring
  rw [scaled]
  exact h (10 * k) (by omega) (by omega)

theorem Holds.coarsest (h : i.Holds r) (order : r.low ≤ r.high) (count : ℕ) :
    i.Holds (r.coarsest count) ∧ (r.coarsest count).low ≤ (r.coarsest count).high ∧
      r.exponent ≤ (r.coarsest count).exponent ∧
      (r.coarsest count).exponent ≤ r.exponent + count := by
  induction count generalizing r with
  | zero => exact ⟨h, order, le_refl _, by simp [Run.coarsest]⟩
  | succ count ih =>
    rw [Run.coarsest]
    split
    · next further =>
      obtain ⟨holds, order, least, greatest⟩ := ih h.coarsen further
      have : r.coarsen.exponent = r.exponent + 1 := rfl
      refine ⟨holds, order, by omega, ?_⟩
      push_cast
      omega
    · refine ⟨h, order, le_refl _, ?_⟩
      push_cast
      omega

theorem nearest_mem (order : r.low ≤ r.high) : r.low ≤ i.nearest r ∧ i.nearest r ≤ r.high := by
  simp only [nearest]
  split
  · exact ⟨le_refl _, order⟩
  · split
    · exact ⟨order, le_refl _⟩
    · split <;> omega

/-! ### The finest grid -/

theorem finest_table : ∀ k : Fin 301,
    let oneBits : ℤ := k.val - 90
    let finest : ℤ := (1 - oneBits) * 30103 / 100000
    let spacing := Nat.shiftLeft (Nat.pow 10 finest.toNat) oneBits.toNat
    let quarters := Nat.shiftLeft (Nat.pow 10 (-finest).toNat) (-oneBits).toNat
    spacing ≤ 2 * quarters ∧ quarters ≤ 50 * spacing := by
  decide +kernel

/-- The finest grid is not coarser than two quarters, and not much finer. -/
theorem finest_spacing (low : -90 ≤ i.oneBits) (high : i.oneBits ≤ 210) :
    (i.grid i.finest).spacing ≤ 2 * (i.grid i.finest).quarters ∧
      (i.grid i.finest).quarters ≤ 50 * (i.grid i.finest).spacing := by
  have row := finest_table ⟨(i.oneBits + 90).toNat, by omega⟩
  have same : (((i.oneBits + 90).toNat : ℕ) : ℤ) - 90 = i.oneBits := by omega
  simp only [same] at row
  exact row

/-- The shortest decimal lies in the interval, on a grid from the finest on. -/
theorem shortest_mem (wide : i.lower + 3 ≤ i.upper) (low : -90 ≤ i.oneBits)
    (high : i.oneBits ≤ 210) :
    (i.lower : ℚ) / 2 ^ i.oneBits ≤ i.shortest.digits * 10 ^ i.shortest.exponent ∧
      (i.shortest.digits : ℚ) * 10 ^ i.shortest.exponent ≤ i.upper / 2 ^ i.oneBits ∧
      i.finest ≤ i.shortest.exponent ∧ i.shortest.exponent ≤ i.finest + 18 := by
  have order := i.low_le_high_run wide (i.finest_spacing low high).1
  obtain ⟨holds, order, least, greatest⟩ := (i.holds_run i.finest).coarsest order 18
  generalize hr : (i.run i.finest).coarsest 18 = r at *
  have start : (i.run i.finest).exponent = i.finest := by
    simp only [run]
    split <;> rfl
  rw [start] at least greatest
  have picked : r.low ≤ i.shortest.digits ∧ i.shortest.digits ≤ r.high := by
    simp only [shortest, hr]
    split
    · exact ⟨le_refl _, order⟩
    · exact nearest_mem order
  have exponent : i.shortest.exponent = r.exponent := by
    simp only [shortest, hr]
  rw [exponent]
  obtain ⟨above, below⟩ := holds _ picked.1 picked.2
  exact ⟨above, below, least, greatest⟩

/-- No decimal of the interval on such a grid has many digits. -/
theorem digits_lt {k : ℕ} {e : ℤ} (fine : i.finest ≤ e) (low : -90 ≤ i.oneBits)
    (high : i.oneBits ≤ 210) (below : (k : ℚ) * 10 ^ e ≤ i.upper / 2 ^ i.oneBits) :
    k ≤ 50 * i.upper := by
  have finest : (k : ℚ) * 10 ^ i.finest ≤ i.upper / 2 ^ i.oneBits := by
    refine le_trans (mul_le_mul_of_nonneg_left ?_ (Nat.cast_nonneg k)) below
    exact zpow_le_zpow_right₀ (by norm_num) fine
  rw [point_le_iff] at finest
  have bound := Nat.mul_le_mul_left i.upper (i.finest_spacing low high).2
  refine Nat.le_of_mul_le_mul_right ?_ (i.spacing_pos i.finest)
  calc k * (i.grid i.finest).spacing ≤ i.upper * (i.grid i.finest).quarters := finest
    _ ≤ i.upper * (50 * (i.grid i.finest).spacing) := bound
    _ = 50 * i.upper * (i.grid i.finest).spacing := by ring

theorem around_lower_add_three_le {f : Format} {x : Binary f} (h : 0 < x.index) :
    (around x).lower + 3 ≤ (around x).upper ∧ (around x).middle ≤ (around x).lower + 2 := by
  have := f.significand_pos h
  simp only [around]
  split <;> omega

theorem worth_eq_middle {f : Format} (x : Binary f) :
    f.worth x.index = (around x).middle / 2 ^ (around x).oneBits := by
  simp only [around]
  rw [f.worth_eq, eq_div_iff (zpow_ne_zero _ two_ne_zero), mul_assoc, ← zpow_add₀ two_ne_zero,
    add_sub_right_comm, ← add_assoc, sub_add_sub_cancel', sub_self, zero_add]
  push_cast
  ring

/-- What lies in the interval around a number with many bits is near to that number. -/
theorem near_middle {q : ℚ} (lower : i.middle ≤ i.lower + 2) (upper : i.upper = i.middle + 2)
    (long : 2 ^ 54 ≤ i.middle) (above : (i.lower : ℚ) / 2 ^ i.oneBits ≤ q)
    (below : q ≤ i.upper / 2 ^ i.oneBits) : Near (1 / 2 ^ 53) q (i.middle / 2 ^ i.oneBits) := by
  have one : (0 : ℚ) < 2 ^ i.oneBits := zpow_pos two_pos _
  have lower' : (i.middle : ℚ) ≤ i.lower + 2 := by exact_mod_cast lower
  have half_unit : (2 : ℚ) / 2 ^ i.oneBits ≤ 1 / 2 ^ 53 * (i.middle / 2 ^ i.oneBits) := by
    rw [← mul_div_assoc]
    refine div_le_div_of_nonneg_right ?_ one.le
    have : (2 : ℚ) ^ 54 ≤ i.middle := by exact_mod_cast long
    linarith
  have from_below := div_le_div_of_nonneg_right lower' one.le
  rw [upper] at below
  push_cast at below
  rw [add_div] at from_below below
  rw [Near, abs_le]
  constructor <;> linarith

end Interval

/-! ### The shortest decimal of a number -/

/-- The shortest decimal of a number in the range of 32 bits: it is near, and both its digits and
its exponent are small. -/
theorem near_shortest {x : Double} (low : 866 ≤ Format.double.doublings x.index)
    (high : Format.double.doublings x.index ≤ 1166) :
    Near (1 / 2 ^ 53) (x.shortest.digits * 10 ^ x.shortest.exponent)
        (Format.double.worth x.index) ∧
      x.shortest.digits < 2 ^ 63 ∧ -70 ≤ x.shortest.exponent ∧ x.shortest.exponent ≤ 50 := by
  have hidden : 2 ^ 52 ≤ Format.double.significand x.index :=
    (Format.double.doublings_eq_zero_or x.index).resolve_left (by omega)
  have positive : 0 < x.index := Nat.pos_of_ne_zero fun zero ↦ by
    rw [zero] at hidden
    exact absurd hidden (by decide)
  have form : x.shortest = (Interval.around x).shortest := if_neg positive.ne'
  have units : (Format.double.unitBits : ℤ) = 1074 := by decide
  have oneBits : (Interval.around x).oneBits = 1076 - Format.double.doublings x.index := by
    simp only [Interval.around]
    omega
  have middle : (Interval.around x).middle = 4 * Format.double.significand x.index := rfl
  have upper : (Interval.around x).upper = (Interval.around x).middle + 2 := rfl
  obtain ⟨wide, lower⟩ := Interval.around_lower_add_three_le positive
  have worth := Interval.worth_eq_middle x
  rw [form]
  -- the search knows nothing of the number but this interval
  generalize Interval.around x = i at *
  obtain ⟨above, below, least, greatest⟩ := i.shortest_mem wide (by omega) (by omega)
  have finest : i.finest = (1 - i.oneBits) * 30103 / 100000 := rfl
  have few := Interval.digits_lt least (by omega) (by omega) below
  have room := Format.double.significand_lt x.index
  have bits : Format.double.fractionBits = 52 := rfl
  rw [bits] at room
  refine ⟨?_, by omega, by omega, by omega⟩
  rw [worth]
  exact i.near_middle lower upper (by omega) above below

/-! ### The range of widened numbers -/

/-- The binade of a number that is a short significand times a power of two. -/
theorem doublings_bounds {index k e : ℕ} (hk : 0 < k) (small : k < 2 ^ 24)
    (value : Format.double.steps index = k * 2 ^ e) :
    e < 53 + Format.double.doublings index ∧
      (Format.double.doublings index = 0 ∨ 52 + Format.double.doublings index < 24 + e) := by
  have room := Format.double.significand_lt index
  have hidden := Format.double.doublings_eq_zero_or index
  have steps : Format.double.steps index =
    Format.double.significand index * 2 ^ Format.double.doublings index := rfl
  rw [value] at steps
  constructor
  · refine (Nat.pow_lt_pow_iff_right one_lt_two).1 ?_
    calc 2 ^ e ≤ k * 2 ^ e := Nat.le_mul_of_pos_left _ hk
      _ = Format.double.significand index * 2 ^ Format.double.doublings index := steps
      _ < 2 ^ 53 * 2 ^ Format.double.doublings index :=
        Nat.mul_lt_mul_of_pos_right room (Nat.two_pow_pos _)
      _ = 2 ^ (53 + Format.double.doublings index) := (Nat.pow_add ..).symm
  · refine hidden.imp_right fun hidden ↦ (Nat.pow_lt_pow_iff_right one_lt_two).1 ?_
    calc 2 ^ (52 + Format.double.doublings index)
        = 2 ^ 52 * 2 ^ Format.double.doublings index := Nat.pow_add ..
      _ ≤ Format.double.significand index * 2 ^ Format.double.doublings index :=
        Nat.mul_le_mul_right _ hidden
      _ = k * 2 ^ e := steps.symm
      _ < 2 ^ 24 * 2 ^ e := Nat.mul_lt_mul_of_pos_right small (Nat.two_pow_pos _)
      _ = 2 ^ (24 + e) := (Nat.pow_add ..).symm

/-- The exponents of numbers of 32 bits that have been widened. -/
theorem doublings_widen {x : Single} (finite : x.isFinite = true) (positive : 0 < x.index) :
    866 ≤ Format.double.doublings (x.convert .double).index ∧
      Format.double.doublings (x.convert .double).index ≤ 1166 := by
  have in_range : x.index < Format.single.infinity := by simpa [Binary.isFinite] using finite
  have exponent := doublings_single_lt in_range
  have bounds := doublings_bounds (Format.single.significand_pos positive)
    (Format.single.significand_lt x.index) (widen_spec finite).2.2
  omega

end ShowControl.Numeric
