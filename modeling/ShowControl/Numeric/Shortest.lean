import ShowControl.Numeric.Binary

/-!
# The fewest digits that read back

Each finite number of a binary format is the nearest one for a whole interval of reals: from half
way to its lower neighbour to half way to its upper one, ends included exactly when its index is
even. The shortest decimal of the number is the point of the coarsest grid of powers of ten that
meets this interval; of several such points it is the nearest, and at equal distance the even one.

The interval is kept in quarters of the last binary place, where its ends are whole numbers. A grid
that is no coarser than the interval is wide certainly meets it. The points of that grid in the
interval are a run of whole numbers, and each coarser grid keeps the multiples of ten among them: so
the coarsest grid is found by dividing the ends of the run, and no number is long.
-/

namespace ShowControl.Numeric

/-- The decimal `digits * 10 ^ exponent`. -/
structure Decimal where
  /-- All digits, as one number. -/
  digits : Nat
  /-- The power of ten of the last digit. -/
  exponent : Int
  deriving DecidableEq, Repr

/-! ### Runs of multiples -/

/-- The multiples of `10 ^ exponent` from the `low`-th to the `high`-th. -/
structure Run where
  low : Nat
  high : Nat
  exponent : Int

namespace Run

/-- The multiples of the next power of ten in a run. -/
def coarsen (r : Run) : Run := ⟨(r.low + 9) / 10, r.high / 10, r.exponent + 1⟩

/-- The multiples of the greatest power of ten that has any in a run; at most `count` powers
further. -/
def coarsest (r : Run) : Nat → Run
  | 0 => r
  | count + 1 => if r.coarsen.low ≤ r.coarsen.high then r.coarsen.coarsest count else r

end Run

/-! ### Intervals -/

/-- The reals that round to one number of a format, in quarters of its last binary place. -/
structure Interval where
  /-- Four times the significand of the number itself. -/
  middle : Nat
  /-- The lower end. -/
  lower : Nat
  /-- The upper end. -/
  upper : Nat
  /-- Whether the ends belong to the interval. -/
  closed : Bool
  /-- The number one is `2 ^ oneBits` quarters. -/
  oneBits : Int

/-- A grid of decimals seen from an interval: its points are the multiples of `spacing / quarters`
quarters. -/
structure Grid where
  spacing : Nat
  quarters : Nat

namespace Interval

/-- The interval around a finite number. Just above a power of two the lower neighbour is at half
the distance of the upper one. -/
@[inline] def around {f : Format} (x : Binary f) : Interval :=
  let middle := 4 * f.significand x.index
  let narrow := x.index % Nat.pow 2 f.fractionBits = 0 ∧ 0 < f.doublings x.index
  { middle
    lower := middle - (if narrow then 1 else 2)
    upper := middle + 2
    closed := x.index % 2 = 0
    oneBits := f.unitBits + 2 - f.doublings x.index }

variable (i : Interval)

/-- The grid of the multiples of `10 ^ exponent`. -/
def grid (exponent : Int) : Grid where
  spacing := Nat.shiftLeft (Nat.pow 10 exponent.toNat) i.oneBits.toNat
  quarters := Nat.shiftLeft (Nat.pow 10 (-exponent).toNat) (-i.oneBits).toNat

/-- The exponent of a grid that is no coarser than the interval is wide: `10 ^ finest` is at most
two quarters. The factor is the logarithm of two to the base ten. -/
def finest : Int := (1 - i.oneBits) * 30103 / 100000

/-- The multiples of `10 ^ exponent` in the interval. -/
def run (exponent : Int) : Run :=
  let g := i.grid exponent
  let lower := i.lower * g.quarters
  let upper := i.upper * g.quarters
  if i.closed then ⟨(lower + g.spacing - 1) / g.spacing, upper / g.spacing, exponent⟩
  else ⟨lower / g.spacing + 1, (upper + g.spacing - 1) / g.spacing - 1, exponent⟩

/-- The multiple in a run that is nearest to the number, at equal distance the even one. -/
def nearest (r : Run) : Nat :=
  let g := i.grid r.exponent
  let middle := i.middle * g.quarters
  let below := middle / g.spacing
  let before := middle % g.spacing
  let after := g.spacing - before
  if below < r.low then r.low
  else if r.high ≤ below then r.high
  else if before < after ∨ (before = after ∧ below % 2 = 0) then below
  else below + 1

/-- The shortest decimal in the interval. The run of the finest grid has at most eighteen digits. A
run of a single multiple leaves no choice. -/
def shortest : Decimal :=
  let r := (i.run i.finest).coarsest 18
  ⟨if r.low = r.high then r.low else i.nearest r, r.exponent⟩

end Interval

/-- The shortest decimal that reads back as the magnitude of a finite number. -/
@[inline] def Binary.shortest {f : Format} (x : Binary f) : Decimal :=
  if x.index = 0 then ⟨0, 0⟩ else (Interval.around x).shortest

end ShowControl.Numeric
