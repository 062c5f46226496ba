import ShowControl.Numeric.Binary

/-!
# Display levels

Opacity and brightness are levels: numbers of 32 bits between zero and one, both included. Whatever
number is asked for, `Level.clamp` gives the level next to it, so a level never has to be refused.
-/

namespace ShowControl

open Numeric

namespace Numeric

/-- The index of the number one: the middle exponent, all fraction bits clear. -/
def Format.one (f : Format) : Nat := (Nat.pow 2 (f.exponentBits - 1) - 1) * Nat.pow 2 f.fractionBits

/-- The number lies between zero and one; both zeros do. -/
def Binary.inUnit {f : Format} (x : Binary f) : Bool :=
  x.index = 0 || (!x.negative && x.index ≤ f.one)

end Numeric

/-- A number between zero and one. -/
structure Level where
  /-- The number itself, with its bits. -/
  value : Single
  inUnit : value.inUnit = true
  deriving DecidableEq

namespace Level

/-- Zero. -/
def least : Level := ⟨Binary.zero .single, by decide⟩

/-- One. -/
def full : Level := ⟨⟨false, Format.single.one, by decide⟩, by decide⟩

/-- The level next to a number: zero for what is no number and for what is below zero, one for what
is above one, and every other number itself, a negative zero included. -/
def clamp (x : Single) : Level :=
  if x.isNaN then least
  else if h : x.inUnit = true then ⟨x, h⟩
  else if x.negative then least
  else full

end Level

end ShowControl
