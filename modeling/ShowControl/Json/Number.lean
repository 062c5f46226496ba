import ShowControl.Json.Value
import ShowControl.Numeric.Shortest
import ShowControl.Text.Integer

/-!
# The text of a JSON number

Reading keeps a significand of at most 64 bits and a power of ten, and scales the one by the other
with one or more rounded operations; the result is not always the number nearest to the text, but
it is within a few units of the last place. Writing gives the fewest digits that read back,
positional from `1e-5` up to, but not including, `1e16`.
-/

namespace ShowControl.Json.Number

open Numeric

/-! ### Scaling by powers of ten -/

/-- The index of the double nearest to a natural number. -/
def ofNat (n : Nat) : Nat := Format.double.nearestScaled n 1 Format.double.unitBits

/-- The rounded product of two indices. -/
def mul (a b : Nat) : Nat :=
  let f := Format.double
  f.nearestScaled (f.significand a * f.significand b) 1
    (f.doublings a + f.doublings b - f.unitBits)

/-- The rounded quotient of two indices. -/
def div (a b : Nat) : Nat :=
  let f := Format.double
  f.nearestScaled (f.significand a) (f.significand b)
    (f.doublings a - f.doublings b + f.unitBits)

/-- The greatest power of ten that a double holds. -/
def greatestPower : Nat := 308

/-- The indices of the doubles nearest to the powers of ten, up to the greatest. -/
def powers : Array Nat := Array.ofFn fun e : Fin (greatestPower + 1) ↦ ofNat (Nat.pow 10 e)

/-- The index of the double nearest to a power of ten that is among them. -/
def power (e : Nat) : Nat := powers.getD e Format.double.infinity

/-- Divides by the greatest power of ten as often as told, or until nothing is left. -/
def divGreatest (a : Nat) : Nat → Nat
  | 0 => a
  | count + 1 => if a = 0 then 0 else divGreatest (div a (power greatestPower)) count

/-- The index of `significand * 10 ^ exponent`, or nothing where that is out of range. One rounding
turns the significand into a double, one more each power of ten, and one each operation. -/
def scale (significand : Nat) (exponent : Int) : Option Nat :=
  let a := ofNat significand
  match exponent with
  | .ofNat e =>
    if a = 0 then some 0
    else if greatestPower < e then none
    else
      let product := mul a (power e)
      if product < Format.double.infinity then some product else none
  | .negSucc e =>
    let whole := e / greatestPower
    some (div (divGreatest a whole) (power (e + 1 - greatestPower * whole)))

/-- The double with this sign and index. -/
def signed (negative : Bool) (index : Nat) : Double :=
  ⟨negative, min index Format.double.infinity,
    Nat.lt_of_le_of_lt (Nat.min_le_right _ _) Format.double.infinity_lt_size⟩

/-! ### Reading -/

/-- What the digits of a number come to: `significand * 10 ^ exponent`, nearly. -/
structure Digits where
  /-- Below `2 ^ 64`. -/
  significand : Nat := 0
  exponent : Int := 0
  /-- A digit did not fit. -/
  full : Bool := false

namespace Digits

/-- The next digit in front of the point. One that does not fit only counts as a power of ten. -/
def whole (d : Digits) (c : Char) : Digits :=
  let next := d.significand * 10 + Text.digitWorth c
  if d.full ∨ Nat.pow 2 64 ≤ next then { d with exponent := d.exponent + 1, full := true }
  else { d with significand := next }

/-- The next digit behind the point. One that does not fit is dropped, and all after it. -/
def fraction (d : Digits) (c : Char) : Digits :=
  let next := d.significand * 10 + Text.digitWorth c
  if d.full ∨ Nat.pow 2 64 ≤ next then { d with full := true }
  else { d with significand := next, exponent := d.exponent - 1 }

end Digits

/-- Takes the digits in front of a text; there must be one. -/
def digits? (text : List Char) : Option (List Char × List Char) :=
  let taken := text.takeWhile Char.isDigit
  if taken.isEmpty then none else some (taken, text.dropWhile Char.isDigit)

/-- Takes a sign in front of a text: whether it was a minus. -/
def sign : List Char → Bool × List Char
  | '-' :: rest => (true, rest)
  | '+' :: rest => (false, rest)
  | text => (false, text)

/-- No text is long enough to make up for an exponent of this size. -/
def exponentCap : Nat := 2147483648

/-- The exponent that ends a number's text, if it is written there. -/
def exponent? : List Char → Option (Option Int)
  | [] => some none
  | c :: rest =>
    if c = 'e' ∨ c = 'E' then
      let (negative, rest) := sign rest
      match digits? rest with
      | some (ds, []) =>
        let e : Int := Text.worthUpTo exponentCap 10 (ds.map Text.digitWorth)
        some (some (if negative then -e else e))
      | _ => none
    else none

/-- An integer without fraction or exponent: 64 bits, with a sign or without, keep it an integer. A
negative zero and what 64 bits do not hold become floating point. -/
def whole (negative : Bool) (d : Digits) : Option Json :=
  if d.full then (scale d.significand d.exponent).map fun a ↦ .float (signed negative a)
  else if negative then
    if 1 ≤ d.significand ∧ d.significand ≤ Nat.pow 2 63 then some (.integer (-d.significand))
    else some (.float (signed true (ofNat d.significand)))
  else some (.integer d.significand)

/-- Takes the fraction behind the digits of a text, if one is written there. -/
def fraction? (d : Digits) (text : List Char) : Option (Digits × List Char) :=
  match text with
  | '.' :: rest =>
    (digits? rest).map fun (ds, rest) ↦ (ds.foldl Digits.fraction { d with full := false }, rest)
  | _ => some (d, text)

/-- Reads the text of a number behind its sign. No zero may lead another digit, and a point or an
exponent mark wants a digit after it. -/
def readUnsigned? (negative : Bool) (text : List Char) : Option Json := do
  let (ds, text) ← digits? text
  if 1 < ds.length ∧ ds.head? = some '0' then none
  else
    let d := ds.foldl Digits.whole {}
    if text.isEmpty then whole negative d
    else
      let (d, text) ← fraction? d text
      let e ← exponent? text
      let a ← scale d.significand (d.exponent + e.getD 0)
      some (.float (signed negative a))

/-- Reads the text of a number. -/
def read? : List Char → Option Json
  | '-' :: text => readUnsigned? true text
  | text => readUnsigned? false text

/-! ### Writing -/

/-- Where positional notation begins and ends, as exponents of the first digit. -/
structure Layout where
  /-- The least exponent written positionally. -/
  least : Int
  /-- The greatest exponent written positionally. -/
  greatest : Int

/-- Positional from `1e-5` to below `1e16`, always with a point; beyond that one leading digit, a
point only before further digits, and an exponent that always has a sign. -/
def layout : Layout := ⟨-5, 15⟩

/-- The text of a decimal without a sign. -/
def decimalText (d : Decimal) : List Char :=
  let ds := Nat.toDigits 10 d.digits
  let first := d.exponent + ds.length - 1
  if layout.least ≤ first ∧ first ≤ layout.greatest then
    if 0 ≤ d.exponent then ds ++ List.replicate d.exponent.toNat '0' ++ ['.', '0']
    else if 0 ≤ first then
      ds.take (first.toNat + 1) ++ '.' :: ds.drop (first.toNat + 1)
    else '0' :: '.' :: List.replicate (-first - 1).toNat '0' ++ ds
  else
    let lead := match ds with
      | [] => []
      | [c] => [c]
      | c :: rest => c :: '.' :: rest
    lead ++ 'e' :: (if first < 0 then '-' else '+') :: Nat.toDigits 10 first.natAbs

/-- The text of a floating-point number; one that is not finite has none and is written as null. -/
def floatText (x : Double) : List Char :=
  if x.isFinite then
    if x.negative then '-' :: decimalText x.shortest else decimalText x.shortest
  else "null".toList

/-- The text of an integer. -/
def integerText (i : Int) : List Char :=
  if i < 0 then '-' :: Nat.toDigits 10 i.natAbs else Nat.toDigits 10 i.natAbs

end ShowControl.Json.Number
