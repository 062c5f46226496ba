import ShowControl.Json.Printer

/-!
# Fresh command ids

A sender that issues a command names it by a random identifier of 122 bits, written as a UUID of
version 4 behind `cmd-`. The bits are an argument here: where they come from is no concern of the
library, and different bits below `2 ^ 122` give different ids.
-/

namespace ShowControl.CommandId

/-- The last `count` hexadecimal digits of a number. -/
def hexDigits (n : Nat) : Nat → List Char
  | 0 => []
  | count + 1 => hexDigits (n / 16) count ++ [Json.hexDigit n]

/-- The id made of these bits. -/
def fresh (bits : Nat) : String :=
  let variant := Json.hexDigit (8 + bits / Nat.pow 2 60 % 4)
  String.ofList
    ("cmd-".toList ++ hexDigits (bits / Nat.pow 2 90) 8 ++ '-' :: hexDigits (bits / Nat.pow 2 74) 4
      ++ '-' :: '4' :: hexDigits (bits / Nat.pow 2 62) 3
      ++ '-' :: variant :: hexDigits (bits / Nat.pow 2 48) 3 ++ '-' :: hexDigits bits 12)

/-- A lower case hexadecimal digit. -/
def isHexDigit (c : Char) : Bool := c.isDigit || 'a' ≤ c && c ≤ 'f'

/-- The form of an id that was made of bits. -/
def isFresh (id : List Char) : Bool :=
  id.length = 40 && id.take 4 = "cmd-".toList &&
    (id.drop 4).zipIdx.all fun (c, place) ↦
      match place with
      | 8 => c = '-'
      | 13 => c = '-'
      | 14 => c = '4'
      | 18 => c = '-'
      | 19 => c = '8' || c = '9' || c = 'a' || c = 'b'
      | 23 => c = '-'
      | _ => isHexDigit c

end ShowControl.CommandId
