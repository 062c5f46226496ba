/-!
# Internet addresses

The two families of addresses and their texts. An address of the first family is written as four
decimal numbers without leading zeros. One of the second is written as eight groups in lower case
hexadecimal; the longest run of two or more zero groups, the first of equally long ones, is left
out; and where the groups hold an address of the first family behind `::ffff:`, that part is written
as four decimal numbers. Reading also accepts capital digits, leading zeros in a group, any one run
left out, and a final part in decimal anywhere.
-/

namespace ShowControl

/-- An address of one of the two families. -/
inductive IpAddress where
  | v4 (a b c d : UInt8)
  | v6 (groups : Vector UInt16 8)
  deriving DecidableEq

namespace IpAddress

/-- The number of the family. -/
def family : IpAddress → Nat
  | .v4 _ _ _ _ => 4
  | .v6 _ => 6

/-! ### Writing -/

/-- A number in decimal. -/
def decimal (n : Nat) : List Char := Nat.toDigits 10 n

/-- Four decimal numbers with points between them. -/
def quadText (a b c d : Nat) : List Char :=
  decimal a ++ '.' :: decimal b ++ '.' :: decimal c ++ '.' :: decimal d

/-- Groups with colons between them. -/
def groupsText : List Nat → List Char
  | [] => []
  | [group] => Nat.toDigits 16 group
  | group :: rest => Nat.toDigits 16 group ++ ':' :: groupsText rest

/-- How many zeros a list begins with. -/
def leadingZeros (groups : List Nat) : Nat := (groups.takeWhile (· = 0)).length

/-- The place and length of the longest run of zeros, the first of equally long ones, where the list
begins at `place`. -/
def longestZeros (place : Nat) : List Nat → Nat × Nat
  | [] => (place, 0)
  | group :: rest =>
    let here := leadingZeros (group :: rest)
    let later := longestZeros (place + 1) rest
    if later.2 ≤ here then (place, here) else later

/-- Groups with the longest run of at least two zeros left out. -/
def compressedText (groups : List Nat) : List Char :=
  let (place, length) := longestZeros 0 groups
  if 1 < length then
    groupsText (groups.take place) ++ ':' :: ':' :: groupsText (groups.drop (place + length))
  else groupsText groups

/-- The characters of an address. -/
def chars : IpAddress → List Char
  | .v4 a b c d => quadText a.toNat b.toNat c.toNat d.toNat
  | .v6 groups =>
    match groups.toList.map UInt16.toNat with
    | [0, 0, 0, 0, 0, 0xFFFF, high, low] =>
      "::ffff:".toList ++ quadText (high / 256) (high % 256) (low / 256) (low % 256)
    | groups => compressedText groups

/-- The text of an address. -/
def text (address : IpAddress) : String := String.ofList address.chars

/-! ### Reading -/

/-- Takes a decimal number below 256 in front of a text. -/
def octet? (text : List Char) : Option (Nat × List Char) :=
  let digits := text.takeWhile Char.isDigit
  if digits.isEmpty ∨ 3 < digits.length ∨ (1 < digits.length ∧ digits.head? = some '0') then none
  else
    let value := Nat.ofDigitChars 10 digits 0
    if 255 < value then none else some (value, text.dropWhile Char.isDigit)

/-- Takes a character in front of a text. -/
def skip? (c : Char) : List Char → Option (List Char)
  | [] => none
  | first :: rest => if first = c then some rest else none

/-- Takes four decimal numbers in front of a text. -/
def quad? (text : List Char) : Option ((Nat × Nat × Nat × Nat) × List Char) := do
  let (a, text) ← octet? text
  let (b, text) ← octet? (← skip? '.' text)
  let (c, text) ← octet? (← skip? '.' text)
  let (d, text) ← octet? (← skip? '.' text)
  return ((a, b, c, d), text)

/-- The worth of a hexadecimal digit. -/
def hexValue? (c : Char) : Option Nat :=
  if c.isDigit then some (c.toNat - '0'.toNat)
  else if 'a' ≤ c ∧ c ≤ 'f' then some (c.toNat - 'a'.toNat + 10)
  else if 'A' ≤ c ∧ c ≤ 'F' then some (c.toNat - 'A'.toNat + 10)
  else none

/-- Takes one to four hexadecimal digits in front of a text. -/
def group? (text : List Char) : Option (Nat × List Char) :=
  let digits := text.takeWhile fun c ↦ (hexValue? c).isSome
  if digits.isEmpty ∨ 4 < digits.length then none
  else
    some (digits.foldl (fun value c ↦ value * 16 + (hexValue? c).getD 0) 0,
      text.drop digits.length)

/-- Takes up to `limit` groups with colons between them in front of a text; the last two of them may
be written as four decimal numbers, which is told along with the groups. -/
def groups (first : Bool) : Nat → List Char → List Nat × Bool × List Char
  | 0, text => ([], false, text)
  | limit + 1, text =>
    match (if first then some text else skip? ':' text) with
    | none => ([], false, text)
    | some rest =>
      match (if 0 < limit then quad? rest else none) with
      | some ((a, b, c, d), rest) => ([a * 256 + b, c * 256 + d], true, rest)
      | none =>
        match group? rest with
        | none => ([], false, text)
        | some (group, rest) =>
          let (later, quad, rest) := groups false limit rest
          (group :: later, quad, rest)

/-- The address with these groups. -/
def ofGroups (groups : List Nat) : IpAddress :=
  .v6 (Vector.ofFn fun i ↦ UInt16.ofNat (groups.getD i 0))

/-- Reads the text of an address of the second family. -/
def v6? (text : List Char) : Option IpAddress :=
  match groups true 8 text with
  | (head, quad, rest) =>
    if head.length = 8 then if rest.isEmpty then some (ofGroups head) else none
    else if quad then none
    else
      match rest with
      | ':' :: ':' :: rest =>
        let (tail, _, rest) := groups true (7 - head.length) rest
        let zeros := List.replicate (8 - head.length - tail.length) 0
        if rest.isEmpty then some (ofGroups (head ++ zeros ++ tail)) else none
      | _ => none

/-- Reads the text of an address. -/
def parse? (text : String) : Option IpAddress :=
  match quad? text.toList with
  | some ((a, b, c, d), rest) =>
    if rest.isEmpty then
      some (.v4 (UInt8.ofNat a) (UInt8.ofNat b) (UInt8.ofNat c) (UInt8.ofNat d))
    else none
  | none => v6? text.toList

end IpAddress

end ShowControl
