import ShowControl.Text.Integer
import ShowControl.Toml.Value

/-!
# Reading a configuration file

A file is a sequence of lines: keys with values, headers of tables, comments and blank lines. The
readers below take something in front of a text and give what follows it. Those that may take many
steps carry fuel. Each step takes a character or opens one of the values that nest, which are fewer
than `nestingLimit`, so `fuelFor` is enough for all that a text holds.
-/

namespace ShowControl.Toml

/-- A text, as its characters. -/
abbrev Chars := List Char

/-! ### Blanks, comments and line ends -/

/-- The blanks within a line. -/
def isBlank (c : Char) : Bool := c = ' ' || c = '\t'

/-- The character may stand in a comment. -/
def isComment (c : Char) : Bool := c = '\t' || (' ' ≤ c && c ≠ '\x7f')

/-- Leaves out blanks. -/
def skipBlanks (text : Chars) : Chars := text.dropWhile isBlank

/-- Leaves out a comment, if there is one. -/
def skipComment : Chars → Chars
  | '#' :: text => text.dropWhile isComment
  | text => text

/-- Takes a line feed, with a carriage return before it or without. -/
def newline? : Chars → Option Chars
  | '\n' :: text => some text
  | '\r' :: '\n' :: text => some text
  | _ => none

/-- Takes the rest of a line on which nothing but a comment follows. -/
def endLine? (text : Chars) : Option Chars :=
  match skipComment (skipBlanks text) with
  | [] => some []
  | text => newline? text

/-- Leaves out blanks, comments and line ends. -/
def skipLines : Nat → Chars → Chars
  | 0, text => text
  | fuel + 1, text =>
    match newline? (skipComment (skipBlanks text)) with
    | some text => skipLines fuel text
    | none => skipBlanks text

/-! ### Strings -/

/-- The character may stand in a string between quotes. -/
def isQuoted (c : Char) : Bool := isComment c && c ≠ '"' && c ≠ '\\'

/-- The character may stand in a string between apostrophes. -/
def isLiteral (c : Char) : Bool := isComment c && c ≠ '\''

/-- The worth of a hexadecimal digit. -/
def hexDigit? (c : Char) : Option Nat :=
  if c.isDigit then some (c.toNat - '0'.toNat)
  else if 'a' ≤ c ∧ c ≤ 'f' then some (c.toNat - 'a'.toNat + 10)
  else if 'A' ≤ c ∧ c ≤ 'F' then some (c.toNat - 'A'.toNat + 10)
  else none

/-- Takes the character with a code of so many hexadecimal digits. -/
def code? (count : Nat) (text : Chars) : Option (Char × Chars) := do
  let digits := text.take count
  if digits.length < count then none
  let value ← digits.foldlM (fun value c ↦ (hexDigit? c).map fun d ↦ value * 16 + d) 0
  if value < 0xD800 ∨ (0xDFFF < value ∧ value < 0x110000) then
    some (Char.ofNat value, text.drop count)
  else none

/-- Takes what follows a backslash. -/
def escape? : Chars → Option (Char × Chars)
  | 'b' :: text => some ('\x08', text)
  | 't' :: text => some ('\t', text)
  | 'n' :: text => some ('\n', text)
  | 'f' :: text => some ('\x0c', text)
  | 'r' :: text => some ('\r', text)
  | '"' :: text => some ('"', text)
  | '\\' :: text => some ('\\', text)
  | 'u' :: text => code? 4 text
  | 'U' :: text => code? 8 text
  | _ => none

/-- Takes a string up to its closing quote; the content so far is last first. -/
def quoted (content : Chars) : Nat → Chars → Option (String × Chars)
  | 0, _ => none
  | _, [] => none
  | fuel + 1, c :: text =>
    if c = '"' then some (String.ofList content.reverse, text)
    else if c = '\\' then do
      let (c, text) ← escape? text
      quoted (c :: content) fuel text
    else if isQuoted c then quoted (c :: content) fuel text
    else none

/-- Takes a string up to its closing apostrophe. -/
def literal? (text : Chars) : Option (String × Chars) :=
  match text.dropWhile isLiteral with
  | '\'' :: rest => some (String.ofList (text.takeWhile isLiteral), rest)
  | _ => none

/-- Leaves out blanks and line ends. A carriage return alone is neither. -/
def skipSpace : Chars → Chars
  | '\r' :: '\n' :: text => skipSpace text
  | c :: text => if isBlank c || c = '\n' then skipSpace text else c :: text
  | [] => []

/-- The marks at the front of a text. Three of them end a string of several lines; of further ones
up to two still belong to it. -/
def closing? (mark : Char) (text : Chars) : Option (Nat × Chars) :=
  let count := (text.takeWhile (· = mark)).length
  if count < 3 then none
  else
    let extra := min (count - 3) 2
    some (extra, text.drop (extra + 3))

/-- Takes a string of several lines up to its closing marks. -/
def multiline (mark : Char) (content : Chars) : Nat → Chars → Option (String × Chars)
  | 0, _ => none
  | fuel + 1, text =>
    match closing? mark text with
    | some (extra, rest) =>
      some (String.ofList (content.reverse ++ List.replicate extra mark), rest)
    | none =>
      match newline? text with
      | some rest => multiline mark ('\n' :: content) fuel rest
      | none =>
        match text with
        | [] => none
        | c :: rest =>
          if c = '\\' ∧ mark = '"' then
            match newline? (skipBlanks rest) with
            | some rest => multiline mark content fuel (skipSpace rest)
            | none =>
              match escape? rest with
              | some (c, rest) => multiline mark (c :: content) fuel rest
              | none => none
          else if isComment c then multiline mark (c :: content) fuel rest
          else none

/-- Leaves out the line end right behind the opening marks. -/
def skipNewline (text : Chars) : Chars := (newline? text).getD text

/-! ### Keys -/

/-- The character may stand in a key without quotes. -/
def isBare (c : Char) : Bool := c.isAlphanum || c = '_' || c = '-'

/-- Takes one part of a key. -/
def part? (fuel : Nat) : Chars → Option (String × Chars)
  | '"' :: text => quoted [] fuel text
  | '\'' :: text => literal? text
  | text =>
    let bare := text.takeWhile isBare
    if bare.isEmpty then none else some (String.ofList bare, text.dropWhile isBare)

/-- So many parts make a key too long, and so many open values nest too deep. -/
def nestingLimit : Nat := 80

/-- The fuel to read a text with. -/
def fuelFor (text : Chars) : Nat := text.length + nestingLimit + 1

/-- Takes the parts of a key, with blanks around each. -/
def parts : Nat → Chars → Option (List String × Chars)
  | 0, _ => none
  | fuel + 1, text => do
    let (first, text) ← part? fuel (skipBlanks text)
    match skipBlanks text with
    | '.' :: text =>
      match parts fuel text with
      | some (rest, text) => some (first :: rest, text)
      | none => none
    | text => some ([first], text)

/-- Takes a key: the parts before the last, and the last. -/
def key? (fuel : Nat) (text : Chars) : Option ((List String × String) × Chars) := do
  let (all, text) ← parts fuel text
  if nestingLimit ≤ all.length then none
  return ((all.dropLast, ← all.getLast?), text)

/-! ### Numbers and times -/

/-- Takes digits with single underscores between them, behind those already taken. An underscore
that no digit follows is a fault. -/
def digitsFrom (isDigit : Char → Bool) (taken : Chars) : Chars → Option (Chars × Chars)
  | [] => some (taken.reverse, [])
  | [c] =>
    if isDigit c then some ((c :: taken).reverse, [])
    else if c = '_' then none
    else some (taken.reverse, [c])
  | c :: d :: text =>
    if isDigit c then digitsFrom isDigit (c :: taken) (d :: text)
    else if c = '_' then
      if isDigit d then digitsFrom isDigit taken (d :: text) else none
    else some (taken.reverse, c :: d :: text)

/-- Takes digits of which there must be one. -/
def digits? (isDigit : Char → Bool) (text : Chars) : Option (Chars × Chars) :=
  match text with
  | c :: _ => if isDigit c then digitsFrom isDigit [] text else none
  | [] => none

/-- Takes a sign: whether it is a minus. -/
def takeSign : Chars → Bool × Chars
  | '+' :: text => (false, text)
  | '-' :: text => (true, text)
  | text => (false, text)

/-- Takes the digits of a whole number: a zero alone, or digits that do not begin with one. -/
def whole? : Chars → Option (Chars × Chars)
  | '0' :: text => some (['0'], text)
  | text => digits? Char.isDigit text

/-- No text is long enough to make up for an exponent of this size. -/
def exponentCap : Nat := 2147483648

/-- Takes an exponent, if its mark is there. -/
def exponent? (text : Chars) : Option (Option Int × Chars) :=
  match text with
  | c :: rest =>
    if c = 'e' ∨ c = 'E' then
      let (negative, rest) := takeSign rest
      match digits? Char.isDigit rest with
      | some (ds, rest) =>
        let e : Int := Text.worthUpTo exponentCap 10 (ds.map Text.digitWorth)
        some (some (if negative then -e else e), rest)
      | none => none
    else some (none, text)
  | [] => some (none, text)

/-- Half way from the greatest finite number of 64 bits to the power of two above it. -/
def overflowBound : Nat := Nat.pow 2 1024 - Nat.pow 2 970

/-- The decimal `digits * 10 ^ exponent` rounds to infinity in 64 bits: its whole part is not below
the bound, which has 309 digits. -/
def overflows (digits : Chars) (exponent : Int) : Bool :=
  let digits := digits.dropWhile (· = '0')
  let size := digits.length + exponent
  if digits.isEmpty ∨ size < 309 then false
  else if 309 < size then true
  else
    let whole := digits.take 309
    overflowBound ≤ Nat.ofDigitChars 10 whole 0 * Nat.pow 10 (309 - whole.length)

/-- The integer of these digits, if it is one of 64 bits with a sign. -/
def signed64? (negative : Bool) (base : Nat) (digits : List Nat) : Option Value :=
  let magnitude := Text.worthUpTo 9223372036854775809 base digits
  if negative ∧ magnitude ≤ 9223372036854775808 then some (.integer (-magnitude))
  else if magnitude ≤ 9223372036854775807 then some (.integer magnitude)
  else none

/-- Takes an integer in another base than ten. -/
def based? (base : Nat) (text : Chars) : Option (Value × Chars) := do
  let isDigit (c : Char) : Bool := (hexDigit? c).any (· < base)
  let (ds, text) ← digits? isDigit text
  return (← signed64? false base (ds.map fun c ↦ (hexDigit? c).getD 0), text)

/-- Takes a word in front of a text. -/
def word? (word : String) (text : Chars) : Option Chars :=
  if word.toList.isPrefixOf text then some (text.drop word.length) else none

/-- Takes a number. -/
def number? (text : Chars) : Option (Value × Chars) :=
  match text with
  | '0' :: 'x' :: text => based? 16 text
  | '0' :: 'o' :: text => based? 8 text
  | '0' :: 'b' :: text => based? 2 text
  | _ =>
    let (negative, text) := takeSign text
    match word? "inf" text, word? "nan" text with
    | some text, _ => some (.float, text)
    | _, some text => some (.float, text)
    | none, none => do
      let (ds, text) ← whole? text
      match text with
      | '.' :: text =>
        let (fraction, text) ← digits? Char.isDigit text
        let (e, text) ← exponent? text
        if !negative ∧ overflows (ds ++ fraction) (e.getD 0 - fraction.length) then none
        else some (.float, text)
      | text =>
        match ← exponent? text with
        | (some e, text) => if !negative ∧ overflows ds e then none else some (.float, text)
        | (none, text) => return (← signed64? negative 10 (ds.map Text.digitWorth), text)

/-- Takes a number of so many digits. -/
def fixed? (count : Nat) (text : Chars) : Option (Nat × Chars) :=
  let ds := text.take count
  if ds.length = count ∧ ds.all Char.isDigit then
    some (Nat.ofDigitChars 10 ds 0, text.drop count)
  else none

/-- Takes a character. -/
def mark? (mark : Char) : Chars → Option Chars
  | c :: text => if c = mark then some text else none
  | [] => none

/-- The days of a month. -/
def daysIn (year month : Nat) : Nat :=
  if month = 2 then
    if year % 4 = 0 ∧ (year % 100 ≠ 0 ∨ year % 400 = 0) then 29 else 28
  else if month = 4 ∨ month = 6 ∨ month = 9 ∨ month = 11 then 30
  else 31

/-- Takes a date. -/
def date? (text : Chars) : Option Chars := do
  let (year, text) ← fixed? 4 text
  let (month, text) ← fixed? 2 (← mark? '-' text)
  let (day, text) ← fixed? 2 (← mark? '-' text)
  if 1 ≤ month ∧ month ≤ 12 ∧ 1 ≤ day ∧ day ≤ daysIn year month then some text else none

/-- Takes a time of day. -/
def time? (text : Chars) : Option Chars := do
  let (hour, text) ← fixed? 2 text
  let (minute, text) ← fixed? 2 (← mark? ':' text)
  let (second, text) ← fixed? 2 (← mark? ':' text)
  if 23 < hour ∨ 59 < minute ∨ 60 < second then none
  match text with
  | '.' :: text =>
    if (text.takeWhile Char.isDigit).isEmpty then none else some (text.dropWhile Char.isDigit)
  | text => some text

/-- Takes the distance from universal time, if it is there. -/
def offset? : Chars → Option Chars
  | [] => some []
  | c :: text =>
    if c = 'Z' ∨ c = 'z' then some text
    else if c = '+' ∨ c = '-' then do
      let (hour, text) ← fixed? 2 text
      let (minute, text) ← fixed? 2 (← mark? ':' text)
      if hour ≤ 23 ∧ minute ≤ 59 then some text else none
    else some (c :: text)

/-- A time of day seems to begin here. -/
def looksLikeTime (text : Chars) : Bool :=
  ((fixed? 2 text).bind fun (_, text) ↦ mark? ':' text).isSome

/-- Takes a date, a time, or both. -/
def moment? (text : Chars) : Option Chars :=
  if looksLikeTime text then time? text
  else do
    let text ← date? text
    match text with
    | c :: rest =>
      if (c = 'T' ∨ c = 't' ∨ c = ' ') ∧ looksLikeTime rest then offset? (← time? rest)
      else some text
    | [] => some []

/-- A date or a time seems to begin here. -/
def looksLikeMoment (text : Chars) : Bool :=
  looksLikeTime text || ((fixed? 4 text).bind fun (_, text) ↦ mark? '-' text).isSome

/-! ### Values -/

/-- Takes a value that holds no others. -/
def scalar? (fuel : Nat) (text : Chars) : Option (Value × Chars) :=
  match text with
  | '"' :: '"' :: '"' :: rest =>
    (multiline '"' [] fuel (skipNewline rest)).map fun (s, rest) ↦ (.string s, rest)
  | '\'' :: '\'' :: '\'' :: rest =>
    (multiline '\'' [] fuel (skipNewline rest)).map fun (s, rest) ↦ (.string s, rest)
  | '"' :: rest => (quoted [] fuel rest).map fun (s, rest) ↦ (.string s, rest)
  | '\'' :: rest => (literal? rest).map fun (s, rest) ↦ (.string s, rest)
  | 't' :: rest => (word? "rue" rest).map fun rest ↦ (.boolean true, rest)
  | 'f' :: rest => (word? "alse" rest).map fun rest ↦ (.boolean false, rest)
  | _ =>
    if looksLikeMoment text then (moment? text).map fun rest ↦ (.time, rest)
    else number? text

mutual

/-- Takes a value within `depth` others. -/
def value? (depth : Nat) : Nat → Chars → Option (Value × Chars)
  | 0, _ => none
  | fuel + 1, '[' :: text =>
    if nestingLimit ≤ depth + 1 then none
    else (items? (depth + 1) fuel text).map fun rest ↦ (.array, rest)
  | fuel + 1, '\x7b' :: text =>
    if nestingLimit ≤ depth + 1 then none
    else
      match skipBlanks text with
      | '\x7d' :: rest => some (.inline false [], rest)
      | _ =>
        (members? (depth + 1) [] fuel text).map fun (members, rest) ↦
          (.inline false members, rest)
  | fuel + 1, text => scalar? fuel text

/-- Takes the items of an array and its end. -/
def items? (depth : Nat) : Nat → Chars → Option Chars
  | 0, _ => none
  | fuel + 1, text =>
    match skipLines fuel text with
    | ']' :: rest => some rest
    | text =>
      match value? depth fuel text with
      | none => none
      | some (_, text) =>
        match skipLines fuel text with
        | ',' :: rest => items? depth fuel rest
        | ']' :: rest => some rest
        | _ => none

/-- Takes the members of a table within a line, behind those taken, and its end. -/
def members? (depth : Nat) (members : List (String × Value)) :
    Nat → Chars → Option (List (String × Value) × Chars)
  | 0, _ => none
  | fuel + 1, text =>
    match key? fuel text with
    | some ((path, key), '=' :: text) =>
      match value? depth fuel (skipBlanks text) with
      | none => none
      | some (value, text) =>
        match insertInline key value path members with
        | none => none
        | some members =>
          match skipBlanks text with
          | ',' :: rest => members? depth members fuel rest
          | '\x7d' :: rest => some (members, rest)
          | _ => none
    | _ => none

end

/-! ### Lines -/

/-- Takes a line that holds more than a comment. -/
def statement? (fuel : Nat) (text : Chars) : Option (Statement × Chars) :=
  match text with
  | '[' :: '[' :: text => do
    let ((path, key), text) ← key? fuel text
    let text ← mark? ']' (← mark? ']' text)
    return (.arrayTable path key, ← endLine? text)
  | '[' :: text => do
    let ((path, key), text) ← key? fuel text
    let text ← mark? ']' text
    return (.table path key, ← endLine? text)
  | text => do
    let ((path, key), text) ← key? fuel text
    let text ← mark? '=' text
    let (value, text) ← value? 0 fuel (skipBlanks text)
    return (.pair path key value, ← endLine? text)

/-- Takes all lines, behind those taken, which are last first. -/
def statements (taken : List Statement) : Nat → Chars → Option (List Statement)
  | 0, _ => none
  | fuel + 1, text =>
    match skipBlanks text with
    | [] => some taken.reverse
    | '#' :: rest =>
      match endLine? ('#' :: rest) with
      | some rest => statements taken fuel rest
      | none => none
    | c :: rest =>
      match newline? (c :: rest) with
      | some rest => statements taken fuel rest
      | none =>
        match statement? fuel (c :: rest) with
        | some (statement, rest) => statements (statement :: taken) fuel rest
        | none => none

/-- Leaves out a byte order mark. -/
def skipMark : Chars → Chars
  | '\ufeff' :: text => text
  | text => text

/-- The document of a text. -/
def Document.parse? (text : String) : Option Document :=
  let chars := skipMark text.toList
  (statements [] (fuelFor chars) chars).bind Document.ofStatements?

end ShowControl.Toml
