import ShowControl.Json.Number

/-!
# Writing JSON

The compact text of a value: no blanks, members in the order they are kept in, and of the characters
of a string only the quote, the backslash and those below U+0020 are escaped. Whatever is written
is therefore a single line.
-/

namespace ShowControl.Json

/-- A hexadecimal digit, lower case. -/
def hexDigit (n : Nat) : Char := (n % 16).digitChar

/-- A character within a string. -/
def escape (c : Char) : List Char :=
  if c = '"' then ['\\', '"']
  else if c = '\\' then ['\\', '\\']
  else if c = '\x08' then ['\\', 'b']
  else if c = '\t' then ['\\', 't']
  else if c = '\n' then ['\\', 'n']
  else if c = '\x0c' then ['\\', 'f']
  else if c = '\r' then ['\\', 'r']
  else if c < ' ' then ['\\', 'u', '0', '0', hexDigit (c.toNat / 16), hexDigit c.toNat]
  else [c]

/-- Writes characters behind a text. -/
def pushAll (out : String) (cs : List Char) : String := cs.foldl String.push out

/-- Writes a quoted string behind a text. -/
def writeText (out : String) (text : String) : String :=
  (text.foldl (fun out c ↦ pushAll out (escape c)) (out.push '"')).push '"'

mutual

/-- Writes a value behind a text. -/
def write (out : String) : Json → String
  | .null => out ++ "null"
  | .bool value => out ++ (if value then "true" else "false")
  | .integer value => pushAll out (Number.integerText value)
  | .float value => pushAll out (Number.floatText value)
  | .string value => writeText out value
  | .array [] => out ++ "[]"
  | .array (item :: items) => (writeItems (write (out.push '[') item) items).push ']'
  | .object [] => out ++ "\x7b\x7d"
  | .object ((key, value) :: members) =>
    (writeMembers (write ((writeText (out.push '\x7b') key).push ':') value) members).push '\x7d'

/-- Writes the items after the first. -/
def writeItems (out : String) : List Json → String
  | [] => out
  | item :: items => writeItems (write (out.push ',') item) items

/-- Writes the members after the first. -/
def writeMembers (out : String) : List (String × Json) → String
  | [] => out
  | (key, value) :: members =>
    writeMembers (write ((writeText (out.push ',') key).push ':') value) members

end

/-- The compact text of a value. -/
def render (value : Json) : String := write "" value

end ShowControl.Json
