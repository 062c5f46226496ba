import ShowControl.Json.Number

/-!
# Reading JSON

One automaton reads a text character by character: its state is what of a token has been read, what
may come next, and the containers that are still open. Nothing is looked at twice, no recursion
follows the nesting, and a text is a value exactly when the automaton comes to its end with one.

The grammar is strict: four blanks, no raw control character in a string, no surrogate that is not
half of a pair, no leading zero. Containers nest to a depth of 127. Of two members with one key the
later counts.
-/

namespace ShowControl.Json

namespace Reader

/-- What of a token has been read. Characters are kept last first. -/
inductive Lexeme where
  /-- Between tokens. -/
  | blank
  /-- Within one of the three words: what is missing, and what it stands for. -/
  | word (missing : List Char) (value : Json)
  /-- Within a number. -/
  | number (text : List Char)
  /-- Within a string. -/
  | text (content : List Char)
  /-- After the backslash of a string. -/
  | escape (content : List Char)
  /-- Within the four digits of a code; `lead` is the first half of a pair. -/
  | code (content : List Char) (lead : Option Nat) (missing : Nat) (value : Nat)
  /-- After the first half of a pair, which wants a backslash. -/
  | pair (content : List Char) (lead : Nat)
  /-- After that backslash, which wants the mark of a code. -/
  | pairCode (content : List Char) (lead : Nat)

/-- What may come next. -/
inductive Place where
  /-- A value. -/
  | value
  /-- A value, or the end of an array without items. -/
  | firstItem
  /-- A key. -/
  | key
  /-- A key, or the end of an object without members. -/
  | firstKey
  /-- The colon after this key. -/
  | colon (key : String)
  /-- A comma, or the end of a container. -/
  | next
  /-- Nothing but blanks: the text is this value. -/
  | done (value : Json)

/-- A container that is still open. -/
inductive Frame where
  /-- The items so far, last first. -/
  | array (items : List Json)
  /-- The members so far. -/
  | object (members : List (String × Json))
  /-- The members so far, and the key whose value is being read. -/
  | member (members : List (String × Json)) (key : String)

/-- A state of the automaton. -/
structure State where
  lexeme : Lexeme := .blank
  place : Place := .value
  /-- The open containers, innermost first. -/
  frames : List Frame := []

/-- So many containers may be open at once. -/
def maxDepth : Nat := 127

/-- The blanks between tokens. -/
def isBlank (c : Char) : Bool := c = ' ' || c = '\t' || c = '\n' || c = '\r'

/-- The worth of a hexadecimal digit. -/
def hexDigit? (c : Char) : Option Nat :=
  if c.isDigit then some (c.toNat - '0'.toNat)
  else if 'a' ≤ c ∧ c ≤ 'f' then some (c.toNat - 'a'.toNat + 10)
  else if 'A' ≤ c ∧ c ≤ 'F' then some (c.toNat - 'A'.toNat + 10)
  else none

/-- The character of an escape of two characters. -/
def escaped? : Char → Option Char
  | '"' => some '"'
  | '\\' => some '\\'
  | '/' => some '/'
  | 'b' => some '\x08'
  | 'f' => some '\x0c'
  | 'n' => some '\n'
  | 'r' => some '\r'
  | 't' => some '\t'
  | _ => none

/-- Goes on after a complete value. -/
def complete (value : Json) : List Frame → Option State
  | [] => some { place := .done value }
  | .array items :: outer => some { place := .next, frames := .array (value :: items) :: outer }
  | .member members key :: outer =>
    some { place := .next, frames := .object (Entries.insert key value members) :: outer }
  | .object _ :: _ => none

/-- Goes on after a complete string, which is a key or a value. -/
def completeText (content : List Char) (s : State) : Option State :=
  let text := String.ofList content.reverse
  match s.place with
  | .key | .firstKey => some { s with lexeme := .blank, place := .colon text }
  | _ => complete (.string text) s.frames

/-- A value may come next. -/
def State.wantsValue (s : State) : Bool :=
  match s.place with
  | .value | .firstItem => true
  | _ => false

/-- A key may come next. -/
def State.wantsKey (s : State) : Bool :=
  match s.place with
  | .key | .firstKey => true
  | _ => false

/-- Opens a container. -/
def State.open (s : State) (place : Place) (frame : Frame) : Option State :=
  if s.wantsValue ∧ s.frames.length < maxDepth then
    some { place, frames := frame :: s.frames }
  else none

/-- Begins a scalar. -/
def State.begin (s : State) (lexeme : Lexeme) : Option State :=
  if s.wantsValue then some { s with lexeme } else none

/-- Ends an array. -/
def State.closeArray (s : State) : Option State :=
  match s.place, s.frames with
  | .firstItem, .array items :: outer => complete (.array items.reverse) outer
  | .next, .array items :: outer => complete (.array items.reverse) outer
  | _, _ => none

/-- Ends an object. -/
def State.closeObject (s : State) : Option State :=
  match s.place, s.frames with
  | .firstKey, .object members :: outer => complete (.object members) outer
  | .next, .object members :: outer => complete (.object members) outer
  | _, _ => none

/-- Goes on to the next item or member. -/
def State.comma (s : State) : Option State :=
  match s.place, s.frames with
  | .next, .array _ :: _ => some { s with place := .value }
  | .next, .object _ :: _ => some { s with place := .key }
  | _, _ => none

/-- Goes on to the value of a member. -/
def State.colon (s : State) : Option State :=
  match s.place, s.frames with
  | .colon key, .object members :: outer =>
    some { s with place := .value, frames := .member members key :: outer }
  | _, _ => none

/-- Reads a character between tokens. -/
def State.stepBlank (s : State) (c : Char) : Option State :=
  if isBlank c then some s
  else if c.isDigit || c = '-' then s.begin (.number [c])
  else
    match c with
    | '"' => if s.wantsValue || s.wantsKey then some { s with lexeme := .text [] } else none
    | '[' => s.open .firstItem (.array [])
    | ']' => s.closeArray
    | '{' => s.open .firstKey (.object [])
    | '}' => s.closeObject
    | ',' => s.comma
    | ':' => s.colon
    | 't' => s.begin (.word ['r', 'u', 'e'] (.bool true))
    | 'f' => s.begin (.word ['a', 'l', 's', 'e'] (.bool false))
    | 'n' => s.begin (.word ['u', 'l', 'l'] .null)
    | _ => none

/-- The character may stand in a number. -/
def isNumberPart (c : Char) : Bool :=
  c.isDigit || c = '.' || c = 'e' || c = 'E' || c = '+' || c = '-'

/-- Ends a number. -/
def State.endNumber (s : State) (text : List Char) : Option State := do
  let value ← Number.read? text.reverse
  complete value s.frames

/-- Ends a code: a character, or the first half of a pair. -/
def State.endCode (s : State) (content : List Char) (lead : Option Nat) (value : Nat) :
    Option State :=
  match lead with
  | none =>
    if 0xD800 ≤ value ∧ value < 0xDC00 then some { s with lexeme := .pair content value }
    else if 0xDC00 ≤ value ∧ value < 0xE000 then none
    else some { s with lexeme := .text (Char.ofNat value :: content) }
  | some lead =>
    if 0xDC00 ≤ value ∧ value < 0xE000 then
      let scalar := 0x10000 + (lead - 0xD800) * 0x400 + (value - 0xDC00)
      some { s with lexeme := .text (Char.ofNat scalar :: content) }
    else none

/-- Reads one character. -/
def State.step (s : State) (c : Char) : Option State :=
  match s.lexeme with
  | .blank => s.stepBlank c
  | .word [] _ => none
  | .word [last] value => if c = last then complete value s.frames else none
  | .word (first :: rest) value =>
    if c = first then some { s with lexeme := .word rest value } else none
  | .number text =>
    if isNumberPart c then some { s with lexeme := .number (c :: text) }
    else (s.endNumber text).bind fun s ↦ s.stepBlank c
  | .text content =>
    if c = '"' then completeText content s
    else if c = '\\' then some { s with lexeme := .escape content }
    else if c < ' ' then none
    else some { s with lexeme := .text (c :: content) }
  | .escape content =>
    if c = 'u' then some { s with lexeme := .code content none 3 0 }
    else (escaped? c).map fun c ↦ { s with lexeme := .text (c :: content) }
  | .code content lead missing value => do
    let value := value * 16 + (← hexDigit? c)
    match missing with
    | 0 => s.endCode content lead value
    | missing + 1 => some { s with lexeme := .code content lead missing value }
  | .pair content lead =>
    if c = '\\' then some { s with lexeme := .pairCode content lead } else none
  | .pairCode content lead =>
    if c = 'u' then some { s with lexeme := .code content (some lead) 3 0 } else none

/-- Ends the text. -/
def State.finish (s : State) : Option Json :=
  let ended := match s.lexeme with
    | .blank => some s
    | .number text => s.endNumber text
    | _ => none
  match ended with
  | some { place := .done value, .. } => some value
  | _ => none

end Reader

/-- The value of a text. -/
def parse? (text : String) : Option Json :=
  (text.foldl (fun s c ↦ s.bind fun s ↦ s.step c) (some ({} : Reader.State))).bind
    Reader.State.finish

/-- The value of a text in UTF-8. -/
def parseBytes? (text : ByteArray) : Option Json :=
  (String.fromUTF8? text).bind parse?

end ShowControl.Json
