import ShowControl.Text.Integer

/-!
# Host and port

An address is a host, a colon and a port. The last colon counts, so that a host may hold colons of
its own; brackets around the host are dropped.
-/

namespace ShowControl

/-- The greatest port. -/
def maxPort : Nat := 65535

/-- Why a text is no address. -/
inductive HostPortError where
  /-- There is no colon in the text. -/
  | noPort (text : String)
  /-- What follows the last colon of the text is no port. -/
  | invalidPort (text : String) (reason : Text.IntegerError)
  deriving DecidableEq, Repr

namespace HostPortError

/-- The wording that is shown to operators. -/
def message : HostPortError → String
  | .noPort text => "expected HOST:PORT, got '" ++ text ++ "'"
  | .invalidPort text _ => "invalid port in '" ++ text ++ "'"

/-- The wording of what is behind it, if anything is. -/
def cause? : HostPortError → Option String
  | .noPort _ => none
  | .invalidPort _ reason => some reason.message

end HostPortError

/-- A host and the port to talk to. -/
structure HostPort where
  host : String
  port : Nat
  deriving DecidableEq, Repr

namespace HostPort

/-- What comes before the last occurrence of a character, and what comes after it. -/
def splitLast? (mark : Char) : List Char → Option (List Char × List Char)
  | [] => none
  | c :: rest =>
    match splitLast? mark rest with
    | some (before, after) => some (c :: before, after)
    | none => if c = mark then some ([], rest) else none

/-- The character is a bracket. -/
def isBracket (c : Char) : Bool := c = '[' || c = ']'

/-- A text without the brackets at its ends. -/
def trimBrackets (cs : List Char) : List Char :=
  ((cs.dropWhile isBracket).reverse.dropWhile isBracket).reverse

/-- Reads an address. -/
def parse (text : String) : Except HostPortError HostPort :=
  match splitLast? ':' text.toList with
  | none => .error (.noPort text)
  | some (host, port) =>
    match Text.naturalUpTo maxPort (String.ofList port) with
    | .error reason => .error (.invalidPort text reason)
    | .ok port => .ok { host := String.ofList (trimBrackets host), port }

end HostPort

end ShowControl
