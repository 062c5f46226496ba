import ShowControl.Scene.Validation
import ShowControl.Scene.Wire

/-!
# Definition files

A definition may be kept in a file. What is read from it is a definition that a renderer can draw;
anything else is refused with the reason, before any of it is sent.
-/

namespace ShowControl

/-- Why the text of a file cannot be had. -/
inductive FileError where
  /-- There is no such file. -/
  | absent
  /-- The content is not UTF-8. -/
  | notText
  deriving DecidableEq, Repr

/-- The wording that is shown to operators. -/
def FileError.message : FileError → String
  | .absent => "No such file or directory (os error 2)"
  | .notText => "stream did not contain valid UTF-8"

/-- The text of a file; a file that is not there has no content. -/
def fileText (content : Option ByteArray) : Except FileError String :=
  match content with
  | none => .error .absent
  | some bytes =>
    match String.fromUTF8? bytes with
    | some text => .ok text
    | none => .error .notText

/-- Why a file holds no definition that can be drawn. -/
inductive DefinitionError where
  | file (reason : FileError)
  | decode (reason : DecodeError)
  | invalid (reason : ValidationError)
  deriving DecidableEq, Repr

/-- The wording that is shown to operators. -/
def DefinitionError.message : DefinitionError → String
  | .file reason => "cannot read scene definition: " ++ reason.message
  | .decode reason => reason.message
  | .invalid reason => reason.message

/-- Reads and checks the content of a definition file. -/
def Definition.ofFile (content : Option ByteArray) : Except DefinitionError Definition :=
  match fileText content with
  | .error reason => .error (.file reason)
  | .ok text =>
    match Definition.decode text with
    | .error reason => .error (.decode reason)
    | .ok definition =>
      match definition.check with
      | .error reason => .error (.invalid reason)
      | .ok () => .ok definition

end ShowControl
