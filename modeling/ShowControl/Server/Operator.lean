import ShowControl.Registry.Basic
import ShowControl.Scene.File
import ShowControl.Server.Console

/-!
# What the operator's lines do

A line of the console becomes one message, which is sent to one renderer or to all, and one line of
print. What a renderer makes of the message is told by the events of the registry, not here.
-/

namespace ShowControl

/-- Why a line of the console is not carried out. -/
inductive ConsoleError where
  | definition (reason : DefinitionError)
  | registry (reason : RegistryError)
  deriving DecidableEq

/-- The wording that is shown to operators. -/
def ConsoleError.message : ConsoleError → String
  | .definition reason => reason.message
  | .registry reason => reason.message

/-- The payload that a command sends, given the content of files; nothing if it sends none. -/
def ConsoleCommand.payload (files : String → Option ByteArray) :
    ConsoleCommand → Except DefinitionError (Option Payload)
  | .list => .ok none
  | .loadScene scene => .ok (some (.loadScene ⟨scene⟩))
  | .playCue cue => .ok (some (.playCue ⟨cue⟩))
  | .setFeed surface feed => .ok (some (.setFeedForSurface ⟨surface⟩ ⟨feed⟩))
  | .loadDefinition path =>
    match Definition.ofFile (files path) with
    | .ok definition => .ok (some (.loadSceneDefinition definition))
    | .error reason => .error reason

namespace Registry

variable (r : Registry)

/-- One line about the renderers that are registered. -/
def account : String := toString r.size ++ " renderer(s): " ++ ", ".intercalate r.names

/-- Sends a message to the renderer that is named, or to all; tells what is printed about it. -/
def dispatch (target : Option String) (m : Message) :
    Registry × List RegistryOutput × Except ConsoleError String :=
  match target with
  | none =>
    let (r, outputs, count) := r.broadcast m
    (r, outputs, .ok ("sent " ++ m.commandId ++ " to " ++ toString count ++ " renderer(s)"))
  | some name =>
    match r.send name m with
    | (r, outputs, .ok ()) => (r, outputs, .ok ("sent " ++ m.commandId ++ " to " ++ name))
    | (r, outputs, .error (.unknownRenderer name)) =>
      (r, outputs, .ok ("no renderer named " ++ name))
    | (r, outputs, .error reason) => (r, outputs, .error (.registry reason))

/-- Carries a line of the console out. The message that it sends has this command id. -/
def execute (files : String → Option ByteArray) (commandId : String) (line : ConsoleLine) :
    Registry × List RegistryOutput × Except ConsoleError String :=
  match line.command.payload files with
  | .error reason => (r, [], .error (.definition reason))
  | .ok none => (r, [], .ok r.account)
  | .ok (some payload) => r.dispatch line.target ⟨commandId, payload⟩

end Registry

/-- What a text that was typed comes to. -/
inductive Entry where
  | blank
  | usage (reason : UsageError)
  | executed (result : Except ConsoleError String)

/-- The line that the server prints. A failure is no matter for the console. -/
def Entry.printed? : Entry → Option String
  | .blank => none
  | .usage reason => some reason.message
  | .executed (.ok line) => some line
  | .executed (.error _) => none

/-- The operator types a text. -/
def Registry.enter (r : Registry) (files : String → Option ByteArray) (commandId text : String) :
    Registry × List RegistryOutput × Entry :=
  match ConsoleLine.parse text with
  | .error reason => (r, [], .usage reason)
  | .ok none => (r, [], .blank)
  | .ok (some line) =>
    let (r, outputs, result) := r.execute files commandId line
    (r, outputs, .executed result)

/-- What the server prints when texts are typed one after the other, each with the command id that
its message gets. -/
def Registry.console (r : Registry) (files : String → Option ByteArray)
    (typed : List (String × String)) : Registry × List String :=
  let type (r : Registry) (entry : String × String) : Registry × List String :=
    let (r, _, entry) := r.enter files entry.1 entry.2
    (r, entry.printed?.toList)
  Transducer.run type r typed

end ShowControl
