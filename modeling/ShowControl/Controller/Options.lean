import ShowControl.Address.HostPort
import ShowControl.CommandLine
import ShowControl.Message.Defaults
import ShowControl.Scene.File

/-!
# Arguments of a controller

A controller is told where its renderer is and which one command to send. What it sends is settled
before it connects, so that a bad definition file is found without a peer.
-/

namespace ShowControl

open CommandLine

/-- What a controller may send after its hello. -/
inductive ControllerCommand where
  /-- Nothing. -/
  | hello
  | loadScene (scene : String)
  | playCue (cue : String)
  | setFeed (surface feed : String)
  | loadDefinition (path : String)
  deriving DecidableEq, Repr

namespace ControllerCommand

/-- The command with this name and these values. -/
def ofWords (name : String) (values : List String) : ControllerCommand :=
  match name, values with
  | "load-scene", [scene] => .loadScene scene
  | "play-cue", [cue] => .playCue cue
  | "set-feed", [surface, feed] => .setFeed surface feed
  | "load-definition", [path] => .loadDefinition path
  | _, _ => .hello

/-- The file that a command reads. -/
def path? : ControllerCommand → Option String
  | .loadDefinition path => some path
  | _ => none

end ControllerCommand

/-- What a controller is told when it is started. -/
structure ControllerOptions where
  host : String
  port : Nat
  /-- The name in its hello. -/
  name : String
  /-- How long it waits for each reply, in seconds. -/
  timeout : Nat
  verbose : Bool
  command : ControllerCommand

namespace ControllerOptions

/-- The greatest waiting time. -/
def maxTimeout : Nat := 18446744073709551615

/-- Reads a waiting time. -/
def readTimeout? (text : String) : Option Nat := (Text.naturalUpTo maxTimeout text).toOption

/-- The options and commands of a controller. -/
def grammar : Grammar where
  switches :=
    [{ long := "host", effect := .value anyText },
      { long := "port", effect := .value (readBy (Text.integerUpTo? maxPort)) },
      { long := "name", effect := .value anyText },
      { long := "timeout", effect := .value (readBy readTimeout?) },
      { long := "verbose", short := some 'v', effect := .flag },
      { long := "help", short := some 'h', effect := .help },
      { long := "version", short := some 'V', effect := .version }]
  commands := ["hello", "load-scene", "play-cue", "set-feed", "load-definition"]

/-- What follows a command. -/
def inner (command : String) : Grammar where
  switches := [{ long := "help", short := some 'h', effect := .help }]
  values := match command with
    | "load-scene" => [anyText]
    | "play-cue" => [anyText]
    | "set-feed" => [anyText, anyText]
    | "load-definition" => [nonEmpty]
    | _ => []

/-- Reads the arguments of a controller. -/
def read (arguments : List String) : Except Refusal ControllerOptions := do
  let (a, name, own) ← grammar.readCommand inner arguments
  return {
    host := (a.value? "host").getD defaultHost
    port := ((a.value? "port").bind (Text.integerUpTo? maxPort)).getD defaultPort
    name := (a.value? "name").getD "ctl"
    timeout := ((a.value? "timeout").bind readTimeout?).getD 10
    verbose := a.has "verbose"
    command := .ofWords name own.values }

end ControllerOptions

/-- A definition file cannot be sent. -/
structure LoadError where
  path : String
  reason : DefinitionError
  deriving DecidableEq, Repr

/-- The wording that is shown to operators. -/
def LoadError.message (e : LoadError) : String := "cannot load " ++ e.path

/-- The payload that a command sends, given the content of files; nothing if it sends none. -/
def ControllerCommand.payload (files : String → Option ByteArray) :
    ControllerCommand → Except LoadError (Option Payload)
  | .hello => .ok none
  | .loadScene scene => .ok (some (.loadScene ⟨scene⟩))
  | .playCue cue => .ok (some (.playCue ⟨cue⟩))
  | .setFeed surface feed => .ok (some (.setFeedForSurface ⟨surface⟩ ⟨feed⟩))
  | .loadDefinition path =>
    match Definition.ofFile (files path) with
    | .ok definition => .ok (some (.loadSceneDefinition definition))
    | .error reason => .error ⟨path, reason⟩

end ShowControl
