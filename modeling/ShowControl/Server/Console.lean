import ShowControl.Text.Blank

/-!
# The operator's console

An operator types one command per line. It goes to every renderer, or to one of them when the line
begins with `to` and its name; listing the renderers goes to none. Each accepted line is the words
of exactly one `ConsoleLine`.
-/

namespace ShowControl

/-- What an operator may ask for. -/
inductive ConsoleCommand where
  | list
  | loadScene (scene : String)
  | playCue (cue : String)
  | setFeed (surface feed : String)
  | loadDefinition (path : String)
  deriving DecidableEq, Repr

/-- A command and the renderer it is for; without one it is for all. -/
structure ConsoleLine where
  target : Option String
  command : ConsoleCommand
  deriving DecidableEq, Repr

/-- Why a line is no command. -/
inductive UsageError where
  /-- There is no renderer behind `to`. -/
  | missingRenderer
  /-- There is no command behind the renderer. -/
  | missingCommand
  /-- The words are those of no command; the first of them is this. -/
  | unrecognized (word : String)
  deriving DecidableEq, Repr

/-- The wording that is printed. -/
def UsageError.message : UsageError → String
  | .missingRenderer => "usage: to <renderer> <command...>"
  | .missingCommand => "missing command"
  | .unrecognized word => "unrecognized command '" ++ word ++ "'"

namespace ConsoleCommand

/-- The words of a command. -/
def words : ConsoleCommand → List String
  | .list => ["list"]
  | .loadScene scene => ["load-scene", scene]
  | .playCue cue => ["play-cue", cue]
  | .setFeed surface feed => ["set-feed", surface, feed]
  | .loadDefinition path => ["load-definition", path]

/-- The file that a command reads. -/
def path? : ConsoleCommand → Option String
  | .loadDefinition path => some path
  | _ => none

/-- The command with these words; a list of the renderers is for no renderer in particular. -/
def ofWords (targeted : Bool) : List String → Except UsageError ConsoleCommand
  | [] => .error .missingCommand
  | ["list"] => if targeted then .error (.unrecognized "list") else .ok .list
  | ["load-scene", scene] => .ok (.loadScene scene)
  | ["play-cue", cue] => .ok (.playCue cue)
  | ["set-feed", surface, feed] => .ok (.setFeed surface feed)
  | ["load-definition", path] => .ok (.loadDefinition path)
  | word :: _ => .error (.unrecognized word)

end ConsoleCommand

namespace ConsoleLine

/-- The words of a line. -/
def words (line : ConsoleLine) : List String :=
  match line.target with
  | some name => "to" :: name :: line.command.words
  | none => line.command.words

/-- The line with these words; nothing if there are none. -/
def ofWords : List String → Except UsageError (Option ConsoleLine)
  | [] => .ok none
  | ["to"] => .error .missingRenderer
  | "to" :: name :: rest =>
    (ConsoleCommand.ofWords true rest).map fun command ↦ some ⟨some name, command⟩
  | words => (ConsoleCommand.ofWords false words).map fun command ↦ some ⟨none, command⟩

/-- Reads what an operator typed; nothing for a blank line. -/
def parse (text : String) : Except UsageError (Option ConsoleLine) := ofWords (Text.words text)

end ConsoleLine

end ShowControl
