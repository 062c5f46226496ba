import ShowControl.CommandLine

/-!
# The three programs

The server keeps the registry, a renderer applies commands, a controller sends one. They share how
they are called, how they tell their version and what they exit with.
-/

namespace ShowControl

/-- The programs. -/
inductive Program where
  | server
  | renderer
  | controller
  deriving DecidableEq, Repr

namespace Program

/-- The name that a program goes by. -/
def name : Program → String
  | .server => "projection-server"
  | .renderer => "projection-renderer"
  | .controller => "projection-ctl"

/-- The program with this name. -/
def ofName? : String → Option Program
  | "projection-server" => some .server
  | "projection-renderer" => some .renderer
  | "projection-ctl" => some .controller
  | _ => none

/-- What a program is for, in one line. -/
def purpose : Program → String
  | .server => "Accepts renderer connections and relays show commands"
  | .renderer => "Applies show commands to the local scene state"
  | .controller => "Sends show commands to a renderer"

/-- The version of the programs. -/
def version : String := "0.1.0"

/-- The line that tells the version. -/
def versionLine (p : Program) : String := p.name ++ " " ++ version

end Program

/-- How a program ends: what it exits with and the lines it has put out. -/
structure Ending where
  code : Nat := 0
  printed : List String := []
  errors : List String := []

namespace Ending

/-- The end of a program that is asked for something else than running, or wrongly asked. -/
def refused (p : Program) : CommandLine.Refusal → Ending
  | .displayVersion => { printed := [p.versionLine] }
  | .displayHelp => { printed := [p.purpose] }
  | _ => { code := 2, errors := [p.purpose] }

/-- The end of a program that fails, and the wording of what lies behind the failure. -/
def failed (message : String) (cause : Option String) : Ending :=
  { code := 1
    errors := ("Error: " ++ message) :: match cause with
      | none => []
      | some cause => ["", "Caused by:", "    " ++ cause] }

/-- The first line of what a program has put out as errors. -/
def firstError (e : Ending) : String :=
  let line := (e.errors.headD "").toList.takeWhile (· ≠ '\n')
  String.ofList (if line.getLast? = some '\r' then line.dropLast else line)

end Ending

end ShowControl
