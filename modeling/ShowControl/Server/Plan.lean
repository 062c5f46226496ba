import ShowControl.Server.Config

/-!
# What the server is to do

The arguments of the server, its environment and its configuration file settle what it does before
it does anything.
-/

namespace ShowControl

open CommandLine

/-- What the server does. -/
inductive ServerPlan where
  /-- The arguments are not accepted. -/
  | refuse (reason : Refusal)
  /-- There is no configuration, or none that can be written; the file is at this path. -/
  | fail (path : String) (reason : ConfigError)
  /-- Write the configuration to a file and end. -/
  | write (path text : String)
  | serve (config : ServerConfig)

/-- What a server does that is started with these arguments in an environment with these directories
for configurations and for the user, and with these files. -/
def ServerPlan.of (arguments : List String) (configHome home : Option String)
    (files : String → Option ByteArray) : ServerPlan :=
  match ServerOptions.read arguments with
  | .error reason => .refuse reason
  | .ok options =>
    let path := configPath configHome home options.config
    match ServerConfig.load options (files path) with
    | .error reason => .fail path reason
    | .ok config =>
      if options.writeConfig then
        match config.save? with
        | some text => .write path text
        | none => .fail path .invalid
      else .serve config

end ShowControl
