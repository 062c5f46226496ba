import ShowControl.Address.HostPort
import ShowControl.Address.Ip
import ShowControl.CommandLine

/-!
# Arguments of the server

All options may be left out; those that are given count more than the configuration file.
-/

namespace ShowControl

open CommandLine

/-- What the server is told when it is started. -/
structure ServerOptions where
  /-- The path of the configuration file. -/
  config : Option String
  port : Option Nat
  bind : Option IpAddress
  verbose : Bool
  /-- Write the configuration and end. -/
  writeConfig : Bool

namespace ServerOptions

/-- The options of the server. -/
def grammar : Grammar where
  switches :=
    [{ long := "config", effect := .value nonEmpty },
      { long := "port", effect := .value (readBy (Text.integerUpTo? maxPort)) },
      { long := "bind", effect := .value (readBy IpAddress.parse?) },
      { long := "verbose", short := some 'v', effect := .flag },
      { long := "write-config", effect := .flag },
      { long := "help", short := some 'h', effect := .help },
      { long := "version", short := some 'V', effect := .version }]

/-- Reads the arguments of the server. -/
def read (arguments : List String) : Except Refusal ServerOptions := do
  let a ← grammar.read arguments
  return {
    config := a.value? "config"
    port := (a.value? "port").bind (Text.integerUpTo? maxPort)
    bind := (a.value? "bind").bind IpAddress.parse?
    verbose := a.has "verbose"
    writeConfig := a.has "write-config" }

end ServerOptions

end ShowControl
