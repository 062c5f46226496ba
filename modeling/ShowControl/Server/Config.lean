import ShowControl.Message.Defaults
import ShowControl.Scene.File
import ShowControl.Server.Options
import ShowControl.Toml.Reader

/-!
# The configuration of the server

A configuration comes from a file, from defaults where the file is silent or is not there, and from
options, which count more. It can be written to a file that gives the same configuration again.
-/

namespace ShowControl

/-- Where the server listens and how it behaves. -/
structure ServerConfig where
  /-- The address of the interface. -/
  bind : IpAddress := .v4 0 0 0 0
  /-- The port; zero for any that is free. -/
  port : Nat := defaultPort
  verbose : Bool := false
  /-- How long a new connection has for its first message, in seconds. -/
  timeout : Nat := handshakeSeconds
  deriving DecidableEq

/-- Why there is no configuration. -/
inductive ConfigError where
  /-- The file is no text. -/
  | file (reason : FileError)
  /-- The text is not in order, or a value is not of the kind that is wanted, or none that a file
  can hold. -/
  | invalid
  deriving DecidableEq, Repr

/-- The wording that is shown to operators, for the file at a path. -/
def ConfigError.message (path : String) : ConfigError → String
  | .file reason => reason.message
  | .invalid => "invalid config " ++ path

/-- How a registry behaves. -/
structure RegistrySettings where
  bind : IpAddress
  /-- How long a new connection has for its first message, in seconds. -/
  handshake : Nat
  /-- How long a message may take to be sent, in seconds. -/
  write : Nat
  /-- So many events are kept for a listener that is slow. -/
  events : Nat

namespace ServerConfig

open Toml

/-- Reads what stands under a key; what is not there is the default. -/
def field {α : Type} (d : Document) (key : String) (default : α) (read? : Value → Option α) :
    Option α :=
  match d.find? key with
  | none => some default
  | some (.value value) => read? value
  | some _ => none

/-- Reads the text of an address. -/
def readAddress : Value → Option IpAddress
  | .string text => IpAddress.parse? text
  | _ => none

/-- The greatest waiting time, in seconds. -/
def maxSeconds : Nat := 18446744073709551615

/-- Reads a number up to a bound. -/
def readNatural (bound : Nat) : Value → Option Nat
  | .integer value => if 0 ≤ value ∧ value ≤ bound then some value.toNat else none
  | _ => none

/-- Reads a truth value. -/
def readBoolean : Value → Option Bool
  | .boolean value => some value
  | _ => none

/-- The configuration of a document. Keys it does not know are passed over. -/
def ofDocument? (d : Document) : Option ServerConfig := do
  let bind ← field d "bind_address" (.v4 0 0 0 0) readAddress
  let port ← field d "renderer_port" defaultPort (readNatural maxPort)
  let verbose ← field d "verbose" false readBoolean
  let timeout ← field d "handshake_timeout_secs" handshakeSeconds (readNatural maxSeconds)
  return { bind, port, verbose, timeout }

/-- The configuration of the content of a file; without a file there are only defaults. -/
def ofFile (content : Option ByteArray) : Except ConfigError ServerConfig :=
  match content with
  | none => .ok {}
  | some _ =>
    match fileText content with
    | .error reason => .error (.file reason)
    | .ok text =>
      match (Document.parse? text).bind ofDocument? with
      | some config => .ok config
      | none => .error .invalid

/-- The configuration with what the options say in place of its own. -/
def override (config : ServerConfig) (options : ServerOptions) : ServerConfig :=
  { config with
    bind := options.bind.getD config.bind
    port := options.port.getD config.port
    verbose := config.verbose || options.verbose }

/-- The configuration of a server that is started with some options. -/
def load (options : ServerOptions) (content : Option ByteArray) :
    Except ConfigError ServerConfig :=
  (ofFile content).map fun config ↦ config.override options

/-- The text of a file that gives the configuration. -/
def save (config : ServerConfig) : String :=
  "bind_address = \"" ++ config.bind.text ++ "\"\n"
    ++ "renderer_port = " ++ toString config.port ++ "\n"
    ++ "verbose = " ++ (if config.verbose then "true" else "false") ++ "\n"
    ++ "handshake_timeout_secs = " ++ toString config.timeout ++ "\n"

/-- The greatest number that a file can hold. -/
def maxInteger : Nat := 9223372036854775807

/-- The text of a file for the configuration, if a file can hold all of it. -/
def save? (config : ServerConfig) : Option String :=
  if config.timeout ≤ maxInteger then some config.save else none

/-- How the registry of the server behaves. A first message always has a second. -/
def registry (config : ServerConfig) : RegistrySettings where
  bind := config.bind
  handshake := max config.timeout 1
  write := writeSeconds
  events := 256

end ServerConfig

/-! ### Where the file is -/

/-- A path below a directory. An empty directory is the current one. -/
def joinPath (directory name : String) : String :=
  if directory.isEmpty then name
  else if directory.endsWith "/" then directory ++ name
  else directory ++ "/" ++ name

/-- The directory that a path is in. -/
def directoryOf (path : String) : String :=
  String.ofList ((path.toList.reverse.dropWhile (· ≠ '/')).drop 1).reverse

/-- The path of the configuration file: the one that is asked for, else one below the directory for
configurations, else one below the home directory. -/
def configPath (configHome home asked : Option String) : String :=
  match asked with
  | some path => path
  | none =>
    let base := configHome.getD (joinPath (home.getD "/tmp") ".config")
    joinPath (joinPath base "projection") "server.toml"

end ShowControl
