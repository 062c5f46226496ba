import ShowControl.Address.HostPort
import ShowControl.CommandLine
import ShowControl.Message.Defaults

/-!
# Arguments of a renderer

A renderer either talks to a registry or waits for a controller on a port of its own; asked for
both, it refuses.
-/

namespace ShowControl

open CommandLine

/-- What a renderer does with its network. -/
inductive RendererMode where
  /-- Talk to the registry there. -/
  | connect (address : HostPort)
  /-- Wait for a controller on this port. -/
  | listen (port : Nat)
  deriving DecidableEq, Repr

/-- What a renderer is told when it is started. -/
structure RendererOptions where
  /-- The name it gives itself; without one it takes that of its host. -/
  name : Option String
  connect : Option String
  listen : Option Nat
  /-- How often it tries to connect. -/
  attempts : Nat
  verbose : Bool

namespace RendererOptions

/-- The greatest number of attempts. -/
def maxAttempts : Nat := 4294967295

/-- The options of a renderer. -/
def grammar : Grammar where
  switches :=
    [{ long := "name", effect := .value anyText },
      { long := "connect", effect := .value anyText },
      { long := "listen", effect := .value (readBy (Text.integerUpTo? maxPort)) },
      { long := "attempts", effect := .value (readBy (Text.integerUpTo? maxAttempts)) },
      { long := "verbose", short := some 'v', effect := .flag },
      { long := "help", short := some 'h', effect := .help },
      { long := "version", short := some 'V', effect := .version }]

/-- Reads the arguments of a renderer. -/
def read (arguments : List String) : Except Refusal RendererOptions := do
  let a ← grammar.read arguments
  if a.has "connect" && a.has "listen" then .error .argumentConflict
  return {
    name := a.value? "name"
    connect := a.value? "connect"
    listen := (a.value? "listen").bind (Text.integerUpTo? maxPort)
    attempts := ((a.value? "attempts").bind (Text.integerUpTo? maxAttempts)).getD 5
    verbose := a.has "verbose" }

/-- How often a renderer tries to connect; it always tries once. -/
def tries (o : RendererOptions) : Nat := max o.attempts 1

/-- What the renderer does with its network. -/
def mode (o : RendererOptions) : Except HostPortError RendererMode :=
  match o.listen, o.connect with
  | some port, _ => .ok (.listen port)
  | none, some text => (HostPort.parse text).map .connect
  | none, none => .ok (.connect ⟨defaultHost, defaultPort⟩)

end RendererOptions

end ShowControl
