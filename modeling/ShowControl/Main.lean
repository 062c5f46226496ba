import ShowControl.Controller.Session
import ShowControl.Network
import ShowControl.Registry.Run
import ShowControl.Renderer.Link
import ShowControl.Renderer.Listener
import ShowControl.Renderer.Options
import ShowControl.Server.Operator
import ShowControl.Server.Plan
import Std.Async.System

/-!
# Running the programs

The first argument names the program, the others are its own. A program is a loop that passes what
happens on to a registry, a link or a listener and does what that puts out; a controller is run
again with what its peer has sent so far until nothing is missing.
-/

namespace ShowControl

open Network

/-- Prints how a program ends and gives what it exits with. -/
def Ending.perform (e : Ending) : IO UInt32 := do
  e.printed.forM fun line ↦ IO.println line
  e.errors.forM fun line ↦ IO.eprintln line
  return e.code.toUInt32

/-- One line about an event. -/
def RegistryEvent.line : RegistryEvent → String
  | .registered name => "renderer online: " ++ name
  | .rejected reason => "connection rejected: " ++ reason
  | .acknowledged name commandId => "command applied by " ++ name ++ ": " ++ commandId
  | .commandFailed name commandId message =>
    "command failed at " ++ name ++ ": " ++ commandId ++ ": " ++ message
  | .disconnected name => "renderer offline: " ++ name

/-- The sockets of peers. -/
abbrev Sockets := List (String × Socket)

/-- Writes lines to a peer. A peer that cannot be written to is about to be known as gone. -/
def Sockets.write (sockets : Sockets) (peer : String) (lines : List String) : IO Unit := do
  match sockets.lookup peer with
  | some socket => unless lines.isEmpty do discard (Network.write socket (frames lines))
  | none => return

/-- Closes the connection with a peer and forgets it. -/
def Sockets.close (sockets : Sockets) (peer : String) : IO Sockets := do
  match sockets.lookup peer with
  | some socket => Network.close socket
  | none => pure ()
  return sockets.filter fun entry ↦ entry.1 ≠ peer

/-! ### The server -/

/-- Does what a registry puts out. -/
def RegistryOutput.perform (sockets : Sockets) : RegistryOutput → IO Sockets
  | .event e => do
    log e.line
    return sockets
  | .line peer text => do
    sockets.write peer [text]
    return sockets
  | .closed peer => sockets.close peer

/-- Keeps a registry until the program is interrupted. -/
partial def Registry.serve (r : Registry) (settings : RegistrySettings) (h : Happenings)
    (sockets : Sockets) : IO Unit := do
  let goOn (r : Registry) (outputs : List RegistryOutput) : IO Unit := do
    r.serve settings h (← outputs.foldlM RegistryOutput.perform sockets)
  match ← h.next with
  | .connected peer socket =>
    match r.accept peer with
    | (r, true) =>
      beside (h.follow peer socket)
      startTimer h peer settings.handshake
      r.serve settings h ((peer, socket) :: sockets)
    | (r, false) =>
      Network.close socket
      r.serve settings h sockets
  | .received peer bytes =>
    let (r, outputs) := r.receive peer bytes
    goOn r outputs
  | .ended peer =>
    let (r, outputs) := r.hangUp peer
    let sockets ← sockets.close peer
    r.serve settings h (← outputs.foldlM RegistryOutput.perform sockets)
  | .timedOut peer =>
    let (r, outputs) := r.timeOut peer
    goOn r outputs
  | .typed text =>
    let path := match ConsoleLine.parse text with
      | .ok (some line) => line.command.path?
      | _ => none
    let content ← readFile? path
    let (r, outputs, entry) := r.enter (fun _ ↦ content) (← freshId) text
    let sockets ← outputs.foldlM RegistryOutput.perform sockets
    match entry with
    | .executed (.error reason) => log ("console command failed: " ++ reason.message)
    | entry => entry.printed?.toList.forM fun line ↦ IO.println line
    r.serve settings h sockets
  | .interrupted =>
    discard (r.stop.2.foldlM RegistryOutput.perform sockets)

/-- Runs the server. -/
def runServer (arguments : List String) : IO UInt32 := do
  let configHome ← IO.getEnv "XDG_CONFIG_HOME"
  let home ← IO.getEnv "HOME"
  let content ← match ServerOptions.read arguments with
    | .ok options => readFile? (some (configPath configHome home options.config))
    | .error _ => pure none
  match ServerPlan.of arguments configHome home fun _ ↦ content with
  | .refuse reason => (Ending.refused .server reason).perform
  | .fail path reason => (Ending.failed (reason.message path) none).perform
  | .write path text =>
    try
      let directory := directoryOf path
      unless directory.isEmpty do IO.FS.createDirAll directory
      IO.FS.writeFile path text
      Ending.perform { printed := ["wrote " ++ path] }
    catch e => (Ending.failed (toString e) none).perform
  | .serve config =>
    try
      let (server, port) ← listen config.bind config.port
      let h : Happenings ← Std.Channel.new
      h.watchInterrupt
      discard (IO.asTask h.listenToOperator .dedicated)
      beside (h.welcome server 0)
      log ("server ready at port " ++ toString port)
      (({} : Registry).start (some port)).1.serve config.registry h []
      return 0
    catch e => (Ending.failed (toString e) none).perform

/-! ### The renderer -/

/-- Keeps a link until it ends or the program is interrupted. -/
partial def Link.serve (l : Link Stage) (h : Happenings) (socket : Socket) : IO (Link Stage) := do
  let goOn (l : Link Stage) : IO (Link Stage) :=
    if l.service.isOpen then l.serve h socket else return l
  match ← h.next with
  | .received _ bytes =>
    let (l, replies) := l.receive .stage bytes
    unless replies.isEmpty do discard (Network.write socket (frames replies))
    goOn l
  | .ended _ => return l.hangUp
  | .timedOut _ => goOn l.timeOut
  | .interrupted => return l.stop
  | _ => goOn l

/-- Dials until it succeeds or there are no tries left. -/
def dialAgain (address : HostPort) : Nat → IO (Except DialError Socket)
  | 0 => dial address.host address.port connectSeconds
  | more + 1 => do
    match ← dial address.host address.port connectSeconds with
    | .ok socket => return .ok socket
    | .error _ =>
      IO.sleep 2000
      dialAgain address more

/-- Runs a renderer that talks to a registry. -/
def runLink (o : RendererOptions) (address : HostPort) : IO UInt32 := do
  let name ← match o.name with
    | some name => pure name
    | none => try Std.Async.System.getHostName catch _ => pure "renderer"
  match ← dialAgain address (o.tries - 1) with
  | .error reason =>
    let failure := LinkError.transport (reason.at (address.host ++ ":" ++ toString address.port))
    (Ending.failed failure.message failure.cause?).perform
  | .ok socket =>
    match Link.start name (← freshId) ({} : Stage) with
    | .error reason => (Ending.failed reason.message reason.cause?).perform
    | .ok (l, hello) =>
      let h : Happenings ← Std.Channel.new
      h.watchInterrupt
      discard (Network.write socket (frames [hello]))
      beside (h.follow "" socket)
      startTimer h "" handshakeSeconds
      let l ← l.serve h socket
      Network.close socket
      match l.status with
      | .failed reason => (Ending.failed reason.message reason.cause?).perform
      | _ =>
        log l.service.state.farewell
        return 0

/-- Does what a listener puts out. -/
def ListenerOutput.perform (sockets : Sockets) : ListenerOutput → IO Sockets
  | .line peer text => do
    sockets.write peer [text]
    return sockets
  | .closed peer => sockets.close peer

/-- Keeps a listener until the program is interrupted. -/
partial def Listener.serveAll (l : Listener Stage) (h : Happenings) (sockets : Sockets) :
    IO Stage := do
  match ← h.next with
  | .connected peer socket =>
    beside (h.follow peer socket)
    (l.accept peer).1.serveAll h ((peer, socket) :: sockets)
  | .received peer bytes =>
    let (l, outputs) := l.receive .stage peer bytes
    l.serveAll h (← outputs.foldlM ListenerOutput.perform sockets)
  | .ended peer =>
    let (l, outputs) := l.hangUp .stage peer
    l.serveAll h (← outputs.foldlM ListenerOutput.perform (← sockets.close peer))
  | .interrupted =>
    discard (l.stop.2.foldlM ListenerOutput.perform sockets)
    return l.state
  | _ => l.serveAll h sockets

/-- Runs a renderer that controllers connect to. -/
def runListener (port : Nat) : IO UInt32 := do
  try
    let (server, port) ← listen (.v4 0 0 0 0) port
    let h : Happenings ← Std.Channel.new
    h.watchInterrupt
    beside (h.welcome server 0)
    log ("waiting for controllers at port " ++ toString port)
    let state ← ({ state := {} } : Listener Stage).serveAll h []
    log state.farewell
    return 0
  catch e =>
    let failure := LinkError.system (toString e)
    (Ending.failed failure.message failure.cause?).perform

/-- Runs a renderer. -/
def runRenderer (arguments : List String) : IO UInt32 := do
  match RendererOptions.read arguments with
  | .error reason => (Ending.refused .renderer reason).perform
  | .ok o =>
    match o.mode with
    | .error reason => (Ending.failed reason.message reason.cause?).perform
    | .ok (.listen port) => runListener port
    | .ok (.connect address) => runLink o address

/-! ### The controller -/

/-- How a peer has taken the lines that it has been sent. -/
def recorded (reactions : List (Except String Arrival)) : Peer := fun lines ↦
  (reactions[lines.length - 1]?).getD (.ok {})

/-- Runs a controller, given how its peer has taken the first lines; sends the next line, or waits
for more to arrive after the last, until the outcome is settled. -/
partial def ControllerOptions.converse (o : ControllerOptions) (socket : Socket)
    (run : Peer → ControllerReport) (reactions : List (Except String Arrival)) :
    IO ControllerReport := do
  let report := run (recorded reactions)
  match report.written[reactions.length]? with
  | some line =>
    let sent ← Network.write socket (frames [line])
    o.converse socket run (reactions ++ [sent.map fun () ↦ ({} : Arrival)])
  | none =>
    match report.result, reactions.getLast? with
    | .error (.client (.transport .timedOut)), some (.ok sofar) =>
      match ← waitForBytes socket o.patience with
      | none => return report
      | some more =>
        let arrival : Arrival := { more with bytes := sofar.bytes ++ more.bytes }
        o.converse socket run (reactions.dropLast ++ [.ok arrival])
    | _, _ => return report

/-- Runs a controller. -/
def runController (arguments : List String) : IO UInt32 := do
  match ControllerOptions.read arguments with
  | .error reason => (Ending.refused .controller reason).perform
  | .ok o =>
    let content ← readFile? o.command.path?
    let helloId ← freshId
    let commandId ← freshId
    let run (dialed : Except DialError Unit) (peer : Peer) : ControllerReport :=
      o.run (fun _ ↦ content) helloId commandId dialed peer
    match (run (.ok ()) (recorded [])).written with
    | [] => (run (.ok ()) (recorded [])).ending.perform
    | _ :: _ =>
      match ← dial o.host o.port connectSeconds with
      | .error reason => (run (.error reason) (recorded [])).ending.perform
      | .ok socket =>
        let report ← o.converse socket (run (.ok ())) []
        Network.close socket
        report.ending.perform

end ShowControl

/-- Runs the program that the first argument names. -/
def main (arguments : List String) : IO UInt32 := do
  match arguments with
  | [] =>
    IO.eprintln
      "usage: projection-server | projection-renderer | projection-ctl, then its arguments"
    return 2
  | name :: rest =>
    match ShowControl.Program.ofName? name with
    | some .server => ShowControl.runServer rest
    | some .renderer => ShowControl.runRenderer rest
    | some .controller => ShowControl.runController rest
    | none =>
      IO.eprintln ("no program is named " ++ name)
      return 2
