import ShowControl.Address.Ip
import ShowControl.Frame.Basic
import ShowControl.Message.CommandId
import ShowControl.Transport
import Std.Async.DNS
import Std.Async.Signal
import Std.Async.TCP
import Std.Async.Timer
import Std.Sync.Channel

/-!
# Talking to the system

What the programs need of the system: sockets, the clock, the keyboard, files and random bits. All
that happens to a program that runs for long comes in through one channel, one happening at a time,
so that the program is a loop over happenings.
-/

namespace ShowControl.Network

open Std.Async Std.Net

/-- A connection with a peer. -/
abbrev Socket := TCP.Socket.Client

/-- What happens to a program. -/
inductive Happening where
  /-- A peer connects. -/
  | connected (peer : String) (socket : Socket)
  | received (peer : String) (bytes : ByteArray)
  /-- A peer hangs up. -/
  | ended (peer : String)
  /-- The time for the first line of a peer is over. -/
  | timedOut (peer : String)
  /-- The operator types a line. -/
  | typed (line : String)
  /-- The program is asked to end. -/
  | interrupted

instance : Inhabited Happening := ⟨.interrupted⟩

/-- The channel of what happens. -/
abbrev Happenings := Std.Channel Happening

namespace Happenings

/-- Puts a happening into the channel. -/
def put (h : Happenings) (happening : Happening) : BaseIO Unit :=
  discard (Std.Channel.send h happening)

/-- Waits for the next happening. -/
def next (h : Happenings) : BaseIO Happening := do
  IO.wait (← Std.Channel.recv h)

/-- Reads from a socket until its peer hangs up. -/
partial def follow (h : Happenings) (peer : String) (socket : Socket) : Async Unit := do
  let bytes ← try socket.recv? 65536 catch _ => pure none
  match bytes with
  | some bytes =>
    h.put (.received peer bytes)
    follow h peer socket
  | none => h.put (.ended peer)

/-- Accepts connections, and names their peers by numbers. -/
partial def welcome (h : Happenings) (server : TCP.Socket.Server) (count : Nat) : Async Unit := do
  let socket ← server.accept
  h.put (.connected (toString count) socket)
  welcome h server (count + 1)

/-- Reads what the operator types. -/
partial def listenToOperator (h : Happenings) : IO Unit := do
  let line ← (← IO.getStdin).getLine
  unless line.isEmpty do
    h.put (.typed line)
    listenToOperator h

/-- Lets an interrupt of the user come in. -/
def watchInterrupt (h : Happenings) : IO Unit := do
  let signal ← Signal.Waiter.mk .sigint false
  discard ((← signal.wait).mapTaskIO fun _ ↦ h.put .interrupted)

end Happenings

/-- A number of seconds as a span of time; more than the clock can count is as long as it can. -/
def seconds (count : Nat) : Std.Time.Millisecond.Offset := .ofNat (min count 1000000000 * 1000)

/-- Starts to run something beside the program. -/
def beside (action : Async Unit) : IO Unit := do
  discard action.asTask

/-- Lets the time for the first line of a peer run. -/
def startTimer (h : Happenings) (peer : String) (count : Nat) : IO Unit :=
  beside do
    sleep (seconds count)
    h.put (.timedOut peer)

/-- Writes bytes; tells whether that was possible, or else why not. -/
def write (socket : Socket) (bytes : ByteArray) : IO (Except String Unit) := do
  try
    (socket.send bytes).block
    return .ok ()
  catch e => return .error (toString e)

/-- Closes a connection. -/
def close (socket : Socket) : IO Unit := do
  try socket.shutdown.block catch _ => return

/-- An address of the system. -/
def socketAddress (ip : IPAddr) (port : Nat) : SocketAddress :=
  match ip with
  | .v4 addr => .v4 ⟨addr, port.toUInt16⟩
  | .v6 addr => .v6 ⟨addr, port.toUInt16⟩

/-- The address of an interface. -/
def interface : IpAddress → IPAddr
  | .v4 a b c d => .v4 (.ofParts a b c d)
  | .v6 groups =>
    match groups.toList with
    | [a, b, c, d, e, f, g, h] => .v6 (.ofParts a b c d e f g h)
    | _ => .v6 (.ofParts 0 0 0 0 0 0 0 0)

/-- Listens at a port of an interface; gives the port too. -/
def listen (ip : IpAddress) (port : Nat) : IO (TCP.Socket.Server × Nat) := do
  let server ← TCP.Socket.Server.mk
  server.bind (socketAddress (interface ip) port)
  server.listen 1024
  let bound := match ← server.getSockName with
    | .v4 address => address.port.toNat
    | .v6 address => address.port.toNat
  return (server, bound)

/-- Connects to the first of some addresses that can be reached. -/
def dialFirst (port limit : Nat) : List IPAddr → DialError → IO (Except DialError Socket)
  | [], failure => return .error failure
  | ip :: rest, _ => do
    let socket ← TCP.Socket.Client.mk
    let attempt : Async Bool := do
      socket.connect (socketAddress ip port)
      return true
    let patience : Async Bool := do
      sleep (seconds limit)
      return false
    try
      if ← (Async.race attempt patience).block then return .ok socket
      else dialFirst port limit rest .timedOut
    catch e => dialFirst port limit rest (.refused (toString e))

/-- Connects to a host. -/
def dial (host : String) (port limit : Nat) : IO (Except DialError Socket) := do
  try
    let found ← (DNS.getAddrInfo host (toString port)).block
    dialFirst port limit found.toList.eraseDups (.refused "no address")
  catch e => return .error (.refused (toString e))

/-- Waits for bytes for some time. -/
def waitForBytes (socket : Socket) (limit : Nat) : IO (Option Arrival) := do
  try
    let clock ← (Selector.sleep (seconds limit)).block
    let bytes : Selectable (Option Arrival) :=
      .case (socket.recvSelector 65536) fun bytes ↦
        return some (bytes.elim { ends := true } fun bytes ↦ { bytes })
    let silence : Selectable (Option Arrival) := .case clock fun () ↦ return none
    (Selectable.one #[bytes, silence]).block
  catch e => return some { ends := true, fault := some (toString e) }

/-- The content of a file, if it can be read. -/
def readFile? (path : Option String) : IO (Option ByteArray) := do
  match path with
  | none => return none
  | some path => try return some (← IO.FS.readBinFile path) catch _ => return none

/-- A fresh command id. -/
def freshId : IO String := do
  let bytes ← IO.getRandomBytes 16
  return CommandId.fresh (bytes.foldl (fun n byte ↦ n * 256 + byte.toNat) 0)

/-- A line of the log. -/
def log (line : String) : IO Unit := IO.eprintln line

end ShowControl.Network
