import ShowControl.Message.Basic

/-!
# What peers agree on beforehand

Where a controller looks for a renderer, how long each side waits, and the command ids of errors
that answer no command.
-/

namespace ShowControl

/-- The host a peer talks to unless it is told another. -/
def defaultHost : String := "127.0.0.1"

/-- The port a registry listens at unless it is told another. -/
def defaultPort : Nat := 5050

/-- How long a registry and a renderer wait for the first message, in seconds. -/
def handshakeSeconds : Nat := 10

/-- How long a connection may take to be made, in seconds. -/
def connectSeconds : Nat := 10

/-- How long a message may take to be sent, in seconds. -/
def writeSeconds : Nat := 10

/-- The command id of an error that answers a first message without one. -/
def handshakeId : String := "handshake"

/-- The command id of an error that answers a line without one. -/
def unknownId : String := "unknown"

end ShowControl
