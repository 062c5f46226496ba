import ShowControl.Controller.Client
import ShowControl.Transducer

/-!
# Runs of a client

A run is a list of calls of a controller's program and of arrivals, one after the other. What
happens on the network is part of each step: what an attempt to connect comes to, and how the peer
takes a line.
-/

namespace ShowControl

/-- What may happen to a client. -/
inductive ClientStep where
  | connect (dialed : Except DialError Unit)
  | disconnect
  /-- Something arrives. -/
  | arrive (arrival : Arrival)
  | send (message : Message) (reaction : Reaction)
  | receive
  | request (message : Message) (reaction : Reaction)
  | handshake (dialed : Except DialError Unit) (commandId name : String) (reaction : Reaction)

/-- What a step gives back. -/
inductive ClientAnswer where
  | finished (result : Except ClientError Unit)
  /-- A message or a failure to read one; nothing while no line has come. -/
  | received (result : Option (Except ClientError Message))

/-- What a step comes to: its answer, and the lines that the peer has been sent. -/
structure ClientOutcome where
  answer : ClientAnswer
  written : List String := []

namespace Client

/-- Takes one step. -/
def step (c : Client) : ClientStep → Client × ClientOutcome
  | .connect dialed =>
    let (c, result) := c.connect dialed
    (c, { answer := .finished result })
  | .disconnect => (c.disconnect, { answer := .finished (.ok ()) })
  | .arrive arrival => (c.arrive arrival, { answer := .finished (.ok ()) })
  | .send m reaction =>
    let (c, written, result) := c.send m reaction
    (c, { answer := .finished result, written })
  | .receive =>
    let (c, result) := c.receive
    (c, { answer := .received result })
  | .request m reaction =>
    let (c, written, result) := c.request m reaction
    (c, { answer := .finished result, written })
  | .handshake dialed commandId name reaction =>
    let (c, written, result) := c.handshake dialed commandId name reaction
    (c, { answer := .finished result, written })

/-- Takes steps in order, and tells what each of them comes to. -/
def run (c : Client) (steps : List ClientStep) : Client × List ClientOutcome :=
  Transducer.run (fun c step ↦ let (c, outcome) := c.step step; (c, [outcome])) c steps

end Client

end ShowControl
