import ShowControl.Controller.Client
import ShowControl.Controller.Options
import ShowControl.Program

/-!
# One run of a controller

A controller settles what to send, connects, introduces itself, sends its one command and ends. It
succeeds if each of its lines is acknowledged; a definition file that is not in order fails the run
before anything is sent.
-/

namespace ShowControl

/-- Why a run of a controller fails. -/
inductive ControllerError where
  | definition (reason : LoadError)
  | client (reason : ClientError)
  deriving DecidableEq

namespace ControllerError

/-- The wording that is shown to operators. -/
def message : ControllerError → String
  | .definition reason => reason.message
  | .client reason => reason.message

/-- The wording of what lies behind the failure, if anything does. -/
def cause? : ControllerError → Option String
  | .definition reason => some reason.reason.message
  | .client (.decode reason) => some reason.message
  | .client (.transport (.connectFailed _ reason)) => some reason
  | .client (.transport (.sendFailed reason)) => some reason.message
  | .client (.transport (.receiveFailed reason)) => some reason.message
  | .client _ => none

end ControllerError

/-- What a run of a controller comes to. -/
structure ControllerReport where
  result : Except ControllerError Unit
  /-- The lines that the peer has been sent. -/
  written : List String := []
  /-- The lines that are printed. -/
  printed : List String := []

/-- How the program ends. -/
def ControllerReport.ending (r : ControllerReport) : Ending :=
  match r.result with
  | .ok () => { printed := r.printed }
  | .error reason => .failed reason.message reason.cause?

namespace ControllerOptions

/-- The address of the peer, as it is shown. -/
def address (o : ControllerOptions) : String := o.host ++ ":" ++ toString o.port

/-- How long each reply is waited for, in seconds. -/
def patience (o : ControllerOptions) : Nat := max o.timeout 1

/-- Runs a controller: `files` gives the content of files, `dialed` is what the attempt to connect
comes to, and the ids are those of its hello and of its command. -/
def run (o : ControllerOptions) (files : String → Option ByteArray) (helloId commandId : String)
    (dialed : Except DialError Unit) (peer : Peer) : ControllerReport :=
  match o.command.payload files with
  | .error reason => { result := .error (.definition reason) }
  | .ok payload =>
    let client : Client := { address := o.address }
    match client.handshake dialed helloId o.name fun line ↦ peer [line] with
    | (_, hello, .error reason) => { result := .error (.client reason), written := hello }
    | (client, hello, .ok ()) =>
      match payload with
      | none => { result := .ok (), written := hello, printed := ["hello acknowledged"] }
      | some payload =>
        let m : Message := ⟨commandId, payload⟩
        match client.request m fun line ↦ peer (hello ++ [line]) with
        | (_, command, .error reason) =>
          { result := .error (.client reason), written := hello ++ command }
        | (_, command, .ok ()) =>
          { result := .ok (), written := hello ++ command,
            printed := [m.type.text ++ " " ++ m.commandId] }

end ControllerOptions

end ShowControl
