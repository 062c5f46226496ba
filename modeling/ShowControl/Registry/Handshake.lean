import ShowControl.Message.Defaults
import ShowControl.Message.Wire

/-!
# The first line of a renderer

The first line on a connection must be a hello with a name. Anything else is refused, and the
refusal says why and repeats the command id of the line, as far as it has one.
-/

namespace ShowControl

/-- Why a connection does not become a registered renderer. -/
inductive HandshakeError where
  /-- The first line is no message. -/
  | malformed (reason : DecodeError)
  | notHello
  | missingName
  | nameInUse
  /-- The registry takes no more renderers. -/
  | shuttingDown
  /-- There was no line in time. -/
  | timedOut
  deriving DecidableEq, Repr

/-- The wording that is sent to the peer. -/
def HandshakeError.message : HandshakeError → String
  | .malformed reason => reason.message
  | .notHello => "Expected hello message"
  | .missingName => "Renderer name must be provided"
  | .nameInUse => "Renderer name already in use"
  | .shuttingDown => "registry is shutting down"
  | .timedOut => "handshake timed out"

/-- The refusal of a connection. -/
structure Rejection where
  /-- The command id that the refusal repeats. -/
  commandId : String
  reason : HandshakeError
  deriving DecidableEq, Repr

/-- The message that tells the peer. -/
def Rejection.reply (r : Rejection) : Message := .error r.commandId r.reason.message

/-- The wish of a renderer to be registered. -/
structure Introduction where
  commandId : String
  name : String
  deriving DecidableEq, Repr

namespace Introduction

/-- The wish that a message expresses. -/
def ofMessage (m : Message) : Except Rejection Introduction :=
  match m.payload with
  | .hello hello =>
    if hello.name.isEmpty then .error ⟨m.commandId, .missingName⟩
    else .ok ⟨m.commandId, hello.name⟩
  | _ => .error ⟨m.commandId, .notHello⟩

/-- The wish that a first line expresses. -/
def ofLine (line : ByteArray) : Except Rejection Introduction :=
  match Message.decodeBytes line with
  | .ok m => ofMessage m
  | .error reason => .error ⟨handshakeId, .malformed reason⟩

theorem ofMessage_eq_ok_iff {m : Message} {wish : Introduction} :
    ofMessage m = .ok wish ↔
      ∃ hello, m.payload = .hello hello ∧ hello.name ≠ "" ∧ wish = ⟨m.commandId, hello.name⟩ := by
  unfold ofMessage
  split
  · next hello payload =>
    by_cases nameless : hello.name = ""
    · simp [payload, nameless]
    · simp only [payload, String.isEmpty_iff, nameless, if_false, Except.ok.injEq,
        Payload.hello.injEq, exists_eq_left', ne_eq, not_false_eq_true, true_and]
      exact eq_comm
  · next other => simpa using fun hello payload ↦ absurd payload (other hello)

/-- A wish is a hello with a name. -/
theorem ofLine_eq_ok_iff {line : ByteArray} {wish : Introduction} :
    ofLine line = .ok wish ↔
      ∃ m hello, Message.decodeBytes line = .ok m ∧ m.payload = .hello hello ∧
        hello.name ≠ "" ∧ wish = ⟨m.commandId, hello.name⟩ := by
  unfold ofLine
  cases Message.decodeBytes line with
  | error reason => simp
  | ok m => simp [ofMessage_eq_ok_iff]

end Introduction

end ShowControl
