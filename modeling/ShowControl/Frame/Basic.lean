import ShowControl.Message.Wire

/-!
# Frames

On a stream each message is a frame: its line followed by a line feed. No frame may be longer than
`maxFrameSize` bytes before its line feed, and a message that would be is not sent.
-/

namespace ShowControl

/-- The greatest number of bytes before the line feed of a frame. -/
def maxFrameSize : Nat := 16777216

/-- The byte that ends a frame. -/
def lineFeed : UInt8 := 10

/-- A byte that may stand before a line feed and does not belong to the line. -/
def carriageReturn : UInt8 := 13

/-- A frame is longer than it may be. -/
structure FrameTooLarge where
  /-- The bytes before the line feed, or those received so far. -/
  size : Nat
  deriving DecidableEq, Repr

/-- The wording that is shown to operators. -/
def FrameTooLarge.message (e : FrameTooLarge) : String :=
  "frame too large: " ++ toString e.size ++ " bytes (max " ++ toString maxFrameSize ++ ")"

namespace Message

/-- The frame of a message, of whatever length. -/
def frame (m : Message) : ByteArray := m.encode.toUTF8.push lineFeed

/-- The line of a message, if it may be sent. -/
def line? (m : Message) : Except FrameTooLarge String :=
  let line := m.encode
  if maxFrameSize < line.utf8ByteSize then .error ⟨line.utf8ByteSize⟩ else .ok line

theorem line?_eq_ok_iff {m : Message} {line : String} :
    m.line? = .ok line ↔ m.encode.utf8ByteSize ≤ maxFrameSize ∧ m.encode = line := by
  unfold line?
  dsimp only
  split
  · next large => simp [Nat.not_le.2 large]
  · next fits => simp [Nat.not_lt.1 fits]

/-- The line of the message may be sent. -/
def Fits (m : Message) : Prop := m.encode.utf8ByteSize ≤ maxFrameSize

theorem line?_of_fits {m : Message} (h : m.Fits) : m.line? = .ok m.encode :=
  line?_eq_ok_iff.2 ⟨h, rfl⟩

theorem line?_of_large {m : Message} (large : ¬m.Fits) :
    m.line? = .error ⟨m.encode.utf8ByteSize⟩ :=
  if_pos (Nat.not_le.1 large)

theorem exists_line?_eq_error {m : Message} (large : ¬m.Fits) : ∃ e, m.line? = .error e :=
  ⟨_, line?_of_large large⟩

end Message

/-- The bytes of lines that are sent one after the other. -/
def frames (lines : List String) : ByteArray :=
  lines.foldl (fun bytes line ↦ (bytes ++ line.toUTF8).push lineFeed) .empty

end ShowControl
