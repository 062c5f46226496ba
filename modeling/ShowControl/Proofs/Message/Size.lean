import ShowControl.Proofs.Json.Size
import ShowControl.Proofs.Message.Stream

/-!
# How long messages are

The line of a message is its command id, its type and its payload within a frame of fixed length,
and each string takes the bytes that it takes between quotes. So a line of any length can be had.
-/

namespace ShowControl

open Json (byteCount quotedSize byteCount_append byteCount_cons byteCount_textChars
  quotedSize_replicate)

/-- The marks of an object take one byte each. -/
theorem utf8Size_marks : '\x7b'.utf8Size = 1 ∧ '\x7d'.utf8Size = 1 ∧ ':'.utf8Size = 1 ∧
    ','.utf8Size = 1 := by
  decide

theorem byteCount_nil : byteCount [] = 0 := rfl

theorem byteCount_one_text (key text : String) :
    byteCount (Json.chars (.object [(key, .string text)])) =
      quotedSize key + quotedSize text + 7 := by
  simp only [Json.chars, Json.membersChars, byteCount_append, byteCount_cons, byteCount_textChars,
    byteCount_nil, utf8Size_marks]
  omega

theorem byteCount_two_texts (key text key' text' : String) :
    byteCount (Json.chars (.object [(key, .string text), (key', .string text')])) =
      quotedSize key + quotedSize text + (quotedSize key' + quotedSize text') + 13 := by
  simp only [Json.chars, Json.membersChars, byteCount_append, byteCount_cons, byteCount_textChars,
    byteCount_nil, utf8Size_marks]
  omega

namespace Message

/-- The frame of a message around its command id, its payload and its type. -/
theorem utf8ByteSize_encode_eq (m : Message) :
    m.encode.utf8ByteSize = quotedSize m.commandId + byteCount (Json.chars m.payload.toJson) +
      quotedSize m.type.text + 37 := by
  have keys : quotedSize "commandId" = 9 ∧ quotedSize "payload" = 7 ∧ quotedSize "type" = 4 := by
    decide +kernel
  rw [← Json.byteCount_toList, encode, Json.toList_render]
  simp only [toJson, Json.chars, Json.membersChars, byteCount_append, byteCount_cons,
    byteCount_textChars, byteCount_nil, utf8Size_marks, keys]
  omega

theorem utf8ByteSize_ack (commandId : String) :
    (ack commandId).encode.utf8ByteSize = 2 * quotedSize commandId + 56 := by
  have names : quotedSize "commandId" = 9 ∧ quotedSize MessageType.ack.text = 3 := by
    decide +kernel
  rw [utf8ByteSize_encode_eq]
  show quotedSize commandId + byteCount (Json.chars (.object [("commandId", .string commandId)])) +
    quotedSize MessageType.ack.text + 37 = _
  rw [byteCount_one_text, names.1, names.2]
  omega

theorem utf8ByteSize_error (commandId text : String) :
    (error commandId text).encode.utf8ByteSize =
      2 * quotedSize commandId + quotedSize text + 71 := by
  have names : quotedSize "commandId" = 9 ∧ quotedSize "message" = 7 ∧
      quotedSize MessageType.error.text = 5 := by
    decide +kernel
  rw [utf8ByteSize_encode_eq]
  show quotedSize commandId + byteCount (Json.chars (.object [("commandId", .string commandId),
    ("message", .string text)])) + quotedSize MessageType.error.text + 37 = _
  rw [byteCount_two_texts, names.1, names.2.1, names.2.2]
  omega

theorem utf8ByteSize_playCue (commandId cue : String) :
    (Message.encode ⟨commandId, .playCue ⟨cue⟩⟩).utf8ByteSize =
      quotedSize commandId + quotedSize cue + 56 := by
  have names : quotedSize "cueId" = 5 ∧ quotedSize MessageType.playCue.text = 7 := by
    decide +kernel
  rw [utf8ByteSize_encode_eq]
  show quotedSize commandId + byteCount (Json.chars (.object [("cueId", .string cue)])) +
    quotedSize MessageType.playCue.text + 37 = _
  rw [byteCount_one_text, names.1, names.2]
  omega

/-- To play a cue with a name of so many letters. -/
def longCue (commandId : String) (letters : ℕ) : Message :=
  ⟨commandId, .playCue ⟨String.ofList (List.replicate letters 'x')⟩⟩

theorem utf8ByteSize_longCue (commandId : String) (letters : ℕ) :
    (longCue commandId letters).encode.utf8ByteSize = quotedSize commandId + letters + 56 := by
  rw [longCue, utf8ByteSize_playCue, quotedSize_replicate]

end Message

end ShowControl
