import ShowControl.Proofs.Message.Limit

/-!
# One line for one message

What is written for a message is one line, whatever texts the message holds and also where it has
coordinates that cannot be written as numbers. The line stands between two braces, since a message
is an object, and none of its bytes is a control character, since no character of a value is
(`Json.le_of_mem_chars`).

So it begins and ends as no blank line does, the line feed behind it is the only one of its frame,
and it loses nothing where a carriage return at the end would be dropped
(`Message.encode_isOneLine`). What is known of streams and of the limit rests on these three.
-/

namespace ShowControl

open Splitter

/-- The text of an object stands between two braces. -/
theorem Json.exists_chars_object (members : List (String × Json)) :
    ∃ inner, chars (.object members) = '\x7b' :: (inner ++ ['\x7d']) := by
  rcases members with _ | ⟨⟨key, value⟩, members⟩
  · exact ⟨[], rfl⟩
  · exact ⟨_, by rw [chars]⟩

namespace Message

/-- What is written for a message is one line, in its frame too. -/
structure IsOneLine (m : Message) : Prop where
  /-- There is something in the line, -/
  nonempty : m.encode ≠ ""
  /-- it stands between an opening and a closing brace, -/
  braced : ∃ inner, m.encode = "\x7b" ++ inner ++ "\x7d"
  /-- and has no control character among its bytes. -/
  printable : ∀ b ∈ textBytes m.encode, 0x20 ≤ b
  /-- A frame is the line and a line feed behind it, -/
  framed : m.frame.data.toList = textBytes m.encode ++ [lineFeed]
  /-- which is the only one, -/
  once : m.frame.data.toList.count lineFeed = 1
  /-- and is found where the line ends. -/
  found : findLineFeed m.frame 0 m.frame.size = some m.encode.utf8ByteSize
  /-- No carriage return is dropped at the end of the line. -/
  whole : dropCarriageReturn m.encode.toUTF8 = m.encode.toUTF8

section Line

variable (m : Message)

theorem exists_encode_eq : ∃ inner, m.encode = "\x7b" ++ inner ++ "\x7d" := by
  obtain ⟨inner, object⟩ := Json.exists_chars_object
    [("commandId", .string m.commandId), ("payload", m.payload.toJson),
      ("type", .string m.type.text)]
  refine ⟨String.ofList inner, ?_⟩
  rw [← String.toList_inj, encode, Json.toList_render, toJson, object]
  simp

theorem encode_ne_empty : m.encode ≠ "" := by
  obtain ⟨inner, braced⟩ := m.exists_encode_eq
  rw [braced]
  simp

theorem count_lineFeed_frame : m.frame.data.toList.count lineFeed = 1 := by
  rw [toList_data_frame, List.count_append, List.count_eq_zero.2 m.lineFeed_not_mem_encode,
    List.count_cons_self, List.count_nil]

/-- The first line feed of a frame is looked for and found at its end. -/
theorem findLineFeed_frame : findLineFeed m.frame 0 m.frame.size = some m.encode.utf8ByteSize := by
  have size : m.frame.size = (textBytes m.encode).length + 1 := by
    rw [← ByteArray.size_data, ← Array.length_toList, toList_data_frame, List.length_append]
    rfl
  have here : m.frame.data.toList.drop 0 = textBytes m.encode ++ lineFeed :: [] :=
    m.toList_data_frame
  rw [findLineFeed_eq_some m.lineFeed_not_mem_encode here (by omega), length_textBytes,
    Nat.zero_add]

theorem dropCarriageReturn_encode : dropCarriageReturn m.encode.toUTF8 = m.encode.toUTF8 := by
  have content_eq : content m.encode.toUTF8.data.toList = textBytes m.encode := m.content_encode
  rw [← toByteArray_toList_data (dropCarriageReturn _), toList_data_dropCarriageReturn, content_eq,
    toByteArray_textBytes]

end Line

/-- Every message is written as one line. -/
theorem encode_isOneLine (m : Message) : m.IsOneLine where
  nonempty := m.encode_ne_empty
  braced := m.exists_encode_eq
  printable b listed := UInt8.le_iff_toNat_le.2 (m.le_of_mem_encode b listed)
  framed := m.toList_data_frame
  once := m.count_lineFeed_frame
  found := m.findLineFeed_frame
  whole := m.dropCarriageReturn_encode

end Message

end ShowControl
