import ShowControl.Proofs.Frame.Stream
import ShowControl.Proofs.Message.RoundTrip

/-!
# Messages through a stream

The line of a message is a line of the stream it is sent through, for three reasons. It has no
control character among its characters, and so none among its bytes (`le_of_mem_encode`): no line
feed cuts it in two, and there is no carriage return to be dropped. It is not empty, so it is not
passed over. And its bytes are those of its text, which is read back as the message.

With these, frames one behind the other are split into the lines they were made of
(`segments_stream`), and `receive_messages` is what is known of streams cut into pieces, at such a
stream.
-/

namespace ShowControl

open Splitter

/-! ### Texts as bytes -/

/-- The bytes of a text. -/
def textBytes (text : String) : List UInt8 := text.toUTF8.data.toList

theorem textBytes_eq (text : String) :
    textBytes text = text.toList.flatMap String.utf8EncodeChar := by
  rw [textBytes, String.toUTF8_eq_toByteArray, ← String.utf8Encode_toList, List.utf8Encode,
    List.toList_data_toByteArray]

theorem toByteArray_textBytes (text : String) : (textBytes text).toByteArray = text.toUTF8 :=
  toByteArray_toList_data text.toUTF8

theorem length_textBytes (text : String) : (textBytes text).length = text.utf8ByteSize := by
  simp [textBytes]

/-- A character that is no control character has no control character among its bytes. -/
theorem le_of_mem_utf8EncodeChar {c : Char} (h : ' ' ≤ c) :
    ∀ b ∈ String.utf8EncodeChar c, 32 ≤ b.toNat := by
  have low : 32 ≤ c.val.toNat := h
  unfold String.utf8EncodeChar
  simp only
  split_ifs
  · simp only [List.mem_singleton, forall_eq, UInt8.toNat_ofNat']
    omega
  all_goals
    simp only [List.forall_mem_cons, UInt8.toNat_ofNat', List.not_mem_nil, false_implies,
      implies_true, and_true]
    omega

theorem fromUTF8?_toUTF8 (text : String) : String.fromUTF8? text.toUTF8 = some text := by
  rw [String.toUTF8_eq_toByteArray, String.fromUTF8?, dif_pos text.isValidUTF8]
  rfl

theorem le_of_mem_textBytes {text : String} (h : ∀ c ∈ text.toList, ' ' ≤ c) :
    ∀ b ∈ textBytes text, 32 ≤ b.toNat := by
  intro b mem
  rw [textBytes_eq] at mem
  obtain ⟨c, listed, mem⟩ := List.mem_flatMap.1 mem
  exact le_of_mem_utf8EncodeChar (h c listed) b mem

namespace Message

/-! ### Lines of messages -/

section Lines

variable (m : Message)

theorem utf8ByteSize_encode :
    m.encode.utf8ByteSize = ((Json.chars m.toJson).flatMap String.utf8EncodeChar).length := by
  rw [← length_textBytes, textBytes_eq, encode, Json.toList_render]

theorem le_of_mem_encode : ∀ b ∈ textBytes m.encode, 32 ≤ b.toNat := by
  refine le_of_mem_textBytes ?_
  rw [encode, Json.toList_render]
  exact Json.le_of_mem_chars _

theorem lineFeed_not_mem_encode : lineFeed ∉ textBytes m.encode := fun mem ↦
  absurd (m.le_of_mem_encode _ mem) (by decide)

/-- A line has content, and all of it is content. -/
theorem content_encode : content (textBytes m.encode) = textBytes m.encode := by
  rw [content]
  rw [if_neg]
  intro last
  exact absurd (m.le_of_mem_encode _ (List.mem_of_getLast? last)) (by decide)

theorem textBytes_encode_ne_nil : textBytes m.encode ≠ [] := by
  intro empty
  have chars : m.encode.toList = [] := by
    rw [textBytes_eq, List.flatMap_eq_nil_iff] at empty
    refine List.eq_nil_iff_forall_not_mem.2 fun c mem ↦ ?_
    exact String.utf8EncodeChar_ne_nil (empty c mem)
  rw [encode, Json.toList_render] at chars
  simp [toJson, Json.chars] at chars

/-- A line with its line feed in front of more bytes is taken as it is. -/
theorem contents_fitting_encode (small : m.Fits)
    (more : List UInt8) :
    contents (fitting (textBytes m.encode ++ lineFeed :: more)) =
      textBytes m.encode :: contents (fitting more) := by
  have fit : fits (textBytes m.encode) = true := by
    rw [fits, length_textBytes]
    exact decide_eq_true small
  rw [fitting_of_fits m.lineFeed_not_mem_encode more fit, contents_cons, content_encode,
    if_neg m.textBytes_encode_ne_nil]

/-- A line that arrives is decoded to its message. -/
theorem decodeBytes_toUTF8 {m : Message}
    (finite : ∀ coordinate ∈ m.coordinates, coordinate.2.isFinite = true) :
    decodeBytes m.encode.toUTF8 = .ok m := by
  have value : Json.decodeBytes m.encode.toUTF8 = .ok m.toJson.reread := by
    rw [Json.decodeBytes, Json.parseBytes?, fromUTF8?_toUTF8, Option.bind_some, m.parse?_encode]
  have all : m.coordinates.find? (fun coordinate ↦ !coordinate.2.isFinite) = none := by
    simpa using finite
  rw [decodeBytes, value, ok_bind, m.ofJson_reread, checked, all]

theorem decodeBytes_encode {m : Message}
    (finite : ∀ coordinate ∈ m.coordinates, coordinate.2.isFinite = true) :
    decodeBytes (textBytes m.encode).toByteArray = .ok m := by
  rw [toByteArray_textBytes]
  exact decodeBytes_toUTF8 finite

end Lines

/-! ### Frames one behind the other -/

/-- The bytes of messages, each behind the one before. -/
def stream (messages : List Message) : List UInt8 :=
  (messages.map fun m ↦ textBytes m.encode ++ [lineFeed]).flatten

theorem stream_cons (m : Message) (messages : List Message) :
    stream (m :: messages) = textBytes m.encode ++ lineFeed :: stream messages := by
  simp [stream]

theorem segments_stream (messages : List Message) :
    segments (stream messages) = (messages.map fun m ↦ textBytes m.encode, []) := by
  induction messages with
  | nil => rfl
  | cons m messages ih =>
    rw [stream_cons, segments_append m.lineFeed_not_mem_encode, ih, List.map_cons]

/-- A stream has no segment over the limit if no message is. -/
theorem oversized_stream {messages : List Message} (small : ∀ m ∈ messages, m.Fits) :
    oversized (stream messages) = false := by
  -- the segments are the lines, and the last is empty
  rw [oversized_eq_false_iff, segments_stream, List.forall_mem_append]
  refine ⟨fun line mem ↦ ?_, by simp [fits]⟩
  obtain ⟨m, listed, rfl⟩ := List.mem_map.1 mem
  rw [fits, length_textBytes]
  exact decide_eq_true (small m listed)

theorem pending_stream {messages : List Message} (small : ∀ m ∈ messages, m.Fits) :
    pending (stream messages) = [] := by
  rw [pending_eq (oversized_stream small), segments_stream]

theorem contents_stream {messages : List Message} (small : ∀ m ∈ messages, m.Fits) :
    contents (fitting (stream messages)) = messages.map fun m ↦ textBytes m.encode := by
  induction messages with
  | nil => rfl
  | cons m messages ih =>
    obtain ⟨first, others⟩ := List.forall_mem_cons.1 small
    rw [stream_cons, m.contents_fitting_encode first, ih others, List.map_cons]

theorem ofLines_encode {messages : List Message}
    (finite : ∀ m ∈ messages, ∀ coordinate ∈ m.coordinates, coordinate.2.isFinite = true) :
    Decoded.ofLines (messages.map fun m ↦ textBytes m.encode) =
      messages.map fun m ↦ .line (.ok m) := by
  induction messages with
  | nil => rfl
  | cons m messages ih =>
    obtain ⟨first, others⟩ := List.forall_mem_cons.1 finite
    have rest := ih others
    rw [Decoded.ofLines] at rest ⊢
    rw [List.map_cons, contents_cons, content_encode, if_neg m.textBytes_encode_ne_nil,
      List.map_cons, rest, decodeBytes_encode first, List.map_cons]

/-- Messages whose lines are within the limit come out of an inbox as they were, in whatever pieces
their bytes arrive. -/
theorem run_receive_stream {messages : List Message}
    (finite : ∀ m ∈ messages, ∀ coordinate ∈ m.coordinates, coordinate.2.isFinite = true)
    (small : ∀ m ∈ messages, m.encode.utf8ByteSize ≤ maxFrameSize) {chunks : List ByteArray}
    (bytes : Inbox.joined chunks = stream messages) :
    ∃ inbox : Inbox, Transducer.run Inbox.receive {} chunks =
        (inbox, messages.map fun m ↦ .line (.ok m)) ∧
      inbox.buffer = .empty := by
  have fit : oversized (Inbox.joined chunks) = false := by
    rw [bytes]
    exact oversized_stream small
  obtain ⟨inbox, run, holds⟩ := Inbox.run_receive_of_fits fit
  rw [bytes, segments_stream] at run holds
  refine ⟨inbox, by rw [run, ofLines_encode finite], ?_⟩
  rw [← toByteArray_toList_data inbox.buffer, holds.buffer]
  rfl

/-! ### Ways to send -/

theorem textBytes_push (text : String) :
    (text.toUTF8.push lineFeed).data.toList = textBytes text ++ [lineFeed] := by
  rw [ByteArray.data_push, Array.toList_push, textBytes]

theorem joined_frames (messages : List Message) :
    Inbox.joined (messages.map frame) = stream messages := by
  rw [Inbox.joined, List.map_map, stream]
  congr 1
  exact List.map_congr_left fun m _ ↦ textBytes_push m.encode

/-- The frames of messages that are sent one after the other are the stream of these messages. -/
theorem toList_data_frames (messages : List Message) :
    (frames (messages.map encode)).data.toList = stream messages := by
  induction messages using List.reverseRecOn with
  | nil => rfl
  | append_singleton messages m ih =>
    rw [frames] at ih ⊢
    rw [List.map_append, List.foldl_append, List.map_singleton, List.foldl_cons, List.foldl_nil,
      ByteArray.data_push, Array.toList_push, ByteArray.toList_data_append, ih, stream, stream,
      List.map_append, List.flatten_append, List.append_assoc]
    simp [textBytes]

/-- Messages that arrive at an inbox with nothing in it are taken line by line. -/
theorem drain_frames {messages : List Message} (small : ∀ m ∈ messages, m.Fits) {i : Inbox}
    (empty : i.Holds []) :
    ∃ i' : Inbox, i'.Holds [] ∧ (i.append (frames (messages.map encode))).drain =
      (i', messages.map fun m ↦ m.encode.toUTF8, none) := by
  obtain ⟨i', drained, holds⟩ := (empty.append (frames (messages.map encode))).drain
  rw [List.nil_append, toList_data_frames] at drained holds
  rw [pending_stream small] at holds
  rw [contents_stream small, report, oversized_stream small, List.map_map] at drained
  refine ⟨i', holds, drained.trans ?_⟩
  congr 2
  exact List.map_congr_left fun m _ ↦ toByteArray_textBytes m.encode

/-- A message is written if its line is within the limit, and then its frame is behind the rest. -/
theorem write_eq_ok {i i' : Inbox} {m : Message} (h : i.write m = .ok i') :
    m.encode.utf8ByteSize ≤ maxFrameSize ∧
      i'.buffer.data.toList = i.buffer.data.toList ++ (textBytes m.encode ++ [lineFeed]) := by
  rw [Inbox.write] at h
  split at h
  · cases h
  · next line sent =>
    obtain ⟨small, rfl⟩ := line?_eq_ok_iff.1 sent
    cases h
    refine ⟨small, ?_⟩
    rw [Inbox.append, ByteArray.toList_data_append, textBytes_push]

theorem foldlM_write_eq_ok {messages : List Message} {i i' : Inbox}
    (h : messages.foldlM Inbox.write i = .ok i') :
    (∀ m ∈ messages, m.encode.utf8ByteSize ≤ maxFrameSize) ∧
      i'.buffer.data.toList = i.buffer.data.toList ++ stream messages := by
  induction messages generalizing i with
  | nil =>
    cases h
    simp [stream]
  | cons m messages ih =>
    rw [List.foldlM_cons] at h
    cases written : i.write m with
    | error e => simp [written, bind, Except.bind] at h
    | ok next =>
      rw [written] at h
      obtain ⟨small, buffer⟩ := write_eq_ok written
      obtain ⟨smaller, rest⟩ := ih h
      refine ⟨List.forall_mem_cons.2 ⟨small, smaller⟩, ?_⟩
      rw [rest, buffer, List.append_assoc]
      rfl

/-- Messages with finite coordinates survive a stream: if all of them could be written into one
buffer, or if their frames are put in a row and none of the lines is over the limit, then the bytes,
cut in any way, give exactly these messages in order, and nothing is left. -/
theorem receive_messages (messages : List Message)
    (finite : ∀ m ∈ messages, ∀ coordinate ∈ m.coordinates, coordinate.2.isFinite = true)
    (chunks : List ByteArray)
    (sent : (∃ outbox, messages.foldlM Inbox.write {} = .ok outbox ∧
        outbox.buffer.data.toList = Inbox.joined chunks) ∨
      ((∀ m ∈ messages, m.encode.utf8ByteSize ≤ maxFrameSize) ∧
        Inbox.joined (messages.map frame) = Inbox.joined chunks)) :
    (Transducer.run Inbox.receive {} chunks).2 = messages.map (fun m ↦ .line (.ok m)) ∧
      (Transducer.run Inbox.receive {} chunks).1.buffer = .empty := by
  obtain ⟨small, bytes⟩ : (∀ m ∈ messages, m.encode.utf8ByteSize ≤ maxFrameSize) ∧
      Inbox.joined chunks = stream messages := by
    rcases sent with ⟨outbox, written, bytes⟩ | ⟨small, bytes⟩
    · obtain ⟨small, buffer⟩ := foldlM_write_eq_ok written
      exact ⟨small, by rw [← bytes, buffer]; rfl⟩
    · exact ⟨small, by rw [← bytes, joined_frames]⟩
  obtain ⟨inbox, run, empty⟩ := run_receive_stream finite small bytes
  rw [run]
  exact ⟨rfl, empty⟩

/-- A hello and a definition, cut within the first line and again within the second. -/
theorem receive_messages_cut :
    let hello := hello "cmd-1" Role.renderer.text "Bühne \"links\""
    let definition : Message := ⟨"cmd-2", .loadSceneDefinition
      { scene :=
          { id := ⟨"s"⟩, name := "", description := "\n"
            surfaces :=
              [{ Surface.plain ⟨"a"⟩ "" ⟨"f"⟩ with vertices := [⟨.zero .single, .zero .single⟩] }] }
        feeds := [⟨⟨"f"⟩, "", .camera, "\x7b\x7d"⟩] }⟩
    let bytes := stream [hello, definition]
    (Transducer.run Inbox.receive {}
      [(bytes.take 20).toByteArray, ((bytes.drop 20).take 100).toByteArray,
        (bytes.drop 120).toByteArray]).2 = [.line (.ok hello), .line (.ok definition)] := by
  intro hello definition bytes
  have cut : bytes.take 20 ++ ((bytes.drop 20).take 100 ++ bytes.drop 120) = bytes := by
    rw [← List.drop_drop (i := 100), List.take_append_drop, List.take_append_drop]
  refine (receive_messages [hello, definition] (by decide) _ (.inr ⟨?_, ?_⟩)).1
  · simp only [utf8ByteSize_encode]
    decide +kernel
  · rw [joined_frames]
    simpa [Inbox.joined] using cut.symm

end Message

end ShowControl
