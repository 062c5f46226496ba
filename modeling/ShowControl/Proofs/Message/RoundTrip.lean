import ShowControl.Message.Wire
import ShowControl.Proofs.Scene.RoundTrip

/-!
# Messages read back

A message that is written and read is the same message again, whatever texts, levels and integers
it holds, if its coordinates are finite; if not, the error names the first of them that is not
(`decode_encode`). That is the reading of the outer object on top of what is known of definitions:
no other payload has a number in it.
-/

namespace ShowControl

open Numeric

theorem MessageType.decode_text (t : MessageType) : decode t.text = .ok t := by
  cases t <;> rfl

namespace Payload

/-- The coordinates as they are read; only a definition has any. -/
def coordinates : Payload → List (String × Single)
  | .loadSceneDefinition d => d.coordinates
  | _ => []

theorem ofJson_reread (p : Payload) :
    ofJson p.type p.toJson.reread = checked p.coordinates p := by
  cases p with
  | loadSceneDefinition d =>
    have read : Definition.ofJson (Payload.loadSceneDefinition d).toJson.reread =
        checked d.coordinates d := d.ofJson_reread
    rw [Payload.type, ofJson, read]
    exact checked_bind rfl
  | _ => rfl

theorem readable (p : Payload) : p.toJson.Readable 6 := by
  have string := Json.Readable.string
  cases p with
  | loadSceneDefinition d => exact d.readable
  | hello h => exact .record ["name", "role", "version"] rfl (by decide) (by simp [string])
  | ack commandId => exact .record ["commandId"] rfl (by decide) (by simp [string])
  | error commandId message =>
    exact .record ["commandId", "message"] rfl (by decide) (by simp [string])
  | loadScene scene => exact .record ["sceneId"] rfl (by decide) (by simp [string])
  | setFeedForSurface surface feed =>
    exact .record ["feedId", "surfaceId"] rfl (by decide) (by simp [string])
  | playCue cue => exact .record ["cueId"] rfl (by decide) (by simp [string])

/-- Every payload is an object. -/
theorem exists_toJson_eq (p : Payload) : ∃ members, p.toJson = .object members := by
  cases p <;> exact ⟨_, rfl⟩

end Payload

namespace Message

/-- The coordinates of all vertices as they are read: surface by surface, vertex by vertex, and of
each vertex first the one and then the other. -/
def coordinates (m : Message) : List (String × Single) := m.payload.coordinates

theorem ofJson_reread (m : Message) : ofJson m.toJson.reread = checked m.coordinates m := by
  let f := m.toJson.rereadFields
  have fields : Fields.of "message" m.toJson.reread = .ok f := rfl
  have type : f.string "type" = .ok m.type.text := rfl
  have commandId : f.string "commandId" = .ok m.commandId := rfl
  have payload : f.object "payload" = .ok m.payload.toJson.reread := by
    have found : f.find? "payload" = some m.payload.toJson.reread := rfl
    obtain ⟨members, object⟩ := m.payload.exists_toJson_eq
    rw [object, Json.reread] at found
    simp only [Fields.object, found, object, Json.reread]
  have read : Payload.ofJson m.type m.payload.toJson.reread =
      checked m.coordinates m.payload := m.payload.ofJson_reread
  rw [ofJson, fields, ok_bind, type, ok_bind, MessageType.decode_text, ok_bind, commandId, ok_bind,
    payload, ok_bind, read]
  exact checked_bind rfl

theorem readable (m : Message) : m.toJson.Readable 7 := by
  refine .record ["commandId", "payload", "type"] rfl (by decide) ?_
  simp [Json.Readable.string, m.payload.readable]

/-- The line of a message is the text of a value. -/
theorem parse?_encode (m : Message) : Json.parse? m.encode = some m.toJson.reread :=
  Json.parse?_render (m.readable.mono (by decide))

theorem decode_encode_eq_checked (m : Message) :
    decode m.encode = checked m.coordinates m := by
  have read : Json.decode m.encode = .ok m.toJson.reread := by
    rw [Json.decode, m.parse?_encode]
  rw [decode, read, ok_bind, m.ofJson_reread]

/-- A message comes back as it was if its coordinates are finite; otherwise the first of them that
is not is reported. -/
theorem decode_encode (m : Message) :
    decode m.encode =
      match m.coordinates.find? fun coordinate ↦ !coordinate.2.isFinite with
      | none => .ok m
      | some (field, _) => .error (.wrongFieldType field) :=
  m.decode_encode_eq_checked

/-- The message that sends a definition. -/
def loading (commandId : String) (d : Definition) : Message :=
  ⟨commandId, .loadSceneDefinition d⟩

end Message

end ShowControl
