import ShowControl.Json.Parser
import ShowControl.Json.Printer

/-!
# Fields of an object

Everything on the wire is an object with named fields. Reading a field either gives a value of the
kind that is wanted or names the field at fault, so that a peer can be told what was wrong with its
line. Fields that nobody asks for are ignored.
-/

namespace ShowControl

open Numeric

/-- Why a text is no message, scene or feed. -/
inductive DecodeError where
  /-- The text is not JSON. What the reader of JSON says about it is left out. -/
  | notJson
  /-- An object was wanted: the message, its payload, or a part of it. -/
  | notAnObject (part : String)
  /-- The field is absent. -/
  | missingField (field : String)
  /-- The field holds a value of another kind. -/
  | wrongFieldType (field : String)
  /-- The text is none of the names of this enumeration. -/
  | invalidChoice (enumeration text : String)
  /-- The text is none of the message types. -/
  | invalidMessageType (text : String)
  deriving DecidableEq, Repr

/-- The wording that is shown to operators and sent to peers. For a text that is not JSON it is cut
off before the colon behind which the reader of JSON says in its own words what is wrong and
where. -/
def DecodeError.message : DecodeError → String
  | .notJson => "invalid JSON"
  | .notAnObject part => part ++ " must be an object"
  | .missingField field => "Missing required field: " ++ field
  | .wrongFieldType field => "Field '" ++ field ++ "' has the wrong type"
  | .invalidChoice enumeration text => "Invalid " ++ enumeration ++ ": " ++ text
  | .invalidMessageType text => "Invalid RendererMessageType: " ++ text

/-- The members of an object, to be read by name. -/
structure Fields where
  /-- The members in key order. -/
  members : List (String × Json)

namespace Fields

/-- The fields of a value that must be an object; `part` names it if it is not. -/
def of (part : String) : Json → Except DecodeError Fields
  | .object members => .ok ⟨members⟩
  | _ => .error (.notAnObject part)

variable (f : Fields)

/-- The value of a field, if it is there. -/
def find? (field : String) : Option Json := Entries.find? field f.members

/-- The value of a field that must be there. -/
def value (field : String) : Except DecodeError Json :=
  match f.find? field with
  | some v => .ok v
  | none => .error (.missingField field)

/-- A string. -/
def string (field : String) : Except DecodeError String :=
  match f.find? field with
  | some (.string s) => .ok s
  | some _ => .error (.wrongFieldType field)
  | none => .error (.missingField field)

/-- A string, empty where the field is absent. -/
def stringOrEmpty (field : String) : Except DecodeError String :=
  match f.find? field with
  | some (.string s) => .ok s
  | some _ => .error (.wrongFieldType field)
  | none => .ok ""

/-- Any number, rounded to 64 bits and then to 32. -/
def single (field : String) : Except DecodeError Single :=
  match f.find? field with
  | some (.integer i) => .ok ((Binary.ofInt .double i).convert .single)
  | some (.float x) => .ok (x.convert .single)
  | some _ => .error (.wrongFieldType field)
  | none => .error (.missingField field)

/-- An integer of 32 bits. -/
def int32 (field : String) : Except DecodeError Int32 :=
  match f.find? field with
  | some (.integer i) =>
    if -2147483648 ≤ i ∧ i ≤ 2147483647 then .ok (Int32.ofInt i) else .error (.wrongFieldType field)
  | some _ => .error (.wrongFieldType field)
  | none => .error (.missingField field)

/-- An object. -/
def object (field : String) : Except DecodeError Json :=
  match f.find? field with
  | some (.object members) => .ok (.object members)
  | some _ => .error (.wrongFieldType field)
  | none => .error (.missingField field)

/-- The items of an array. -/
def array (field : String) : Except DecodeError (List Json) :=
  match f.find? field with
  | some (.array items) => .ok items
  | some _ => .error (.wrongFieldType field)
  | none => .error (.missingField field)

end Fields

/-- A number of 32 bits as it is written: widened, and null where it is not finite. -/
def Json.ofSingle (x : Single) : Json :=
  if x.isFinite then .float (x.convert .double) else .null

/-- Reads a text that must be JSON. -/
def Json.decode (text : String) : Except DecodeError Json :=
  match Json.parse? text with
  | some value => .ok value
  | none => .error .notJson

/-- Reads bytes that must be JSON in UTF-8. -/
def Json.decodeBytes (text : ByteArray) : Except DecodeError Json :=
  match Json.parseBytes? text with
  | some value => .ok value
  | none => .error .notJson

end ShowControl
