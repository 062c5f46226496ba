import ShowControl.Proofs.Json.RoundTrip
import ShowControl.Scene.Wire

/-!
# Definitions read back

A definition is written and read part by part, and each part of it comes back, bit for bit, as long
as its coordinates are finite: the only numbers that cannot be written are those that are not, and
levels are finite by themselves.

Where a coordinate is not finite, null stands for it, and reading stops at the first of them. So
every part has its coordinates in the order they are read, and what reading it gives is `checked`
against these: reading one part after the other is a check of the coordinates of the one and then of
the other (`checked_bind_checked`), and of a list those of all its items in turn (`mapM_checked`).
-/

namespace ShowControl

open Numeric

/-! ### Checks of numbers -/

/-- A result if all these numbers are finite, and otherwise an error that names the first of them
that is not. -/
def checked {α : Type} (numbers : List (String × Single)) (a : α) : Except DecodeError α :=
  match numbers.find? fun number ↦ !number.2.isFinite with
  | none => .ok a
  | some (field, _) => .error (.wrongFieldType field)

section Checked

variable {α β : Type} {numbers left right : List (String × Single)} {a : α} {b : β}

@[simp] theorem checked_nil : checked [] a = .ok a := rfl

/-- Finite numbers pass the check, and no others do. -/
theorem checked_eq_ok_iff {a' : α} :
    checked numbers a = .ok a' ↔ (∀ number ∈ numbers, number.2.isFinite = true) ∧ a = a' := by
  unfold checked
  split
  · next none =>
    have finite : ∀ number ∈ numbers, number.2.isFinite = true := by
      simpa using List.find?_eq_none.1 none
    rw [Except.ok.injEq, and_iff_right finite]
  · next field x found =>
    have listed := List.mem_of_find?_eq_some found
    have infinite := List.find?_some found
    refine iff_of_false (fun passes ↦ ?_) fun ⟨finite, _⟩ ↦ ?_
    · cases passes
    · simp [finite _ listed] at infinite

@[simp] theorem ok_bind (f : α → Except DecodeError β) : (.ok a >>= f) = f a := rfl

theorem checked_bind {f : α → Except DecodeError β} (h : f a = .ok b) :
    (checked numbers a >>= f) = checked numbers b := by
  unfold checked
  split
  · exact h
  · rfl

theorem checked_bind_checked {f : α → Except DecodeError β} (h : f a = checked right b) :
    (checked left a >>= f) = checked (left ++ right) b := by
  unfold checked at h ⊢
  rw [List.find?_append]
  cases left.find? fun number ↦ !number.2.isFinite with
  | none => exact h
  | some number => rfl

/-- Items that are checked one by one. -/
theorem mapM_checked {write : α → Json} {read : Json → Except DecodeError α}
    {coordinates : α → List (String × Single)}
    (each : ∀ a, read (write a).reread = checked (coordinates a) a) (items : List α) :
    ((items.map write).map Json.reread).mapM read =
      checked (items.flatMap coordinates) items := by
  induction items with
  | nil => rfl
  | cons a items ih =>
    rw [List.map_cons, List.map_cons, List.mapM_cons, each, ih, List.flatMap_cons]
    exact checked_bind_checked (checked_bind rfl)

end Checked

/-! ### Fields read back -/

/-- A number of 32 bits is read back if it is finite. -/
theorem Fields.single_eq_checked {f : Fields} {field : String} {x : Single}
    (h : f.find? field = some (Json.ofSingle x).reread) :
    f.single field = checked [(field, x)] x := by
  by_cases finite : x.isFinite = true
  · obtain ⟨y, read, narrowed⟩ := Json.Number.read?_floatText finite
    have value : (Json.ofSingle x).reread = .float y := by
      rw [Json.ofSingle, if_pos finite, Json.reread, read, Option.getD_some]
    rw [value] at h
    simp [Fields.single, h, narrowed, checked, finite]
  · have value : (Json.ofSingle x).reread = .null := by
      rw [Json.ofSingle, if_neg finite]
      rfl
    rw [value] at h
    simp [Fields.single, h, checked, finite]

theorem Json.readable_ofSingle (depth : ℕ) (x : Single) : Readable depth (.ofSingle x) := by
  rw [Json.ofSingle]
  split
  · next finite =>
    obtain ⟨y, read, -⟩ := Json.Number.read?_floatText finite
    exact .float depth (widen_spec finite).2.1 read
  · exact .null depth

theorem int32_bounds (i : Int32) : -2147483648 ≤ i.toInt ∧ i.toInt ≤ 2147483647 :=
  ⟨i.minValue_le_toInt, i.toInt_le⟩

theorem Fields.int32_eq {f : Fields} {field : String} {i : Int32}
    (h : f.find? field = some (.integer i.toInt)) : f.int32 field = .ok i := by
  simp only [Fields.int32, h]
  rw [if_pos (int32_bounds i), Int32.ofInt_toInt]

theorem Json.readable_int32 (depth : ℕ) (i : Int32) : Readable depth (.integer i.toInt) := by
  obtain ⟨low, high⟩ := int32_bounds i
  exact .integer depth (by omega) (by omega)

theorem Json.readable_items {α : Type} {write : α → Json} {depth : ℕ}
    (each : ∀ a, Readable depth (write a)) (items : List α) :
    Readable (depth + 1) (.array (items.map write)) :=
  .array (by simpa using fun a _ ↦ each a)

/-! ### Levels and names -/

theorem Level.isFinite_value (l : Level) : l.value.isFinite = true := by
  have inUnit := l.inUnit
  simp only [Binary.inUnit, Bool.or_eq_true, Bool.and_eq_true, decide_eq_true_eq] at inUnit
  have one : Format.single.one < Format.single.infinity := by decide
  have zero : 0 < Format.single.infinity := by decide
  simp only [Binary.isFinite, decide_eq_true_eq]
  omega

theorem Fields.single_level {f : Fields} {field : String} {l : Level}
    (h : f.find? field = some (Json.ofSingle l.value).reread) : f.single field = .ok l.value := by
  simp [Fields.single_eq_checked h, checked, l.isFinite_value]

/-- Clamping leaves a level as it is. -/
theorem Level.clamp_value (l : Level) : clamp l.value = l := by
  have finite := l.isFinite_value
  have number : l.value.isNaN = false := by
    simp only [Binary.isFinite, Binary.isNaN, decide_eq_true_eq, decide_eq_false_iff_not] at *
    omega
  rw [clamp, if_neg (by simp [number]), dif_pos l.inUnit]

theorem BlendMode.decode_text (b : BlendMode) : decode b.text = .ok b := by
  cases b <;> rfl

theorem FeedKind.decode_text (k : FeedKind) : decode k.text = .ok k := by
  cases k <;> rfl

/-! ### The parts of a definition -/

/-- The fields of an object that has been written and read. -/
def Json.rereadFields : Json → Fields
  | .object members => ⟨rereadMembers members⟩
  | _ => ⟨[]⟩

namespace Vertex

/-- The coordinates as they are read, by the names of their fields. -/
def coordinates (v : Vertex) : List (String × Single) := [("x", v.x), ("y", v.y)]

theorem finite_coordinates_iff {v : Vertex} :
    (∀ coordinate ∈ v.coordinates, coordinate.2.isFinite = true) ↔ v.isFinite = true := by
  simp [coordinates, isFinite]

theorem ofJson_reread (v : Vertex) : ofJson v.toJson.reread = checked v.coordinates v := by
  let f := v.toJson.rereadFields
  have fields : Fields.of "vertex" v.toJson.reread = .ok f := rfl
  have x : f.single "x" = checked [("x", v.x)] v.x := Fields.single_eq_checked rfl
  have y : f.single "y" = checked [("y", v.y)] v.y := Fields.single_eq_checked rfl
  rw [ofJson, fields, ok_bind, x]
  refine checked_bind_checked ?_
  rw [y]
  exact checked_bind rfl

theorem readable (v : Vertex) : v.toJson.Readable 1 := by
  refine .record ["x", "y"] rfl (by decide) ?_
  simp [Json.readable_ofSingle]

end Vertex

namespace Surface

/-- The coordinates of the vertices as they are read. -/
def coordinates (s : Surface) : List (String × Single) := s.vertices.flatMap Vertex.coordinates

theorem finite_coordinates_iff {s : Surface} :
    (∀ coordinate ∈ s.coordinates, coordinate.2.isFinite = true) ↔
      ∀ v ∈ s.vertices, v.isFinite = true := by
  simp only [coordinates, List.forall_mem_flatMap, Vertex.finite_coordinates_iff]

theorem ofJson_reread (s : Surface) : ofJson s.toJson.reread = checked s.coordinates s := by
  let f := s.toJson.rereadFields
  have fields : Fields.of "surface" s.toJson.reread = .ok f := rfl
  have id : f.string "id" = .ok s.id.text := rfl
  have name : f.string "name" = .ok s.name := rfl
  have vertices : f.array "vertices" = .ok ((s.vertices.map Vertex.toJson).map Json.reread) := by
    rw [← Json.rereadItems_eq_map]
    rfl
  have feed : f.string "feedId" = .ok s.feed.text := rfl
  have opacity : f.single "opacity" = .ok s.opacity.value := Fields.single_level rfl
  have brightness : f.single "brightness" = .ok s.brightness.value := Fields.single_level rfl
  have blend : f.string "blendMode" = .ok s.blend.text := rfl
  have zOrder : f.int32 "zOrder" = .ok s.zOrder := Fields.int32_eq rfl
  rw [ofJson, fields, ok_bind, id, ok_bind, name, ok_bind, vertices, ok_bind,
    mapM_checked Vertex.ofJson_reread]
  refine checked_bind ?_
  rw [feed, ok_bind, opacity, ok_bind, brightness, ok_bind, blend, ok_bind, s.blend.decode_text,
    ok_bind, zOrder, ok_bind, Level.clamp_value, Level.clamp_value]
  rfl

theorem readable (s : Surface) : s.toJson.Readable 3 := by
  refine .record
    ["blendMode", "brightness", "feedId", "id", "name", "opacity", "vertices", "zOrder"]
    rfl (by decide) ?_
  simp [Json.readable_ofSingle, Json.readable_int32, Json.Readable.string,
    Json.readable_items Vertex.readable]

end Surface

namespace Scene

/-- The coordinates of the surfaces as they are read. -/
def coordinates (s : Scene) : List (String × Single) := s.surfaces.flatMap Surface.coordinates

theorem ofJson_reread (s : Scene) : ofJson s.toJson.reread = checked s.coordinates s := by
  let f := s.toJson.rereadFields
  have fields : Fields.of "scene" s.toJson.reread = .ok f := rfl
  have id : f.string "id" = .ok s.id.text := rfl
  have name : f.string "name" = .ok s.name := rfl
  have description : f.string "description" = .ok s.description := rfl
  have surfaces : f.array "surfaces" = .ok ((s.surfaces.map Surface.toJson).map Json.reread) := by
    rw [← Json.rereadItems_eq_map]
    rfl
  rw [ofJson, fields, ok_bind, id, ok_bind, name, ok_bind, description, ok_bind, surfaces, ok_bind,
    mapM_checked Surface.ofJson_reread]
  exact checked_bind rfl

theorem readable (s : Scene) : s.toJson.Readable 5 := by
  refine .record ["description", "id", "name", "surfaces"] rfl (by decide) ?_
  simp [Json.Readable.string, Json.readable_items Surface.readable]

end Scene

namespace Feed

theorem ofJson_reread (f : Feed) : ofJson f.toJson.reread = checked [] f := by
  have kind : FeedKind.decode f.kind.text = .ok f.kind := f.kind.decode_text
  let fs := f.toJson.rereadFields
  have fields : Fields.of "feed" f.toJson.reread = .ok fs := rfl
  have id : fs.string "id" = .ok f.id.text := rfl
  have name : fs.string "name" = .ok f.name := rfl
  have kindText : fs.string "type" = .ok f.kind.text := rfl
  have config : fs.value "configJson" = .ok (.string f.config) := rfl
  rw [ofJson, fields, ok_bind, id, ok_bind, name, ok_bind, kindText, ok_bind, kind, ok_bind, config]
  rfl

theorem readable (f : Feed) : f.toJson.Readable 1 := by
  refine .record ["configJson", "id", "name", "type"] rfl (by decide) ?_
  simp [Json.Readable.string]

end Feed

namespace Definition

/-- The coordinates of the scene as they are read. -/
def coordinates (d : Definition) : List (String × Single) := d.scene.coordinates

theorem ofJson_reread (d : Definition) : ofJson d.toJson.reread = checked d.coordinates d := by
  let f := d.toJson.rereadFields
  have fields : Fields.of "payload" d.toJson.reread = .ok f := rfl
  have scene : f.object "scene" = .ok d.scene.toJson.reread := rfl
  have feeds : f.array "feeds" = .ok ((d.feeds.map Feed.toJson).map Json.reread) := by
    rw [← Json.rereadItems_eq_map]
    rfl
  have none : d.feeds.flatMap (fun _ ↦ ([] : List (String × Single))) = [] := by simp
  rw [ofJson, fields, ok_bind, scene, ok_bind, Scene.ofJson_reread]
  refine checked_bind ?_
  rw [feeds, ok_bind, mapM_checked Feed.ofJson_reread, none]
  rfl

theorem readable (d : Definition) : d.toJson.Readable 6 := by
  refine .record ["feeds", "scene"] rfl (by decide) ?_
  simp [(Json.readable_items Feed.readable d.feeds).mono, d.scene.readable]

end Definition

end ShowControl
