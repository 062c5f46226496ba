import ShowControl.Message.Wire
import ShowControl.Proofs.Wire.Shape

/-!
# The grammar of messages

Which values are messages is a handful of tables: the fields of each part of a definition, those of
the payload of each type, and those of the message around it, all in reading order. `IsMessage` says
which values the tables admit, `Message.Spelled` which message such a value stands for, and
`Message.faults` what is wrong with any other.

Reading keeps to the tables, part by part (`Vertex.decodesPart` and so on up to
`Message.decodes_ofJson`), and looks at nothing that is not in them (`Vertex.heeds` and so on).
`Message.readout` puts this together for all values.
-/

namespace ShowControl

open Numeric

/-! ### Names -/

theorem FeedKind.ofText?_eq_some_iff (s : String) (k : FeedKind) :
    ofText? s = some k ↔ s = k.text := by
  constructor
  · unfold ofText?
    split <;> rintro ⟨⟩ <;> rfl
  · rintro rfl
    cases k <;> rfl

theorem BlendMode.ofText?_eq_some_iff (s : String) (b : BlendMode) :
    ofText? s = some b ↔ s = b.text := by
  constructor
  · unfold ofText?
    split <;> rintro ⟨⟩ <;> rfl
  · rintro rfl
    cases b <;> rfl

theorem MessageType.ofText?_eq_some_iff (s : String) (t : MessageType) :
    ofText? s = some t ↔ s = t.text := by
  constructor
  · unfold ofText?
    split <;> rintro ⟨⟩ <;> rfl
  · rintro rfl
    cases t <;> rfl

/-! ### The tables -/

/-- The names of the kinds of feed. -/
def FeedKind.names : List String := ["VideoFile", "Camera", "Generated"]

/-- The names of the blend modes. -/
def BlendMode.names : List String := ["Normal", "Additive", "Multiply"]

/-- The names of the types of message. -/
def MessageType.names : List String :=
  ["hello", "ack", "error", "loadScene", "loadSceneDefinition", "setFeedForSurface", "playCue"]

/-- The fields of a vertex. -/
def Vertex.fields : List (String × Shape) := [("x", .number), ("y", .number)]

/-- The fields of a surface. -/
def Surface.fields : List (String × Shape) :=
  [("id", .text), ("name", .text), ("vertices", .records "vertex" Vertex.fields),
    ("feedId", .text), ("opacity", .number), ("brightness", .number),
    ("blendMode", .choice BlendMode.names (.invalidChoice "BlendMode")), ("zOrder", .int32)]

/-- The fields of a scene. -/
def Scene.fields : List (String × Shape) :=
  [("id", .text), ("name", .text), ("description", .text),
    ("surfaces", .records "surface" Surface.fields)]

/-- The fields of a feed. -/
def Feed.fields : List (String × Shape) :=
  [("id", .text), ("name", .text),
    ("type", .choice FeedKind.names (.invalidChoice "FeedType")), ("configJson", .config)]

/-- The fields of a definition. -/
def Definition.fields : List (String × Shape) :=
  [("scene", .record Scene.fields), ("feeds", .records "feed" Feed.fields)]

/-- The fields of a payload of this type. -/
def MessageType.fields : MessageType → List (String × Shape)
  | .hello => [("version", .text), ("role", .text), ("name", .optional .text)]
  | .ack => [("commandId", .text)]
  | .error => [("commandId", .text), ("message", .text)]
  | .loadScene => [("sceneId", .text)]
  | .loadSceneDefinition => Definition.fields
  | .setFeedForSurface => [("surfaceId", .text), ("feedId", .text)]
  | .playCue => [("cueId", .text)]

/-- The fields of a message whose payload has these fields. -/
def Message.fields (payload : List (String × Shape)) : List (String × Shape) :=
  [("type", .choice MessageType.names .invalidMessageType), ("commandId", .text),
    ("payload", .record payload)]

/-! ### What the parts stand for -/

/-- The field holds this string. -/
def HasText (members : List (String × Json)) (field s : String) : Prop :=
  Entries.find? field members = some (.string s)

/-- The field holds a number that is read as this one. -/
def HasNumber (members : List (String × Json)) (field : String) (x : Single) : Prop :=
  ∃ value, Entries.find? field members = some value ∧ value.Measures x

/-- The field holds an array of objects that stand for these parts, in order. -/
def HasParts {α : Type} (members : List (String × Json)) (field : String)
    (Spelled : List (String × Json) → α → Prop) (parts : List α) : Prop :=
  ∃ items, Entries.find? field members = some (.array items) ∧
    List.Forall₂ (fun item part ↦ ∃ inner, item = .object inner ∧ Spelled inner part) items parts

/-- Each of the parts has an object among the items. -/
theorem HasParts.exists_item {α : Type} {members : List (String × Json)} {field : String}
    {Spelled : List (String × Json) → α → Prop} {parts : List α} {part : α}
    (held : HasParts members field Spelled parts) (listed : part ∈ parts) :
    ∃ items inner, Entries.find? field members = some (.array items) ∧
      Json.object inner ∈ items ∧ Spelled inner part := by
  obtain ⟨items, found, each⟩ := held
  suffices ∃ inner, Json.object inner ∈ items ∧ Spelled inner part by
    obtain ⟨inner, mem, spelled⟩ := this
    exact ⟨items, inner, found, mem, spelled⟩
  clear found
  induction each with
  | nil => cases listed
  | cons first _ ih =>
    rcases List.mem_cons.1 listed with rfl | later
    · obtain ⟨inner, rfl, spelled⟩ := first
      exact ⟨inner, List.mem_cons_self, spelled⟩
    · obtain ⟨inner, mem, spelled⟩ := ih later
      exact ⟨inner, List.mem_cons_of_mem _ mem, spelled⟩

/-- The members stand for this vertex. -/
structure Vertex.Spelled (members : List (String × Json)) (v : Vertex) : Prop where
  x : HasNumber members "x" v.x
  y : HasNumber members "y" v.y

/-- The members stand for this surface. -/
structure Surface.Spelled (members : List (String × Json)) (s : Surface) : Prop where
  id : HasText members "id" s.id.text
  name : HasText members "name" s.name
  vertices : HasParts members "vertices" Vertex.Spelled s.vertices
  feed : HasText members "feedId" s.feed.text
  opacity : ∃ x, HasNumber members "opacity" x ∧ s.opacity = .clamp x
  brightness : ∃ x, HasNumber members "brightness" x ∧ s.brightness = .clamp x
  blend : HasText members "blendMode" s.blend.text
  zOrder : Entries.find? "zOrder" members = some (.integer s.zOrder.toInt)

/-- The members stand for this scene. -/
structure Scene.Spelled (members : List (String × Json)) (s : Scene) : Prop where
  id : HasText members "id" s.id.text
  name : HasText members "name" s.name
  description : HasText members "description" s.description
  surfaces : HasParts members "surfaces" Surface.Spelled s.surfaces

/-- The value stands for this configuration: a string for itself, a container for its compact
text. -/
inductive Json.Configures : Json → String → Prop where
  | text (s : String) : Configures (.string s) s
  | array (items : List Json) : Configures (.array items) (Json.array items).render
  | object (members : List (String × Json)) :
    Configures (.object members) (Json.object members).render

/-- The members stand for this feed. -/
structure Feed.Spelled (members : List (String × Json)) (f : Feed) : Prop where
  id : HasText members "id" f.id.text
  name : HasText members "name" f.name
  kind : HasText members "type" f.kind.text
  config : ∃ value, Entries.find? "configJson" members = some value ∧ value.Configures f.config

/-- The members stand for this definition. -/
structure Definition.Spelled (members : List (String × Json)) (d : Definition) : Prop where
  scene : ∃ inner, Entries.find? "scene" members = some (.object inner) ∧ d.scene.Spelled inner
  feeds : HasParts members "feeds" Feed.Spelled d.feeds

/-! ### Reading the parts of a definition -/

theorem mem_texts_iff {α : Type} {all : List α} (text : α → String) (complete : ∀ a, a ∈ all)
    (s : String) : s ∈ all.map text ↔ ∃ a, s = text a := by
  simp only [List.mem_map, complete, true_and, eq_comm]

theorem FeedKind.mem_names_iff : ∀ s : String, s ∈ names ↔ ∃ k : FeedKind, s = k.text :=
  have complete (k : FeedKind) : k ∈ [.videoFile, .camera, .generated] := by cases k <;> decide
  mem_texts_iff text complete

theorem BlendMode.mem_names_iff : ∀ s : String, s ∈ names ↔ ∃ b : BlendMode, s = b.text :=
  have complete (b : BlendMode) : b ∈ [.normal, .additive, .multiply] := by cases b <;> decide
  mem_texts_iff text complete

theorem MessageType.mem_names_iff : ∀ s : String, s ∈ names ↔ ∃ t : MessageType, s = t.text :=
  have complete (t : MessageType) : t ∈ [.hello, .ack, .error, .loadScene, .loadSceneDefinition,
      .setFeedForSurface, .playCue] := by cases t <;> decide
  mem_texts_iff text complete

theorem Vertex.decodesPart : DecodesPart Vertex.ofJson "vertex" Vertex.fields Vertex.Spelled := by
  refine decodesPart_of fun members ↦ ?_
  refine ((Fields.decodes_single _ "x").bind fun x _ ↦ (Fields.decodes_single _ "y").bind fun y _ ↦
    decodes_ok (Vertex.mk x y)).congr fun v ↦ ⟨?_, ?_⟩
  · rintro ⟨x, hx, y, hy, rfl⟩
    exact ⟨hx, hy⟩
  · rintro ⟨hx, hy⟩
    exact ⟨_, hx, _, hy, rfl⟩

theorem Fields.decodes_blendMode (f : Fields) (field : String) :
    Decodes (f.string field >>= BlendMode.decode)
      ((Shape.choice BlendMode.names (.invalidChoice "BlendMode")).faults field (f.find? field))
      fun b ↦ f.find? field = some (.string b.text) :=
  f.decodes_choice field BlendMode.ofText?_eq_some_iff BlendMode.mem_names_iff fun _ ↦ rfl

theorem Surface.decodesPart :
    DecodesPart Surface.ofJson "surface" Surface.fields Surface.Spelled := by
  refine decodesPart_of fun members ↦ ?_
  simp only [← bind_assoc]
  refine ((Fields.decodes_string _ "id").bind fun id _ ↦
    (Fields.decodes_string _ "name").bind fun name _ ↦
    (Vertex.decodesPart.records _ "vertices").bind fun vertices _ ↦
    (Fields.decodes_string _ "feedId").bind fun feed _ ↦
    (Fields.decodes_single _ "opacity").bind fun opacity _ ↦
    (Fields.decodes_single _ "brightness").bind fun brightness _ ↦
    (Fields.decodes_blendMode _ "blendMode").bind fun blend _ ↦
    (Fields.decodes_int32 _ "zOrder").bind fun zOrder _ ↦ decodes_ok _).congr fun s ↦ ⟨?_, ?_⟩
  · rintro ⟨id, hid, name, hname, vertices, hvertices, feed, hfeed, opacity, hopacity, brightness,
      hbrightness, blend, hblend, zOrder, hzOrder, rfl⟩
    exact ⟨hid, hname, hvertices, hfeed, ⟨_, hopacity, rfl⟩, ⟨_, hbrightness, rfl⟩, hblend,
      hzOrder⟩
  · obtain ⟨id, name, vertices, feed, opacity, brightness, blend, zOrder⟩ := s
    rintro ⟨hid, hname, hvertices, hfeed, ⟨opacity, hopacity, rfl⟩, ⟨brightness, hbrightness, rfl⟩,
      hblend, hzOrder⟩
    exact ⟨_, hid, _, hname, _, hvertices, _, hfeed, _, hopacity, _, hbrightness, _, hblend, _,
      hzOrder, rfl⟩

theorem Scene.decodesPart : DecodesPart Scene.ofJson "scene" Scene.fields Scene.Spelled := by
  refine decodesPart_of fun members ↦ ?_
  simp only [← bind_assoc]
  refine ((Fields.decodes_string _ "id").bind fun id _ ↦
    (Fields.decodes_string _ "name").bind fun name _ ↦
    (Fields.decodes_string _ "description").bind fun description _ ↦
    (Surface.decodesPart.records _ "surfaces").bind fun surfaces _ ↦ decodes_ok _).congr
    fun s ↦ ⟨?_, ?_⟩
  · rintro ⟨id, hid, name, hname, description, hdescription, surfaces, hsurfaces, rfl⟩
    exact ⟨hid, hname, hdescription, hsurfaces⟩
  · rintro ⟨hid, hname, hdescription, hsurfaces⟩
    exact ⟨_, hid, _, hname, _, hdescription, _, hsurfaces, rfl⟩

theorem Fields.decodes_feedKind (f : Fields) (field : String) :
    Decodes (f.string field >>= FeedKind.decode)
      ((Shape.choice FeedKind.names (.invalidChoice "FeedType")).faults field (f.find? field))
      fun k ↦ f.find? field = some (.string k.text) :=
  f.decodes_choice field FeedKind.ofText?_eq_some_iff FeedKind.mem_names_iff fun _ ↦ rfl

theorem Feed.decodes_config (f : Fields) :
    Decodes (f.value "configJson" >>= configOfJson)
      (Shape.config.faults "configJson" (f.find? "configJson"))
      fun s ↦ ∃ value, f.find? "configJson" = some value ∧ value.Configures s := by
  rw [Fields.value]
  rcases f.find? "configJson" with _ | value
  · exact decodes_error _ [] fun _ ⟨_, found, _⟩ ↦ nomatch found
  · simp only [Option.some_inj, exists_eq_left']
    cases value with
    | string s => exact (decodes_ok _).congr fun _ ↦ ⟨fun | rfl => .text s, fun | .text _ => rfl⟩
    | array items =>
      exact (decodes_ok _).congr fun _ ↦ ⟨fun | rfl => .array items, fun | .array _ => rfl⟩
    | object members =>
      exact (decodes_ok _).congr fun _ ↦ ⟨fun | rfl => .object members, fun | .object _ => rfl⟩
    | _ => exact decodes_error _ [] fun _ ↦ nofun

theorem Feed.decodesPart : DecodesPart Feed.ofJson "feed" Feed.fields Feed.Spelled := by
  refine decodesPart_of fun members ↦ ?_
  simp only [← bind_assoc]
  refine ((Fields.decodes_string _ "id").bind fun id _ ↦
    (Fields.decodes_string _ "name").bind fun name _ ↦
    (Fields.decodes_feedKind _ "type").bind fun kind _ ↦
    (Feed.decodes_config _).bind fun config _ ↦ decodes_ok _).congr fun f ↦ ⟨?_, ?_⟩
  · rintro ⟨id, hid, name, hname, kind, hkind, config, hconfig, rfl⟩
    exact ⟨hid, hname, hkind, hconfig⟩
  · rintro ⟨hid, hname, hkind, hconfig⟩
    exact ⟨_, hid, _, hname, _, hkind, _, hconfig, rfl⟩

theorem Definition.decodesPart :
    DecodesPart Definition.ofJson "payload" Definition.fields Definition.Spelled := by
  refine decodesPart_of fun members ↦ ?_
  simp only [← bind_assoc]
  refine ((Scene.decodesPart.record _ "scene").bind fun scene _ ↦
    (Feed.decodesPart.records _ "feeds").bind fun feeds _ ↦ decodes_ok _).congr fun d ↦ ⟨?_, ?_⟩
  · rintro ⟨scene, hscene, feeds, hfeeds, rfl⟩
    exact ⟨hscene, hfeeds⟩
  · rintro ⟨hscene, hfeeds⟩
    exact ⟨_, hscene, _, hfeeds, rfl⟩

end ShowControl
