import ShowControl.Proofs.Message.Grammar

/-!
# Which values are messages

Reading a value and the tables of the grammar agree on everything: on which values are messages
(`IsMessage`), on the message that such a value stands for (`Message.Spelled`), on what is reported
of any other (the first of `Message.faults`), and on what does not matter (`Message.Alike`). The
table of a message depends on its type, which is the first thing read. `Message.readout` says so of
every value.
-/

namespace ShowControl

/-! ### Payloads -/

/-- The members stand for this payload. -/
def Payload.Spelled (members : List (String × Json)) : Payload → Prop
  | .hello h =>
    HasText members "version" h.version ∧ HasText members "role" h.role ∧
      (HasText members "name" h.name ∨ Entries.find? "name" members = none ∧ h.name = "")
  | .ack commandId => HasText members "commandId" commandId
  | .error commandId message =>
    HasText members "commandId" commandId ∧ HasText members "message" message
  | .loadScene scene => HasText members "sceneId" scene.text
  | .loadSceneDefinition definition => definition.Spelled members
  | .setFeedForSurface surface feed =>
    HasText members "surfaceId" surface.text ∧ HasText members "feedId" feed.text
  | .playCue cue => HasText members "cueId" cue.text

/-- Each type has its own table of fields. -/
theorem Payload.decodesPart (type : MessageType) :
    DecodesPart (Payload.ofJson type) "payload" type.fields
      fun members p ↦ p.type = type ∧ p.Spelled members := by
  cases type with
  | hello =>
    refine decodesPart_of fun members ↦ ?_
    refine ((Fields.decodes_string _ "version").bind fun version _ ↦
      (Fields.decodes_string _ "role").bind fun role _ ↦
      (Fields.decodes_stringOrEmpty _ "name").bind fun name _ ↦ decodes_ok _).congr
      fun p ↦ ⟨?_, ?_⟩
    · rintro ⟨version, hversion, role, hrole, name, hname, rfl⟩
      exact ⟨rfl, hversion, hrole, hname⟩
    · rintro ⟨kind, spelled⟩
      cases p <;> cases kind
      obtain ⟨hversion, hrole, hname⟩ := spelled
      exact ⟨_, hversion, _, hrole, _, hname, rfl⟩
  | error | setFeedForSurface =>
    refine decodesPart_of fun members ↦ ?_
    refine ((Fields.decodes_string _ _).bind fun first _ ↦
      (Fields.decodes_string _ _).bind fun second _ ↦ decodes_ok _).congr fun p ↦ ⟨?_, ?_⟩
    · rintro ⟨first, hfirst, second, hsecond, rfl⟩
      exact ⟨rfl, hfirst, hsecond⟩
    · rintro ⟨kind, spelled⟩
      cases p <;> cases kind
      exact ⟨_, spelled.1, _, spelled.2, rfl⟩
  | ack | loadScene | playCue =>
    refine decodesPart_of fun members ↦ ?_
    refine ((Fields.decodes_string _ _).bind fun only _ ↦ decodes_ok _).congr fun p ↦ ⟨?_, ?_⟩
    · rintro ⟨only, honly, rfl⟩
      exact ⟨rfl, honly⟩
    · rintro ⟨kind, spelled⟩
      cases p <;> cases kind
      exact ⟨_, spelled, rfl⟩
  | loadSceneDefinition =>
    intro value
    have read := (Definition.decodesPart value).bind fun d _ ↦
      decodes_ok (Payload.loadSceneDefinition d)
    rw [List.append_nil] at read
    refine read.congr fun p ↦ ⟨?_, ?_⟩
    · rintro ⟨d, ⟨members, object, spelled⟩, rfl⟩
      exact ⟨members, object, rfl, spelled⟩
    · rintro ⟨members, object, kind, spelled⟩
      cases p <;> cases kind
      exact ⟨_, ⟨members, object, spelled⟩, rfl⟩

/-! ### Messages -/

/-- The members stand for this message. -/
structure Message.Spelled (members : List (String × Json)) (m : Message) : Prop where
  type : HasText members "type" m.type.text
  commandId : HasText members "commandId" m.commandId
  payload : ∃ inner, Entries.find? "payload" members = some (.object inner) ∧
    m.payload.Spelled inner

/-- An object that names one of the types of message and has all the fields of that type. -/
def IsMessage (value : Json) : Prop :=
  ∃ members type, value = .object members ∧ HasText members "type" (MessageType.text type) ∧
    (Shape.record (Message.fields type.fields)).Admits (some value)

namespace Message

/-- The type of message that a value names. -/
def named? : Json → Option MessageType
  | .object members =>
    match Entries.find? "type" members with
    | some (.string s) => MessageType.ofText? s
    | _ => none
  | _ => none

/-- The fields of the payload of the type that a value names. Reading does not come to the payload
of a value that names none. -/
def payloadFields (value : Json) : List (String × Shape) :=
  match named? value with
  | some type => type.fields
  | none => []

/-- The table that a value is held against. -/
def table (value : Json) : List (String × Shape) := fields (payloadFields value)

/-- All that is wrong with a value as a message, in reading order. -/
def faults (value : Json) : List DecodeError := Shape.partFaults "message" (table value) value

/-- The values differ at most in members that the table of the first has no field for. -/
def Alike (left right : Json) : Prop :=
  (Shape.record (table left)).Alike (some left) (some right)

theorem named?_eq_some_iff (members : List (String × Json)) (type : MessageType) :
    named? (.object members) = some type ↔ HasText members "type" type.text := by
  unfold named? HasText
  dsimp only
  split
  · next s found => rw [found, MessageType.ofText?_eq_some_iff, Option.some_inj, Json.string.injEq]
  · next other => exact ⟨nofun, fun found ↦ absurd found (other _)⟩

theorem payloadFields_of_hasText {members : List (String × Json)} {type : MessageType}
    (named : HasText members "type" type.text) :
    payloadFields (.object members) = type.fields := by
  rw [payloadFields, (named?_eq_some_iff members type).2 named]

theorem decodes_type (f : Fields) :
    Decodes (f.string "type" >>= MessageType.decode)
      ((Shape.choice MessageType.names .invalidMessageType).faults "type" (f.find? "type"))
      fun type ↦ f.find? "type" = some (.string type.text) :=
  f.decodes_choice "type" MessageType.ofText?_eq_some_iff MessageType.mem_names_iff
    fun s ↦ by
      rw [MessageType.decode]
      cases MessageType.ofText? s <;> rfl

theorem ofJson_object (members : List (String × Json)) :
    ofJson (.object members) =
      (Fields.string ⟨members⟩ "type" >>= MessageType.decode) >>= fun type ↦
        Fields.string ⟨members⟩ "commandId" >>= fun commandId ↦
          (Fields.object ⟨members⟩ "payload" >>= Payload.ofJson type) >>= fun payload ↦
            .ok { commandId, payload } := by
  simp only [bind_assoc]
  rfl

/-- Reading keeps to the table: it gives the message that the value stands for, and otherwise the
first of the faults. -/
theorem decodes_ofJson (value : Json) :
    Decodes (ofJson value) (faults value)
      fun m ↦ ∃ members, value = .object members ∧ Spelled members m := by
  cases value with
  | object members =>
    have payload (type : MessageType) (named : HasText members "type" type.text) :=
      payloadFields_of_hasText named ▸ (Payload.decodesPart type).record ⟨members⟩ "payload"
    rw [ofJson_object]
    refine ((decodes_type _).bind fun type named ↦ (Fields.decodes_string _ "commandId").bind
      fun id _ ↦ (payload type named).bind fun p _ ↦ decodes_ok _).congr fun m ↦ ⟨?_, ?_⟩
    · rintro ⟨type, htype, id, hid, p, ⟨inner, found, rfl, spelled⟩, rfl⟩
      exact ⟨members, rfl, htype, hid, inner, found, spelled⟩
    · rintro ⟨_, ⟨⟩, htype, hid, inner, found, spelled⟩
      exact ⟨_, htype, _, hid, _, ⟨inner, found, rfl, spelled⟩, rfl⟩
  | _ => exact decodes_error _ [] fun _ ⟨_, object, _⟩ ↦ nomatch object

end Message

/-! ### What does not matter -/

theorem Vertex.heeds : Heeds Vertex.ofJson Vertex.fields := by
  refine heeds_of fun left right alike ↦ ?_
  simp only [Vertex.fields, List.forall_mem_cons] at alike
  obtain ⟨x, y, -⟩ := alike
  simp only [Fields.single, Fields.find?, x.eq_of_scalar, y.eq_of_scalar]

theorem Surface.heeds : Heeds Surface.ofJson Surface.fields := by
  refine heeds_of fun left right alike ↦ ?_
  simp only [Surface.fields, List.forall_mem_cons] at alike
  obtain ⟨id, name, vertices, feed, opacity, brightness, blend, zOrder, -⟩ := alike
  simp only [← bind_assoc]
  rw [Vertex.heeds.records (f := ⟨left⟩) (g := ⟨right⟩) vertices]
  simp only [Fields.string, Fields.single, Fields.int32, Fields.find?, id.eq_of_scalar,
    name.eq_of_scalar, feed.eq_of_scalar, opacity.eq_of_scalar, brightness.eq_of_scalar,
    blend.eq_of_choice, zOrder.eq_of_scalar]

theorem Scene.heeds : Heeds Scene.ofJson Scene.fields := by
  refine heeds_of fun left right alike ↦ ?_
  simp only [Scene.fields, List.forall_mem_cons] at alike
  obtain ⟨id, name, description, surfaces, -⟩ := alike
  simp only [← bind_assoc]
  rw [Surface.heeds.records (f := ⟨left⟩) (g := ⟨right⟩) surfaces]
  simp only [Fields.string, Fields.find?, id.eq_of_scalar, name.eq_of_scalar,
    description.eq_of_scalar]

theorem Feed.heeds : Heeds Feed.ofJson Feed.fields := by
  refine heeds_of fun left right alike ↦ ?_
  simp only [Feed.fields, List.forall_mem_cons] at alike
  obtain ⟨id, name, kind, config, -⟩ := alike
  simp only [Fields.string, Fields.value, Fields.find?, id.eq_of_scalar, name.eq_of_scalar,
    kind.eq_of_choice, config.eq_of_scalar]

theorem Definition.heeds : Heeds Definition.ofJson Definition.fields := by
  refine heeds_of fun left right alike ↦ ?_
  simp only [Definition.fields, List.forall_mem_cons] at alike
  obtain ⟨scene, feeds, -⟩ := alike
  simp only [← bind_assoc]
  rw [Scene.heeds.record (f := ⟨left⟩) (g := ⟨right⟩) scene,
    Feed.heeds.records (f := ⟨left⟩) (g := ⟨right⟩) feeds]

/-- Payloads that are alike in the fields of a type are read alike as payloads of it. -/
theorem Payload.heeds (type : MessageType) : Heeds (Payload.ofJson type) type.fields := by
  cases type with
  | loadSceneDefinition =>
    intro left right alike
    rw [Payload.ofJson, Payload.ofJson, Definition.heeds left right alike]
  | hello =>
    refine heeds_of fun left right alike ↦ ?_
    simp only [MessageType.fields, List.forall_mem_cons] at alike
    obtain ⟨version, role, name, -⟩ := alike
    simp only [Fields.string, Fields.stringOrEmpty, Fields.find?, version.eq_of_scalar,
      role.eq_of_scalar, name.eq_of_optional]
  | error | setFeedForSurface =>
    refine heeds_of fun left right alike ↦ ?_
    simp only [MessageType.fields, List.forall_mem_cons] at alike
    obtain ⟨first, second, -⟩ := alike
    simp only [Fields.string, Fields.find?, first.eq_of_scalar, second.eq_of_scalar]
  | ack | loadScene | playCue =>
    refine heeds_of fun left right alike ↦ ?_
    simp only [MessageType.fields, List.forall_mem_cons] at alike
    obtain ⟨only, -⟩ := alike
    simp only [Fields.string, Fields.find?, only.eq_of_scalar]

namespace Message

/-- Values that are alike are read alike. -/
theorem ofJson_eq_of_alike {left right : Json} (alike : Alike left right) :
    ofJson right = ofJson left := by
  cases alike with
  | refl => rfl
  | @record _ left right each =>
    have parts := Shape.Alike.members (.record each)
    simp only [table, fields, List.forall_mem_cons] at parts
    obtain ⟨type, commandId, payload, -⟩ := parts
    have sameType : Fields.string ⟨right⟩ "type" = Fields.string ⟨left⟩ "type" := by
      simp only [Fields.string, Fields.find?, type.eq_of_choice]
    have sameId : Fields.string ⟨right⟩ "commandId" = Fields.string ⟨left⟩ "commandId" := by
      simp only [Fields.string, Fields.find?, commandId.eq_of_scalar]
    rw [ofJson_object, ofJson_object, sameType, sameId]
    cases named : Fields.string ⟨left⟩ "type" >>= MessageType.decode with
    | error e => rfl
    | ok type =>
      rw [payloadFields_of_hasText (((decodes_type ⟨left⟩).ok_iff type).1 named)] at payload
      have samePayload := (Payload.heeds type).record (f := ⟨left⟩) (g := ⟨right⟩) payload
      show (Fields.string ⟨left⟩ "commandId" >>= fun id ↦ _) = _
      rw [← samePayload]
      rfl

/-! ### All values -/

/-- Nothing is wrong with messages, and with nothing else. -/
theorem faults_eq_nil_iff (value : Json) : faults value = [] ↔ IsMessage value := by
  rw [faults, Shape.partFaults_eq_nil_iff]
  constructor
  · intro admits
    cases admits with
    | @record _ members each =>
      have first := each "type" _ (List.mem_cons_self ..)
      generalize found : Entries.find? "type" members = held at first
      cases first with
      | choice listed =>
        obtain ⟨type, rfl⟩ := (MessageType.mem_names_iff _).1 listed
        refine ⟨members, type, rfl, found, ?_⟩
        rw [← payloadFields_of_hasText found]
        exact .record each
  · rintro ⟨members, type, rfl, named, admits⟩
    rwa [table, payloadFields_of_hasText named]

/-- What reading makes of a value. -/
structure Readout (value : Json) : Prop where
  /-- A message is read, exactly if the value is one. -/
  accepted : (∃ m, ofJson value = .ok m) ↔ IsMessage value
  /-- It is the one that the value stands for. -/
  carried : ∀ m, ofJson value = .ok m ↔ ∃ members, value = .object members ∧ Spelled members m
  /-- Otherwise the first fault in reading order is reported. -/
  refused : ∀ e, ofJson value = .error e ↔ (faults value).head? = some e
  /-- Members that have no place in the table make no difference. -/
  settled : ∀ other, Alike value other → ofJson other = ofJson value

/-- Reading a value is what the grammar says of it. -/
theorem readout (value : Json) : Readout value where
  accepted := (decodes_ofJson value).eq_nil_iff.symm.trans (faults_eq_nil_iff value)
  carried := (decodes_ofJson value).ok_iff
  refused := (decodes_ofJson value).error_iff
  settled _ := ofJson_eq_of_alike

end Message

end ShowControl
