import ShowControl.Proofs.Renderer.Commands
import ShowControl.Proofs.Scene.Validation
import ShowControl.Scene.File

/-!
# What a sender accepts, every renderer accepts

A definition file is checked where it is read, and the definition again by each renderer that it is
sent to. Between the two checks it is written as a message and read from a line. The line gives the
same definition as long as all vertices are finite, which the check looks for, so that the second
check comes to what the first has come to (`Definition.same_verdict`): a definition that has passed
is taken in as it is, and one that has not is refused by the same text.
-/

namespace ShowControl

namespace Definition

variable {d : Definition} {content : ByteArray} {text line : String} {reason : ValidationError}

/-! ### Files -/

theorem finite_coordinates_iff :
    (∀ coordinate ∈ d.coordinates, coordinate.2.isFinite = true) ↔
      ∀ surface ∈ d.scene.surfaces, ∀ v ∈ surface.vertices, v.isFinite = true := by
  simp only [coordinates, Scene.coordinates, List.forall_mem_flatMap,
    Surface.finite_coordinates_iff]

/-- The check looks for vertices that are not finite. -/
theorem finite_of_check (passes : d.check = .ok ()) :
    ∀ surface ∈ d.scene.surfaces, ∀ v ∈ surface.vertices, v.isFinite = true :=
  fun surface listed ↦ ((Scene.check_eq_ok_iff.1 passes).surfaces surface listed).finite

/-- What a file has been found to hold. -/
theorem ofFile_eq_ok_iff :
    ofFile (some content) = .ok d ↔
      ∃ text, fileText (some content) = .ok text ∧ Definition.decode text = .ok d ∧
        d.check = .ok () := by
  constructor
  · intro accepted
    unfold ofFile at accepted
    split at accepted
    · cases accepted
    · next text read =>
      split at accepted
      · cases accepted
      · next d' decoded =>
        split at accepted
        · cases accepted
        · next passes =>
          cases accepted
          exact ⟨text, read, decoded, passes⟩
  · rintro ⟨text, read, decoded, passes⟩
    simp only [ofFile, read, decoded, passes]

/-- A definition that does not pass is refused for what it does not pass for. -/
theorem ofFile_of_fault (read : fileText (some content) = .ok text)
    (decoded : Definition.decode text = .ok d) (fault : d.check = .error reason) :
    ofFile (some content) = .error (.invalid reason) := by
  simp only [ofFile, read, decoded, fault]

/-- A definition that is written to a file is read back, if its vertices are finite. -/
theorem decode_render
    (finite : ∀ surface ∈ d.scene.surfaces, ∀ v ∈ surface.vertices, v.isFinite = true) :
    Definition.decode d.toJson.render = .ok d := by
  have read : Json.decode d.toJson.render = .ok d.toJson.reread := by
    rw [Json.decode, Json.parse?_render (d.readable.mono (by decide))]
  rw [Definition.decode, read, ok_bind, d.ofJson_reread]
  exact checked_eq_ok_iff.2 ⟨finite_coordinates_iff.2 finite, rfl⟩

theorem fileText_toUTF8 (text : String) : fileText (some text.toUTF8) = .ok text := by
  rw [fileText, fromUTF8?_toUTF8]

/-- A definition that can be drawn may be kept in a file. -/
theorem ofFile_render (passes : d.check = .ok ()) :
    ofFile (some d.toJson.render.toUTF8) = .ok d :=
  ofFile_eq_ok_iff.2 ⟨_, fileText_toUTF8 _, decode_render (finite_of_check passes), passes⟩

/-! ### Lines -/

/-- A renderer that gets the line of a definition answers the definition itself. -/
theorem answer_line {commandId : String} (sent : (Message.loading commandId d).line? = .ok line)
    (finite : ∀ surface ∈ d.scene.surfaces, ∀ v ∈ surface.vertices, v.isFinite = true) :
    Message.decodeBytes line.toUTF8 = .ok (.loading commandId d) ∧
      ∀ s : Stage, Handler.stage.answer s line.toUTF8 =
        Handler.stage.dispatch s (.loading commandId d) := by
  obtain ⟨-, rfl⟩ := Message.line?_eq_ok_iff.1 sent
  have finite' := finite_coordinates_iff.2 finite
  exact ⟨Message.decodeBytes_toUTF8 finite', fun s ↦ Handler.answer_encode _ s finite'⟩

/-- What the reader of a file and the renderers that its definition is sent to say of it. -/
structure SameVerdict (content : ByteArray) (commandId : String) : Prop where
  /-- A definition that the reader accepts is taken in by every renderer. -/
  accepted : ∀ d line, ofFile (some content) = .ok d →
    (Message.loading commandId d).line? = .ok line →
    Message.decodeBytes line.toUTF8 = .ok (.loading commandId d) ∧
      ∀ s : Stage, ∃ s', Handler.stage.answer s line.toUTF8 = (s', some (.ack commandId)) ∧
        s'.activeScene = some d.scene ∧
        ∀ feed ∈ d.feeds, s'.feed? feed.id =
          (d.feeds.filter fun other ↦ other.id = feed.id).getLast?
  /-- A definition that the reader refuses, and that is sent all the same, is refused by every
  renderer with the text of the reader. -/
  refused : ∀ text d line, fileText (some content) = .ok text → Definition.decode text = .ok d →
    (∀ surface ∈ d.scene.surfaces, ∀ v ∈ surface.vertices, v.isFinite = true) →
    d.check ≠ .ok () → (Message.loading commandId d).line? = .ok line →
    ∃ reason, ofFile (some content) = .error reason ∧
      ∀ s : Stage, Handler.stage.answer s line.toUTF8 =
        (s, some (.error commandId reason.message))

theorem feed?_loaded_of_mem (s : Stage) {feed : Feed} (listed : feed ∈ d.feeds) :
    (s.loaded d).feed? feed.id = (d.feeds.filter fun other ↦ other.id = feed.id).getLast? := by
  have kept : feed ∈ d.feeds.filter fun other ↦ other.id = feed.id :=
    List.mem_filter.2 ⟨listed, decide_eq_true rfl⟩
  rw [s.feed?_loaded, List.getLast?_eq_some_getLast (List.ne_nil_of_mem kept), Option.some_or]

/-- The reader of a definition file and all renderers come to the same verdict. -/
theorem same_verdict (content : ByteArray) (commandId : String) :
    SameVerdict content commandId where
  accepted d line held sent := by
    obtain ⟨text, -, -, passes⟩ := ofFile_eq_ok_iff.1 held
    obtain ⟨decoded, answer⟩ := answer_line sent (finite_of_check passes)
    refine ⟨decoded, fun s ↦ ⟨s.loaded d, ?_, s.activeScene_loaded d, ?_⟩⟩
    · rw [answer, Stage.dispatch_of_accepts (.load passes)]
      rfl
    · exact fun feed listed ↦ feed?_loaded_of_mem s listed
  refused text d line read decoded finite faulty sent := by
    cases fault : d.check with
    | ok _ => exact absurd fault faulty
    | error reason =>
      refine ⟨.invalid reason, ofFile_of_fault read decoded fault, fun s ↦ ?_⟩
      rw [(answer_line sent finite).2, Stage.dispatch_of_refuses (.invalid fault)]
      rfl

/-- A wall with a camera, and without one. -/
theorem same_verdict_wall :
    let corner : Vertex := ⟨.zero .single, .zero .single⟩
    let wall : Surface :=
      { Surface.plain ⟨"wall"⟩ "Wall" ⟨"camera"⟩ with vertices := [corner, corner, corner] }
    let scene : Scene := { id := ⟨"s"⟩, name := "Scene", description := "", surfaces := [wall] }
    let fed : Definition := { scene, feeds := [⟨⟨"camera"⟩, "Camera", .camera, ""⟩] }
    let dark : Definition := { scene, feeds := [] }
    let lineOf (d : Definition) : String := (Message.loading "cmd-1" d).encode
    (∃ s', Handler.stage.answer {} (lineOf fed).toUTF8 = (s', some (.ack "cmd-1")) ∧
        s'.activeScene = some scene) ∧
      ofFile (some dark.toJson.render.toUTF8) =
        .error (.invalid (.unknownFeed ⟨"wall"⟩ ⟨"camera"⟩)) ∧
        ∀ s : Stage, Handler.stage.answer s (lineOf dark).toUTF8 =
          (s, some (.error "cmd-1" "Surface 'wall' references unknown feed 'camera'.")) := by
  intro corner wall scene fed dark lineOf
  have small : (Message.loading "cmd-1" fed).Fits ∧ (Message.loading "cmd-1" dark).Fits := by
    simp only [Message.Fits, Message.utf8ByteSize_encode]
    decide +kernel
  have fault : dark.check = .error (.unknownFeed ⟨"wall"⟩ ⟨"camera"⟩) := by decide
  have finite : ∀ surface ∈ dark.scene.surfaces, ∀ v ∈ surface.vertices, v.isFinite = true := by
    decide
  have held : ofFile (some fed.toJson.render.toUTF8) = .ok fed := ofFile_render (by decide)
  obtain ⟨-, takes⟩ :=
    (same_verdict _ "cmd-1").accepted fed (lineOf fed) held (Message.line?_of_fits small.1)
  obtain ⟨s', answered, shown, -⟩ := takes {}
  obtain ⟨reason, refused, answer⟩ :=
    (same_verdict _ "cmd-1").refused _ dark (lineOf dark) (fileText_toUTF8 _) (decode_render finite)
      finite (by simp [fault]) (Message.line?_of_fits small.2)
  have same := ofFile_of_fault (fileText_toUTF8 _) (decode_render finite) fault
  cases refused.symm.trans same
  exact ⟨⟨s', answered, shown⟩, same, answer⟩

end Definition

end ShowControl
