import ShowControl.Proofs.Json.Parsed
import ShowControl.Proofs.Message.Readout
import ShowControl.Proofs.Message.RoundTrip

/-!
# The file that a feed plays

The configuration of a feed is a text in which the path of its file stands, and on the wire that
text is a string in turn; an object may stand there as well. The path comes through all of these:
a text that holds an object says about the path what the object says (`Feed.playsFrom_of_parse?`),
and the text that an object is replaced by holds this object (`Feed.configuredBy_of_part`), since it
was read from a text itself and so can be read back.

Any part of a message will do, and the feeds of a definition are such parts
(`Feed.exists_part_of_decode`). `Feed.keeps_path` says so of every way to configure a feed.
-/

namespace ShowControl

open Json (Part Exact)

/-! ### Parts of objects -/

section Parts

variable {field : String} {members : List (String × Json)} {value piece : Json}

/-- What stands in a member stands in the object. -/
theorem Json.Part.of_find? (found : Entries.find? field members = some value)
    (inner : Part value piece) : Part (.object members) piece :=
  .member (Entries.mem_of_find? found) inner

theorem HasParts.exists_part {α : Type} {Spelled : List (String × Json) → α → Prop}
    {parts : List α} {part : α} (held : HasParts members field Spelled parts)
    (listed : part ∈ parts) :
    ∃ inner, Spelled inner part ∧ Part (.object members) (.object inner) := by
  obtain ⟨items, inner, found, mem, spelled⟩ := held.exists_item listed
  exact ⟨inner, spelled, .of_find? found (.item mem (.whole _))⟩

end Parts

namespace Feed

variable {f : Feed} {members o : List (String × Json)}

theorem ofJson_eq_ok_iff : ofJson (.object members) = .ok f ↔ f.Spelled members := by
  rw [(decodesPart (.object members)).ok_iff]
  simp

/-- The feeds of a definition are parts of the text it was read from. -/
theorem exists_part_of_decode {text : String} {m : Message} {d : Definition}
    (decoded : Message.decode text = .ok m) (loads : m.payload = .loadSceneDefinition d)
    (listed : f ∈ d.feeds) :
    ∃ whole members, Json.parse? text = some whole ∧ Part whole (.object members) ∧
      ofJson (.object members) = .ok f := by
  cases parsed : Json.parse? text with
  | none => simp [Message.decode, Json.decode, parsed, bind, Except.bind] at decoded
  | some whole =>
    have read : Message.ofJson whole = .ok m := by
      simpa [Message.decode, Json.decode, parsed] using decoded
    obtain ⟨outer, rfl, spelled⟩ := ((Message.decodes_ofJson whole).ok_iff m).1 read
    obtain ⟨payload, found, inside⟩ := spelled.payload
    rw [loads] at inside
    obtain ⟨members, spelled, part⟩ := HasParts.exists_part inside.feeds listed
    exact ⟨_, members, rfl, part.of_find? found, ofJson_eq_ok_iff.2 spelled⟩

/-! ### Configurations that hold an object -/

/-- The feed plays the file that the object names, and reports what is wrong with that member
otherwise. -/
structure PlaysFrom (f : Feed) (o : List (String × Json)) : Prop where
  path (p : String) :
    f.videoPath = .ok (some p) ↔ Entries.find? "filePath" o = some (.string p)
  missing :
    f.videoPath = .error (.missingField "filePath") ↔ Entries.find? "filePath" o = none
  wrong : f.videoPath = .error (.wrongFieldType "filePath") ↔
    ∃ value, Entries.find? "filePath" o = some value ∧ ∀ p, value ≠ .string p

theorem playsFrom_of_parse? (video : f.kind = .videoFile)
    (back : Json.parse? f.config = some (.object o)) : f.PlaysFrom o := by
  have read : f.videoPath = Fields.string ⟨o⟩ "filePath" >>= fun p ↦ .ok (some p) := by
    rw [videoPath, video, Json.decode, back]
    rfl
  rw [Fields.string, Fields.find?] at read
  cases found : Entries.find? "filePath" o with
  | none =>
    rw [found] at read
    constructor <;> simp [read, found, bind, Except.bind]
  | some value =>
    rw [found] at read
    cases value <;> constructor <;> simp [read, found, bind, Except.bind]

theorem videoPath_videoFile (id : FeedId) (name path : String) :
    (videoFile id name path).videoPath = .ok (some path) := by
  have readable : (Json.object [("filePath", .string path)]).Readable 1 :=
    .record ["filePath"] rfl (by decide) (by simp [Json.Readable.string])
  have back : Json.parse? (videoFile id name path).config =
      some (.object [("filePath", .string path)]) :=
    Json.parse?_render (readable.mono (by decide))
  exact ((playsFrom_of_parse? rfl back).path path).2 rfl

/-- The feed that was read from these members, of which one configures it by an object, is the feed
of that object in every respect. -/
structure ConfiguredBy (f : Feed) (members o : List (String × Json)) : Prop where
  /-- Its configuration is a text of the object, -/
  back : Json.parse? f.config = some (.object o)
  /-- it plays what the object says, -/
  plays : f.PlaysFrom o
  /-- and it could have been given with this text as well. -/
  given : ofJson (.object (Entries.insert "configJson" (.string f.config) members)) = .ok f

/-- The text of a configuration may stand for the object. -/
theorem Spelled.insert_config (h : f.Spelled members) :
    f.Spelled (Entries.insert "configJson" (.string f.config) members) where
  id := by
    rw [HasText, Entries.find?_insert, if_neg (by decide)]
    exact h.id
  name := by
    rw [HasText, Entries.find?_insert, if_neg (by decide)]
    exact h.name
  kind := by
    rw [HasText, Entries.find?_insert, if_neg (by decide)]
    exact h.kind
  config := ⟨_, by rw [Entries.find?_insert, if_pos rfl], .text f.config⟩

theorem configuredBy_of_part {text : String} {whole : Json} (parsed : Json.parse? text = some whole)
    (part : Part whole (.object members))
    (nested : Entries.find? "configJson" members = some (.object o)) (plain : Exact (.object o))
    (read : ofJson (.object members) = .ok f) (video : f.kind = .videoFile) :
    f.ConfiguredBy members o := by
  have spelled := ofJson_eq_ok_iff.1 read
  have config : f.config = (Json.object o).render := by
    obtain ⟨value, found, configures⟩ := spelled.config
    obtain rfl : .object o = value := Option.some.inj (nested.symm.trans found)
    generalize f.config = config at configures
    cases configures
    rfl
  have inner : Part whole (.object o) := part.trans (.of_find? nested (.whole _))
  have back : Json.parse? f.config = some (.object o) :=
    config ▸ Json.parse?_render_of_part parsed inner plain
  exact ⟨back, playsFrom_of_parse? video back, ofJson_eq_ok_iff.2 spelled.insert_config⟩

/-! ### Every way to configure a feed -/

/-- The path of a video file comes through every way of configuring a feed. -/
structure KeepsPath : Prop where
  /-- A feed that is made for a file plays this file, -/
  made (id : FeedId) (name path : String) :
    (videoFile id name path).videoPath = .ok (some path)
  /-- and an object with the path configures just this feed. -/
  object (id : FeedId) (name path : String) :
    ofJson (.object
      [("configJson", .object [("filePath", .string path)]), ("id", .string id.text),
        ("name", .string name), ("type", .string "VideoFile")]) = .ok (videoFile id name path)
  /-- It arrives with its definition, if the coordinates there can be written, -/
  sent (command : String) (d : Definition) :
    (∀ coordinate ∈ d.coordinates, coordinate.2.isFinite = true) →
      ∃ m, Message.decode (Message.loading command d).encode = .ok m
  /-- and at its place in what arrives is a feed that plays this file. -/
  arrived (command : String) (d : Definition) (m : Message) :
    Message.decode (Message.loading command d).encode = .ok m →
      ∃ d', m.payload = .loadSceneDefinition d' ∧
        ∀ (place : ℕ) (id : FeedId) (name path : String),
          d.feeds[place]? = some (videoFile id name path) →
            ∃ f, d'.feeds[place]? = some f ∧ f.id = id ∧ f.videoPath = .ok (some path)
  /-- The feeds of any definition that arrives are parts of its text, -/
  part {text : String} {m : Message} {d : Definition} {f : Feed} :
    Message.decode text = .ok m → m.payload = .loadSceneDefinition d → f ∈ d.feeds →
      ∃ whole members, Json.parse? text = some whole ∧ Part whole (.object members) ∧
        ofJson (.object members) = .ok f
  /-- and if such a part configures a feed by an object whose numbers are integers, the feed is that
  of the object. -/
  nested {text : String} {whole : Json} {members o : List (String × Json)} {f : Feed} :
    Json.parse? text = some whole → Part whole (.object members) →
      Entries.find? "configJson" members = some (.object o) → Exact (.object o) →
      ofJson (.object members) = .ok f → f.kind = .videoFile → f.ConfiguredBy members o

theorem keeps_path : KeepsPath where
  made := videoPath_videoFile
  object _ _ _ := ofJson_eq_ok_iff.2 ⟨rfl, rfl, rfl, _, rfl, .object _⟩
  sent command d finite := by
    rw [Message.decode_encode_eq_checked]
    exact ⟨_, checked_eq_ok_iff.2 ⟨finite, rfl⟩⟩
  arrived command d m decoded := by
    rw [Message.decode_encode_eq_checked] at decoded
    obtain ⟨-, rfl⟩ := checked_eq_ok_iff.1 decoded
    exact ⟨d, rfl, fun place id name path found ↦
      ⟨videoFile id name path, found, rfl, videoPath_videoFile id name path⟩⟩
  part := exists_part_of_decode
  nested := configuredBy_of_part

end Feed

end ShowControl
