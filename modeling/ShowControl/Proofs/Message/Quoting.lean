import ShowControl.Proofs.Json.Size
import ShowControl.Proofs.Message.Readout

/-!
# What is repeated of a bad message

The report of a fault names a field, or repeats a text of the value that should have been one of
some names. So its wording has a fixed length, but for at most one string of the value
(`Message.quotedSize_of_refused`). The fixed part is settled by the tables of the grammar, as is the
order of the faults: a table is `Brief` if no wording of its fields is longer than that.
-/

namespace ShowControl

open Json (quotedSize membersTextSize itemsTextSize quotedSize_append)

/-! ### Strings of members -/

theorem textSize_le_of_find? {key : String} {value : Json} {members : List (String × Json)}
    (h : Entries.find? key members = some value) : value.textSize ≤ membersTextSize members := by
  induction members with
  | nil => cases h
  | cons entry members ih =>
    obtain ⟨k, a⟩ := entry
    rw [Entries.find?] at h
    rw [membersTextSize]
    split at h
    · cases h
      exact Nat.le_add_right ..
    · exact (ih h).trans (Nat.le_add_left ..)

/-- The strings of two members are apart. -/
theorem textSize_add_le_of_find? {key key' : String} {value value' : Json}
    {members : List (String × Json)} (apart : key ≠ key')
    (h : Entries.find? key members = some value) (h' : Entries.find? key' members = some value') :
    value.textSize + value'.textSize ≤ membersTextSize members := by
  induction members with
  | nil => cases h
  | cons entry members ih =>
    obtain ⟨k, a⟩ := entry
    rw [Entries.find?] at h h'
    rw [membersTextSize]
    split at h
    · next here =>
      cases h
      rw [if_neg (here ▸ apart)] at h'
      have rest := textSize_le_of_find? h'
      omega
    · split at h'
      · cases h'
        have rest := textSize_le_of_find? h
        omega
      · have rest := ih h h'
        omega

theorem textSize_le_of_mem {item : Json} {items : List Json} (h : item ∈ items) :
    item.textSize ≤ itemsTextSize items := by
  rw [Json.itemsTextSize_eq]
  exact List.single_le_sum (fun _ _ ↦ Nat.zero_le _) _ (List.mem_map_of_mem h)

/-! ### Wordings of faults -/

namespace Shape

/-- The wordings that name a field take at most so many bytes. -/
def NamedBriefly (margin : ℕ) (field : String) : Prop :=
  quotedSize (DecodeError.missingField field).message ≤ margin ∧
    quotedSize (DecodeError.wrongFieldType field).message ≤ margin

instance (margin : ℕ) (field : String) : Decidable (NamedBriefly margin field) :=
  inferInstanceAs (Decidable (_ ∧ _))

mutual

/-- The wordings of all faults take at most so many bytes, besides a text that is repeated. -/
def Brief (margin : ℕ) : Shape → Prop
  | .scalar _ => True
  | .choice _ refusal => ∀ s, quotedSize (refusal s).message ≤ margin + quotedSize s
  | .optional shape => shape.Brief margin
  | .record fields => BriefIn margin fields
  | .records part fields =>
    quotedSize (DecodeError.notAnObject part).message ≤ margin ∧ BriefIn margin fields

/-- The same of a table. -/
def BriefIn (margin : ℕ) : List (String × Shape) → Prop
  | [] => True
  | (field, shape) :: fields =>
    NamedBriefly margin field ∧ shape.Brief margin ∧ BriefIn margin fields

end

/-- The strings of what stands in a field. -/
def heldTextSize : Option Json → ℕ
  | none => 0
  | some value => value.textSize

/-- A wording that repeats nothing. -/
theorem forall_singleton_le {margin n : ℕ} {fault : DecodeError}
    (short : quotedSize fault.message ≤ margin) :
    ∀ e ∈ [fault], quotedSize e.message ≤ margin + n :=
  List.forall_mem_singleton.2 (short.trans (Nat.le_add_right ..))

/-- A part adds nothing to what the faults within it repeat. -/
theorem quotedSize_partFault_le {margin : ℕ} {part : String} {fields : List (String × Shape)}
    (inside : ∀ members, ∀ e ∈ faultsIn fields members,
      quotedSize e.message ≤ margin + membersTextSize members)
    (named : quotedSize (DecodeError.notAnObject part).message ≤ margin) {value : Json} :
    ∀ e ∈ partFaults part fields value, quotedSize e.message ≤ margin + value.textSize := by
  cases value with
  | object members => exact inside members
  | _ => exact forall_singleton_le named

mutual

theorem quotedSize_fault_le {margin : ℕ} {field : String} (named : NamedBriefly margin field) :
    ∀ (shape : Shape) (value : Option Json), shape.Brief margin →
      ∀ e ∈ shape.faults field value, quotedSize e.message ≤ margin + heldTextSize value
  | .optional shape, none, _ => nofun
  | .optional shape, some value, brief => quotedSize_fault_le named shape (some value) brief
  | .scalar isKind, none, _ => forall_singleton_le named.1
  | .scalar isKind, some value, _ => by
    rw [faults]
    split
    · exact nofun
    · exact forall_singleton_le named.2
  | .choice names refusal, none, _ => forall_singleton_le named.1
  | .choice names refusal, some value, brief => by
    cases value with
    | string s =>
      rw [faults]
      split
      · exact nofun
      · exact List.forall_mem_singleton.2 (brief s)
    | _ => exact forall_singleton_le named.2
  | .record fields, none, _ => forall_singleton_le named.1
  | .record fields, some value, brief => by
    cases value with
    | object members => exact quotedSize_faultIn_le fields members brief
    | _ => exact forall_singleton_le named.2
  | .records part fields, none, _ => forall_singleton_le named.1
  | .records part fields, some value, brief => by
    cases value with
    | array items =>
      intro e listed
      rw [faults_records] at listed
      obtain ⟨item, held, listed⟩ := List.mem_flatMap.1 listed
      have inside := quotedSize_partFault_le
        (fun members ↦ quotedSize_faultIn_le fields members brief.2) brief.1 e listed
      exact inside.trans (Nat.add_le_add_left (textSize_le_of_mem held) _)
    | _ => exact forall_singleton_le named.2

theorem quotedSize_faultIn_le {margin : ℕ} :
    ∀ (fields : List (String × Shape)) (members : List (String × Json)), BriefIn margin fields →
      ∀ e ∈ faultsIn fields members, quotedSize e.message ≤ margin + membersTextSize members
  | [], members, _ => nofun
  | (field, shape) :: fields, members, ⟨named, brief, others⟩ => by
    rw [faultsIn]
    refine List.forall_mem_append.2 ⟨fun e first ↦ ?_, quotedSize_faultIn_le fields members others⟩
    have held := quotedSize_fault_le named shape _ brief e first
    refine held.trans (Nat.add_le_add_left ?_ _)
    cases found : Entries.find? field members with
    | none => exact Nat.zero_le _
    | some value => exact textSize_le_of_find? found

end

end Shape

/-! ### The tables of the grammar -/

namespace Message

/-- No wording of the grammar takes more bytes by itself. -/
def faultMargin : ℕ := 48

theorem quotedSize_repeating_le {wording : String} (short : quotedSize wording ≤ faultMargin)
    (s : String) : quotedSize (wording ++ s) ≤ faultMargin + quotedSize s :=
  (quotedSize_append wording s).trans_le (Nat.add_le_add_right short _)

/-- Wordings that name a field are short if its name is. -/
theorem namedBriefly_of_le {field : String} (short : quotedSize field ≤ 12) :
    Shape.NamedBriefly faultMargin field := by
  have missing : quotedSize "Missing required field: " = 24 := by decide +kernel
  have wrong : quotedSize "Field '" = 7 ∧ quotedSize "' has the wrong type" = 20 := by
    decide +kernel
  have whole : quotedSize ("Field '" ++ field ++ "' has the wrong type") =
      quotedSize "Field '" + quotedSize field + quotedSize "' has the wrong type" :=
    (quotedSize_append _ _).trans (congrArg (· + _) (quotedSize_append _ _))
  refine ⟨(quotedSize_append "Missing required field: " field).trans_le ?_, whole.trans_le ?_⟩
  · show _ ≤ 48
    omega
  · show _ ≤ 48
    omega

/-- The names of all fields of the grammar. -/
def fieldNames : List String :=
  ["x", "y", "id", "name", "vertices", "feedId", "opacity", "brightness", "blendMode", "zOrder",
    "description", "surfaces", "type", "configJson", "scene", "feeds", "version", "role",
    "commandId", "message", "sceneId", "surfaceId", "cueId", "payload"]

theorem namedBriefly : ∀ field ∈ fieldNames, Shape.NamedBriefly faultMargin field := by
  have short : ∀ field ∈ fieldNames, quotedSize field ≤ 12 := by decide +kernel
  exact fun field listed ↦ namedBriefly_of_le (short field listed)

theorem part_briefly : ∀ part ∈ ["vertex", "surface", "feed"],
    quotedSize (DecodeError.notAnObject part).message ≤ faultMargin := by
  decide +kernel

theorem invalidChoice_briefly {enumeration : String}
    (short : quotedSize ("Invalid " ++ enumeration ++ ": ") ≤ faultMargin) (s : String) :
    quotedSize (DecodeError.invalidChoice enumeration s).message ≤ faultMargin + quotedSize s :=
  quotedSize_repeating_le short s

theorem invalidMessageType_briefly (s : String) :
    quotedSize (DecodeError.invalidMessageType s).message ≤ faultMargin + quotedSize s :=
  quotedSize_repeating_le (by decide +kernel) s

theorem briefIn_definition : Shape.BriefIn faultMargin Definition.fields := by
  have named := namedBriefly
  have parts := part_briefly
  have blendMode := @invalidChoice_briefly "BlendMode" (by decide +kernel)
  have feedType := @invalidChoice_briefly "FeedType" (by decide +kernel)
  simp only [fieldNames, List.forall_mem_cons] at named parts
  simp only [Definition.fields, Scene.fields, Surface.fields, Vertex.fields, Feed.fields,
    Shape.BriefIn, Shape.Brief, Shape.text, Shape.number, Shape.int32, Shape.config, named, parts,
    blendMode, feedType, implies_true, and_self]

/-- All wordings of the grammar are short. -/
theorem briefIn_fields (payload : List (String × Shape))
    (brief : Shape.BriefIn faultMargin payload) : Shape.BriefIn faultMargin (fields payload) := by
  have named := namedBriefly
  simp only [fieldNames, List.forall_mem_cons] at named
  simp only [fields, Shape.BriefIn, Shape.Brief, Shape.text, named, brief,
    invalidMessageType_briefly, implies_true, and_self]

theorem briefIn_payload (type : MessageType) : Shape.BriefIn faultMargin type.fields := by
  have named := namedBriefly
  simp only [fieldNames, List.forall_mem_cons] at named
  cases type with
  | loadSceneDefinition => exact briefIn_definition
  | _ => simp only [MessageType.fields, Shape.BriefIn, Shape.Brief, Shape.text, named, and_self]

/-- What is said of a value that is no message repeats at most one of its strings. -/
theorem quotedSize_of_refused {value : Json} {e : DecodeError} (refused : ofJson value = .error e) :
    quotedSize e.message ≤ faultMargin + value.textSize := by
  have listed : e ∈ faults value :=
    List.mem_of_head? (((decodes_ofJson value).error_iff e).1 refused)
  have payload : Shape.BriefIn faultMargin (payloadFields value) := by
    rw [payloadFields]
    cases named? value with
    | some type => exact briefIn_payload type
    | none => exact trivial
  exact Shape.quotedSize_partFault_le
    (fun members ↦ Shape.quotedSize_faultIn_le _ members (briefIn_fields _ payload))
    (by decide +kernel) e listed

end Message

end ShowControl
