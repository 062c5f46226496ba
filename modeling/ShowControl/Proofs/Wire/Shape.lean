import Mathlib.Data.List.Forall2
import ShowControl.Wire.Fields

/-!
# Shapes of objects

What may stand in an object is a table: its fields in reading order, each with a `Shape`. Three
things are said of a value and such a table, none of them by reading it. `Shape.Admits`: the value
is of that shape. `Shape.faults`: all that is wrong with it, in reading order. `Shape.Alike`: it
differs from another value in nothing that the table speaks of.

A reader keeps to a table if it gives the values that a predicate describes and reports the first of
the faults (`Decodes`). Reading one thing after the other then puts the faults in a row
(`Decodes.bind`), and so does the reading of a list (`decodes_mapM`); each way to read a field is
tied to its shape once.
-/

namespace ShowControl

open Numeric

/-! ### Kinds of value -/

namespace Json

/-- A string. -/
def isText : Json → Bool
  | .string _ => true
  | _ => false

/-- A number, integer or not. -/
def isNumber : Json → Bool
  | .integer _ => true
  | .float _ => true
  | _ => false

/-- An integer of 32 bits. -/
def isInt32 : Json → Bool
  | .integer i => -2147483648 ≤ i && i ≤ 2147483647
  | _ => false

/-- A string or a container. -/
def isConfig : Json → Bool
  | .string _ => true
  | .array _ => true
  | .object _ => true
  | _ => false

end Json

/-! ### Tables -/

/-- What may stand in a field. -/
inductive Shape where
  /-- A value of a kind. -/
  | scalar (isKind : Json → Bool)
  /-- One of these strings; how another string is refused. -/
  | choice (names : List String) (refusal : String → DecodeError)
  /-- What the shape has, or nothing. -/
  | optional (shape : Shape)
  /-- An object with these fields. -/
  | record (fields : List (String × Shape))
  /-- An array of objects with these fields, each of which is called a part. -/
  | records (part : String) (fields : List (String × Shape))

namespace Shape

/-- A string. -/
def text : Shape := .scalar Json.isText

/-- A number. -/
def number : Shape := .scalar Json.isNumber

/-- An integer of 32 bits. -/
def int32 : Shape := .scalar Json.isInt32

/-- The configuration of a feed. -/
def config : Shape := .scalar Json.isConfig

/-- What stands in a field is of the shape. -/
inductive Admits : Shape → Option Json → Prop where
  | scalar {isKind : Json → Bool} {value : Json} (kind : isKind value = true) :
    Admits (.scalar isKind) (some value)
  | choice {names : List String} {refusal : String → DecodeError} {s : String}
    (listed : s ∈ names) : Admits (.choice names refusal) (some (.string s))
  | absent {shape : Shape} : Admits (.optional shape) none
  | present {shape : Shape} {value : Json} (admits : Admits shape (some value)) :
    Admits (.optional shape) (some value)
  | record {fields : List (String × Shape)} {members : List (String × Json)}
    (each : ∀ field shape, (field, shape) ∈ fields → Admits shape (Entries.find? field members)) :
    Admits (.record fields) (some (.object members))
  | records {part : String} {fields : List (String × Shape)} {items : List Json}
    (each : ∀ item ∈ items, Admits (.record fields) (some item)) :
    Admits (.records part fields) (some (.array items))

mutual

/-- All that is wrong with what stands in a field, in reading order. -/
def faults (field : String) : Shape → Option Json → List DecodeError
  | .optional _, none => []
  | _, none => [.missingField field]
  | .optional shape, some value => shape.faults field (some value)
  | .scalar isKind, some value => if isKind value then [] else [.wrongFieldType field]
  | .choice names refusal, some (.string s) => if s ∈ names then [] else [refusal s]
  | .record fields, some (.object members) => faultsIn fields members
  | .records part fields, some (.array items) =>
    items.flatMap fun
      | .object members => faultsIn fields members
      | _ => [.notAnObject part]
  | _, some _ => [.wrongFieldType field]

/-- All that is wrong with the members of an object, field by field. -/
def faultsIn : List (String × Shape) → List (String × Json) → List DecodeError
  | [], _ => []
  | (field, shape) :: fields, members =>
    shape.faults field (Entries.find? field members) ++ faultsIn fields members

end

/-- All that is wrong with a value that should be an object with these fields. -/
def partFaults (part : String) (fields : List (String × Shape)) : Json → List DecodeError
  | .object members => faultsIn fields members
  | _ => [.notAnObject part]

theorem faults_records (field part : String) (fields : List (String × Shape)) (items : List Json) :
    (records part fields).faults field (some (.array items)) =
      items.flatMap (partFaults part fields) := rfl

/-- The two differ at most in members of objects that the shape has no field for. -/
inductive Alike : Shape → Option Json → Option Json → Prop where
  | refl (shape : Shape) (value : Option Json) : Alike shape value value
  | record {fields : List (String × Shape)} {left right : List (String × Json)}
    (each : ∀ field shape, (field, shape) ∈ fields →
      Alike shape (Entries.find? field left) (Entries.find? field right)) :
    Alike (.record fields) (some (.object left)) (some (.object right))
  | records {part : String} {fields : List (String × Shape)} {left right : List Json}
    (each : ∀ i : ℕ, Alike (.record fields) left[i]? right[i]?) :
    Alike (.records part fields) (some (.array left)) (some (.array right))

/-! ### No faults -/

/-- Nothing is wrong with a part exactly if it is an object with nothing wrong in it. -/
theorem partFaults_eq_nil_iff_of {fields : List (String × Shape)}
    (inside : ∀ members, faultsIn fields members = [] ↔
      ∀ field shape, (field, shape) ∈ fields → shape.Admits (Entries.find? field members))
    (part : String) (value : Json) :
    partFaults part fields value = [] ↔ (record fields).Admits (some value) := by
  cases value with
  | object members =>
    rw [partFaults, inside]
    exact ⟨.record, fun | .record each => each⟩
  | _ => exact ⟨nofun, nofun⟩

mutual

/-- Nothing is wrong with what is of the shape, and with nothing else. -/
theorem faults_eq_nil_iff (field : String) :
    ∀ (shape : Shape) (value : Option Json), shape.faults field value = [] ↔ shape.Admits value
  | .optional shape, none => ⟨fun _ ↦ .absent, fun _ ↦ rfl⟩
  | .optional shape, some value => by
    rw [faults, faults_eq_nil_iff field shape]
    exact ⟨.present, fun | .present admits => admits⟩
  | .scalar isKind, none => ⟨nofun, nofun⟩
  | .scalar isKind, some value => by
    rw [faults]
    split
    · next kind => exact ⟨fun _ ↦ .scalar kind, fun _ ↦ rfl⟩
    · next other => exact ⟨nofun, fun | .scalar kind => absurd kind other⟩
  | .choice names refusal, none => ⟨nofun, nofun⟩
  | .choice names refusal, some value => by
    cases value with
    | string s =>
      rw [faults]
      split
      · next listed => exact ⟨fun _ ↦ .choice listed, fun _ ↦ rfl⟩
      · next unlisted => exact ⟨nofun, fun | .choice listed => absurd listed unlisted⟩
    | _ => exact ⟨nofun, nofun⟩
  | .record fields, none => ⟨nofun, nofun⟩
  | .record fields, some value => by
    cases value with
    | object members =>
      rw [faults, faultsIn_eq_nil_iff fields]
      exact ⟨.record, fun | .record each => each⟩
    | _ => exact ⟨nofun, nofun⟩
  | .records part fields, none => ⟨nofun, nofun⟩
  | .records part fields, some value => by
    cases value with
    | array items =>
      rw [faults_records, List.flatMap_eq_nil_iff]
      simp only [partFaults_eq_nil_iff_of (faultsIn_eq_nil_iff fields)]
      exact ⟨.records, fun | .records each => each⟩
    | _ => exact ⟨nofun, nofun⟩

theorem faultsIn_eq_nil_iff :
    ∀ (fields : List (String × Shape)) (members : List (String × Json)),
      faultsIn fields members = [] ↔
        ∀ field shape, (field, shape) ∈ fields → shape.Admits (Entries.find? field members)
  | [], members => ⟨fun _ _ _ ↦ nofun, fun _ ↦ rfl⟩
  | (field, shape) :: fields, members => by
    rw [faultsIn, List.append_eq_nil_iff, faults_eq_nil_iff field shape,
      faultsIn_eq_nil_iff fields]
    simp only [List.mem_cons, Prod.mk.injEq]
    constructor
    · rintro ⟨first, others⟩ field' shape' (⟨rfl, rfl⟩ | listed)
      · exact first
      · exact others field' shape' listed
    · intro all
      exact ⟨all field shape (.inl ⟨rfl, rfl⟩), fun _ _ listed ↦ all _ _ (.inr listed)⟩

end

theorem partFaults_eq_nil_iff (part : String) (fields : List (String × Shape)) (value : Json) :
    partFaults part fields value = [] ↔ (record fields).Admits (some value) :=
  partFaults_eq_nil_iff_of (faultsIn_eq_nil_iff fields) part value

end Shape

/-! ### Readers that keep to a table -/

/-- The result of a reader that gives what a predicate describes and otherwise reports the first of
some faults. -/
structure Decodes {α : Type} (result : Except DecodeError α) (faults : List DecodeError)
    (Describes : α → Prop) : Prop where
  ok_iff : ∀ a, result = .ok a ↔ Describes a
  error_iff : ∀ e, result = .error e ↔ faults.head? = some e

section Decodes

variable {α β : Type} {result : Except DecodeError α} {left right : List DecodeError}
variable {P : α → Prop} {Q : β → Prop}

theorem decodes_ok (a : α) : Decodes (.ok a) [] (a = ·) where
  ok_iff b := by rw [Except.ok.injEq]
  error_iff _ := ⟨nofun, nofun⟩

theorem decodes_error (e : DecodeError) (rest : List DecodeError) (none : ∀ a, ¬P a) :
    Decodes (.error e) (e :: rest) P where
  ok_iff a := ⟨nofun, fun described ↦ absurd described (none a)⟩
  error_iff e' := by rw [List.head?_cons, Except.error.injEq, Option.some_inj]

theorem Decodes.congr {P' : α → Prop} (h : Decodes result left P) (same : ∀ a, P a ↔ P' a) :
    Decodes result left P' where
  ok_iff a := (h.ok_iff a).trans (same a)
  error_iff := h.error_iff

/-- What is given has no faults. -/
theorem Decodes.eq_nil_iff (h : Decodes result left P) : left = [] ↔ ∃ a, result = .ok a := by
  cases left with
  | nil =>
    cases result with
    | error e => exact absurd ((h.error_iff e).1 rfl) nofun
    | ok a => exact ⟨fun _ ↦ ⟨a, rfl⟩, fun _ ↦ rfl⟩
  | cons e rest =>
    rw [(h.error_iff e).2 rfl]
    exact ⟨nofun, nofun⟩

/-- What is read second has its faults behind those of what is read first. -/
theorem Decodes.bind {read : α → Except DecodeError β} {R : α → β → Prop}
    (h : Decodes result left P) (next : ∀ a, P a → Decodes (read a) right (R a)) :
    Decodes (result >>= read) (left ++ right) fun b ↦ ∃ a, P a ∧ R a b := by
  cases result with
  | error e =>
    obtain ⟨rest, rfl⟩ := List.head?_eq_some_iff.1 ((h.error_iff e).1 rfl)
    refine decodes_error e _ ?_
    rintro b ⟨a, described, -⟩
    exact absurd ((h.ok_iff a).2 described) nofun
  | ok a =>
    obtain rfl : left = [] := h.eq_nil_iff.2 ⟨a, rfl⟩
    have described : P a := (h.ok_iff a).1 rfl
    refine (next a described).congr fun b ↦ ⟨fun read ↦ ⟨a, described, read⟩, ?_⟩
    rintro ⟨a', described', read⟩
    have same : a = a' := Except.ok.inj ((h.ok_iff a').2 described')
    exact same ▸ read

/-- Items are read one after the other. -/
theorem decodes_mapM {read : Json → Except DecodeError α} {faults : Json → List DecodeError}
    {R : Json → α → Prop} (each : ∀ item, Decodes (read item) (faults item) (R item))
    (items : List Json) :
    Decodes (items.mapM read) (items.flatMap faults) (List.Forall₂ R items) := by
  induction items with
  | nil =>
    refine (decodes_ok []).congr fun as ↦ ?_
    rw [List.forall₂_nil_left_iff, eq_comm]
  | cons item items ih =>
    rw [List.mapM_cons, List.flatMap_cons, ← List.append_nil (items.flatMap faults)]
    refine ((each item).bind fun a _ ↦ ih.bind fun as _ ↦ decodes_ok (a :: as)).congr fun all ↦ ?_
    constructor
    · rintro ⟨a, first, as, others, rfl⟩
      exact .cons first others
    · rintro (_ | ⟨first, others⟩)
      exact ⟨_, first, _, others, rfl⟩

/-! ### Fields -/

namespace Json

/-- The number of 32 bits that a value is read as. -/
inductive Measures : Json → Single → Prop where
  | integer (i : Int) : Measures (.integer i) ((Binary.ofInt .double i).convert .single)
  | float (x : Double) : Measures (.float x) (x.convert .single)

end Json

namespace Fields

variable (f : Fields) (field : String)

theorem decodes_string :
    Decodes (f.string field) (Shape.text.faults field (f.find? field))
      fun s ↦ f.find? field = some (.string s) := by
  rw [string]
  rcases f.find? field with _ | value
  · exact decodes_error _ [] fun _ ↦ nofun
  · cases value with
    | string s =>
      refine (decodes_ok s).congr fun s' ↦ ?_
      rw [Option.some_inj, Json.string.injEq]
    | _ => exact decodes_error _ [] fun _ ↦ nofun

theorem decodes_stringOrEmpty :
    Decodes (f.stringOrEmpty field) ((Shape.optional .text).faults field (f.find? field))
      fun s ↦ f.find? field = some (.string s) ∨ f.find? field = none ∧ s = "" := by
  rw [stringOrEmpty]
  rcases f.find? field with _ | value
  · refine (decodes_ok "").congr fun s ↦ ?_
    simp [eq_comm]
  · cases value with
    | string s =>
      refine (decodes_ok s).congr fun s' ↦ ?_
      simp
    | _ => exact decodes_error _ [] fun _ ↦ by simp

theorem decodes_single :
    Decodes (f.single field) (Shape.number.faults field (f.find? field))
      fun x ↦ ∃ value, f.find? field = some value ∧ value.Measures x := by
  rw [single]
  rcases f.find? field with _ | value
  · exact decodes_error _ [] fun _ ⟨_, found, _⟩ ↦ nomatch found
  · simp only [Option.some_inj, exists_eq_left']
    cases value with
    | integer i =>
      exact (decodes_ok _).congr fun x ↦ ⟨fun | rfl => .integer i, fun | .integer _ => rfl⟩
    | float y => exact (decodes_ok _).congr fun x ↦ ⟨fun | rfl => .float y, fun | .float _ => rfl⟩
    | _ => exact decodes_error _ [] fun _ ↦ nofun

theorem decodes_int32 :
    Decodes (f.int32 field) (Shape.int32.faults field (f.find? field))
      fun i ↦ f.find? field = some (.integer i.toInt) := by
  rw [int32]
  rcases f.find? field with _ | value
  · exact decodes_error _ [] fun _ ↦ nofun
  · cases value with
    | integer i =>
      simp only [Shape.int32, Shape.faults, Json.isInt32, Bool.and_eq_true, decide_eq_true_eq,
        Option.some_inj, Json.integer.injEq]
      split
      · next within =>
        refine (decodes_ok _).congr fun n ↦ ⟨?_, ?_⟩
        · rintro rfl
          exact (Int32.toInt_ofInt_of_le within.1 (by omega)).symm
        · rintro rfl
          exact Int32.ofInt_toInt n
      · next outside =>
        refine decodes_error _ [] fun n same ↦ outside ?_
        rw [same]
        exact ⟨n.minValue_le_toInt, n.toInt_le⟩
    | _ => exact decodes_error _ [] fun _ ↦ nofun

/-- The name of a choice is read. -/
theorem decodes_choice {α : Type} {ofText? : String → Option α} {text : α → String}
    {names : List String} {refusal : String → DecodeError}
    {read : String → Except DecodeError α}
    (known : ∀ s a, ofText? s = some a ↔ s = text a)
    (listed : ∀ s, s ∈ names ↔ ∃ a, s = text a)
    (reads : ∀ s, read s = match ofText? s with
      | some a => .ok a
      | none => .error (refusal s)) :
    Decodes (f.string field >>= read) ((Shape.choice names refusal).faults field (f.find? field))
      fun a ↦ f.find? field = some (.string (text a)) := by
  rw [string]
  rcases f.find? field with _ | value
  · exact decodes_error _ [] fun _ ↦ nofun
  · cases value with
    | string s =>
      show Decodes (read s) (if s ∈ names then [] else [refusal s]) _
      rw [reads]
      cases chosen : ofText? s with
      | some a =>
        have here := (known s a).1 chosen
        rw [if_pos ((listed s).2 ⟨a, here⟩)]
        refine (decodes_ok a).congr fun b ↦ ?_
        rw [Option.some_inj, Json.string.injEq, ← known, chosen, Option.some_inj]
      | none =>
        have unknown (a : α) : s ≠ text a := fun same ↦ by
          rw [(known s a).2 same] at chosen
          cases chosen
        rw [if_neg fun mem ↦ (listed s).1 mem |>.elim unknown]
        exact decodes_error _ [] fun a found ↦ unknown a (Json.string.inj (Option.some.inj found))
    | _ => exact decodes_error _ [] fun _ ↦ nofun

end Fields

/-- A reader of objects with these fields, each of which is called a part. -/
def DecodesPart {α : Type} (read : Json → Except DecodeError α) (part : String)
    (fields : List (String × Shape)) (Describes : List (String × Json) → α → Prop) : Prop :=
  ∀ value, Decodes (read value) (Shape.partFaults part fields value)
    fun a ↦ ∃ members, value = .object members ∧ Describes members a

section Parts

variable {α : Type} {read : Json → Except DecodeError α} {part : String}
variable {fields : List (String × Shape)} {R : List (String × Json) → α → Prop}

theorem decodesPart_of {body : Fields → Except DecodeError α}
    (each : ∀ members, Decodes (body ⟨members⟩) (Shape.faultsIn fields members) (R members)) :
    DecodesPart (fun value ↦ Fields.of part value >>= body) part fields R := by
  intro value
  cases value with
  | object members => exact (each members).congr fun a ↦ by simp
  | _ => exact decodes_error _ [] fun _ ⟨_, object, _⟩ ↦ nomatch object

theorem DecodesPart.of_members (h : DecodesPart read part fields R)
    (members : List (String × Json)) :
    Decodes (read (.object members)) (Shape.faultsIn fields members) (R members) :=
  (h (.object members)).congr fun a ↦ by simp

/-- A part in a field is read. -/
theorem DecodesPart.record (h : DecodesPart read part fields R) (f : Fields) (field : String) :
    Decodes (f.object field >>= read) ((Shape.record fields).faults field (f.find? field))
      fun a ↦ ∃ members, f.find? field = some (.object members) ∧ R members a := by
  rw [Fields.object]
  rcases f.find? field with _ | value
  · exact decodes_error _ [] fun _ ⟨_, found, _⟩ ↦ nomatch found
  · cases value with
    | object members => exact (h.of_members members).congr fun a ↦ by simp
    | _ => exact decodes_error _ [] fun _ ⟨_, found, _⟩ ↦ nomatch found

/-- An array of parts in a field is read. -/
theorem DecodesPart.records (h : DecodesPart read part fields R) (f : Fields) (field : String) :
    Decodes (f.array field >>= fun items ↦ items.mapM read)
      ((Shape.records part fields).faults field (f.find? field))
      fun as ↦ ∃ items, f.find? field = some (.array items) ∧
        List.Forall₂ (fun item a ↦ ∃ members, item = .object members ∧ R members a) items as := by
  rw [Fields.array]
  rcases f.find? field with _ | value
  · exact decodes_error _ [] fun _ ⟨_, found, _⟩ ↦ nomatch found
  · cases value with
    | array items => exact (decodes_mapM h items).congr fun as ↦ by simp
    | _ => exact decodes_error _ [] fun _ ⟨_, found, _⟩ ↦ nomatch found

end Parts

end Decodes

/-! ### Readers that look at nothing else -/

namespace Shape

theorem Alike.eq_of_scalar {isKind : Json → Bool} {left right : Option Json}
    (h : (scalar isKind).Alike left right) : left = right := by
  cases h
  rfl

theorem Alike.eq_of_choice {names : List String} {refusal : String → DecodeError}
    {left right : Option Json} (h : (choice names refusal).Alike left right) : left = right := by
  cases h
  rfl

theorem Alike.eq_of_optional {shape : Shape} {left right : Option Json}
    (h : (optional shape).Alike left right) : left = right := by
  cases h
  rfl

/-- Objects that are alike are alike field by field. -/
theorem Alike.members {fields : List (String × Shape)} {left right : List (String × Json)}
    (h : (Shape.record fields).Alike (some (.object left)) (some (.object right))) :
    ∀ entry ∈ fields, entry.2.Alike (Entries.find? entry.1 left) (Entries.find? entry.1 right) := by
  rintro ⟨field, shape⟩ listed
  cases h with
  | refl => exact .refl shape _
  | record each => exact each field shape listed

end Shape

/-- A reader that gives the same for objects that are alike in these fields. -/
def Heeds {α : Type} (read : Json → Except DecodeError α) (fields : List (String × Shape)) : Prop :=
  ∀ left right, (Shape.record fields).Alike (some left) (some right) → read left = read right

section Heeds

variable {α : Type} {read : Json → Except DecodeError α} {fields : List (String × Shape)}

theorem heeds_of {part : String} {body : Fields → Except DecodeError α}
    (each : ∀ left right : List (String × Json),
      (∀ entry ∈ fields,
        entry.2.Alike (Entries.find? entry.1 left) (Entries.find? entry.1 right)) →
      body ⟨left⟩ = body ⟨right⟩) :
    Heeds (fun value ↦ Fields.of part value >>= body) fields := by
  intro left right alike
  cases alike with
  | refl => rfl
  | record inside => exact each _ _ fun (field, shape) listed ↦ inside field shape listed

variable {f g : Fields} {field : String}

/-- Parts that are alike are read alike. -/
theorem Heeds.record (h : Heeds read fields)
    (alike : (Shape.record fields).Alike (f.find? field) (g.find? field)) :
    (f.object field >>= read) = (g.object field >>= read) := by
  rw [Fields.object, Fields.object]
  generalize f.find? field = left at alike
  generalize g.find? field = right at alike
  cases alike with
  | refl => rfl
  | record each => exact h _ _ (.record each)

theorem Heeds.mapM_eq (h : Heeds read fields) {left right : List Json}
    (each : ∀ i : ℕ, (Shape.record fields).Alike left[i]? right[i]?) :
    left.mapM read = right.mapM read := by
  induction left generalizing right with
  | nil =>
    cases right with
    | nil => rfl
    | cons b right => cases each 0
  | cons a left ih =>
    cases right with
    | nil => cases each 0
    | cons b right =>
      have first : read a = read b := h a b (each 0)
      have others : left.mapM read = right.mapM read := ih fun i ↦ each (i + 1)
      rw [List.mapM_cons, List.mapM_cons, first, others]

/-- Arrays of parts that are alike are read alike. -/
theorem Heeds.records {part : String} (h : Heeds read fields)
    (alike : (Shape.records part fields).Alike (f.find? field) (g.find? field)) :
    (f.array field >>= fun items ↦ items.mapM read) =
      (g.array field >>= fun items ↦ items.mapM read) := by
  rw [Fields.array, Fields.array]
  generalize f.find? field = left at alike
  generalize g.find? field = right at alike
  cases alike with
  | refl => rfl
  | records each => exact h.mapM_eq each

end Heeds

end ShowControl
