import ShowControl.Proofs.Message.Grammar
import ShowControl.Proofs.Numeric.Order
import ShowControl.Proofs.Scene.RoundTrip

/-!
# The levels of a surface

Whatever number is asked for, the level that is set is the number of its range next to it
(`Level.amount_clamp`), and a number within the range is kept with its bits (`Level.clamp_eq_self`).

A surface comes from a plain one by changes, one that was read too (`Surface.eq_run_of_read`). A run
of changes gives each level the number that was asked for it last, and everything else what the
other changes make of it (`Surface.run_eq`): no change of a level touches the other level or a
field, and no other change touches a level. `Surface.keeps_levels` says so of every surface.
-/

namespace ShowControl

open Numeric

/-! ### Levels and numbers -/

namespace Level

variable {x y : Single}

theorem isLevel_value (l : Level) : l.value.IsLevel := Binary.inUnit_iff.1 l.inUnit

theorem clamp_eq_self (level : x.IsLevel) : (clamp x).value = x := by
  have number := level.number
  rw [clamp, if_neg (by simp [number]), dif_pos (Binary.inUnit_iff.2 level)]

theorem clamp_of_isNaN (nan : x.isNaN = true) : clamp x = least := by
  rw [clamp, if_pos nan]

/-- What is set is the number of the range that is next to what was asked for. -/
theorem amount_clamp (number : x.isNaN = false) :
    (clamp x).value.amount = max 0 (min 1 x.amount) := by
  by_cases level : x.IsLevel
  · rw [clamp_eq_self level, min_eq_right level.le_one, max_eq_right level.nonneg]
  · have outside : ¬x.inUnit = true := Binary.inUnit_iff.not.2 level
    rw [clamp, if_neg (by simp [number]), dif_neg outside]
    cases sign : x.negative with
    | true =>
      have below := Binary.amount_nonpos number sign
      rw [if_pos rfl, max_eq_left (min_le_of_right_le below)]
      exact Binary.amount_zero
    | false =>
      have nonneg := Binary.amount_nonneg number sign
      have above : 1 ≤ x.amount :=
        (le_total _ _).resolve_left fun le_one ↦ level ⟨number, nonneg, le_one⟩
      rw [if_neg (by simp), min_eq_left above, max_eq_right zero_le_one]
      exact Binary.amount_full

/-- A greater number does not set a lower level. -/
theorem clamp_mono (hx : x.isNaN = false) (hy : y.isNaN = false) (le : x.amount ≤ y.amount) :
    (clamp x).value.amount ≤ (clamp y).value.amount := by
  rw [amount_clamp hx, amount_clamp hy]
  exact max_le_max le_rfl (min_le_min le_rfl le)

/-- The level that was asked for last; the one that was there if none was. -/
def after (l : Level) (asked : List Single) : Level := asked.getLast?.elim l clamp

theorem after_append (l : Level) (first rest : List Single) :
    l.after (first ++ rest) = (l.after first).after rest := by
  rw [after, List.getLast?_append]
  cases last : rest.getLast? <;> simp [after, last]

end Level

/-- A finite number is read from the value it is written as. -/
theorem Json.measures_ofSingle {x : Single} (finite : x.isFinite = true) :
    (Json.ofSingle x).Measures x := by
  obtain ⟨sign, finite', -⟩ := widen_spec finite
  have near : Near (1 / 2 ^ 40) (Format.double.worth (x.convert .double).index)
      (Format.single.worth x.index) := by
    rw [worth_widen finite, Near, sub_self, abs_zero]
    exact mul_nonneg (by positivity) (Format.single.worth_nonneg _)
  have narrowed := convert_single_eq_of_near finite sign finite' near
  have value : Json.ofSingle x = .float (x.convert .double) := if_pos finite
  have measured := Measures.float (x.convert .double)
  rwa [narrowed, ← value] at measured

namespace Surface

/-! ### Changes -/

/-- What can be set of a surface. -/
inductive Change where
  | id (id : SurfaceId)
  | name (name : String)
  | vertices (vertices : List Vertex)
  | feed (feed : FeedId)
  | opacity (x : Single)
  | brightness (x : Single)
  | blend (blend : BlendMode)
  | zOrder (zOrder : Int32)

namespace Change

/-- The opacity that is asked for. -/
def opacity? : Change → Option Single
  | .opacity x => some x
  | _ => none

/-- The brightness that is asked for. -/
def brightness? : Change → Option Single
  | .brightness x => some x
  | _ => none

/-- A field is set, and not a level. -/
def isPlain : Change → Bool
  | .opacity _ => false
  | .brightness _ => false
  | _ => true

end Change

/-- The surface with this set. -/
def change (s : Surface) : Change → Surface
  | .id id => { s with id }
  | .name name => { s with name }
  | .vertices vertices => { s with vertices }
  | .feed feed => { s with feed }
  | .opacity x => s.setOpacity x
  | .brightness x => s.setBrightness x
  | .blend blend => { s with blend }
  | .zOrder zOrder => { s with zOrder }

/-- The surface with all of these set, one after the other. -/
def run (s : Surface) (changes : List Change) : Surface := changes.foldl change s

theorem run_append (s : Surface) (first rest : List Change) :
    s.run (first ++ rest) = (s.run first).run rest := List.foldl_append

/-- Each level is what was asked for last, and the fields are what the other changes make of
them. -/
theorem run_eq (s : Surface) (changes : List Change) :
    s.run changes =
      { s.run (changes.filter Change.isPlain) with
        opacity := s.opacity.after (changes.filterMap Change.opacity?)
        brightness := s.brightness.after (changes.filterMap Change.brightness?) } := by
  induction changes using List.reverseRecOn with
  | nil => rfl
  | append_singleton changes c ih =>
    rw [run_append, ih, List.filter_append, run_append, List.filterMap_append, Level.after_append,
      List.filterMap_append, Level.after_append]
    cases c <;> rfl

/-- A surface that is read is a plain one of which all that was read is set. -/
theorem eq_run_of_read {value : Json} {s : Surface} (read : ofJson value = .ok s) :
    ∃ members x y, value = .object members ∧ HasNumber members "opacity" x ∧
      HasNumber members "brightness" y ∧
      s = (plain s.id s.name s.feed).run
        [.vertices s.vertices, .opacity x, .brightness y, .blend s.blend, .zOrder s.zOrder] := by
  obtain ⟨members, rfl, spelled⟩ := ((decodesPart value).ok_iff s).1 read
  obtain ⟨x, opacity, hx⟩ := spelled.opacity
  obtain ⟨y, brightness, hy⟩ := spelled.brightness
  refine ⟨members, x, y, rfl, opacity, brightness, ?_⟩
  simp [run, change, setOpacity, setBrightness, plain, ← hx, ← hy]

/-! ### Written and read -/

variable {s : Surface}

/-- What a surface is written as stands for it, number by number. -/
theorem spelled_toJson (finite : ∀ v ∈ s.vertices, v.isFinite = true) :
    ∃ members, s.toJson = .object members ∧ s.Spelled members := by
  have vertex : ∀ v ∈ s.vertices, ∃ inner, v.toJson = .object inner ∧ v.Spelled inner := by
    intro v mem
    obtain ⟨x, y⟩ := Bool.and_eq_true_iff.1 (finite v mem)
    exact ⟨_, rfl, ⟨_, rfl, Json.measures_ofSingle x⟩, ⟨_, rfl, Json.measures_ofSingle y⟩⟩
  exact ⟨_, rfl, {
    id := rfl
    name := rfl
    vertices := ⟨_, rfl, List.forall₂_map_left_iff.2 (List.forall₂_same.2 vertex)⟩
    feed := rfl
    opacity := ⟨_, ⟨_, rfl, Json.measures_ofSingle s.opacity.isFinite_value⟩,
      s.opacity.clamp_value.symm⟩
    brightness := ⟨_, ⟨_, rfl, Json.measures_ofSingle s.brightness.isFinite_value⟩,
      s.brightness.clamp_value.symm⟩
    blend := rfl
    zOrder := rfl }⟩

theorem ofJson_toJson (finite : ∀ v ∈ s.vertices, v.isFinite = true) :
    ofJson s.toJson = .ok s := by
  obtain ⟨members, object, spelled⟩ := spelled_toJson finite
  exact ((decodesPart s.toJson).ok_iff s).2 ⟨members, object, spelled⟩

theorem decode_render (finite : ∀ v ∈ s.vertices, v.isFinite = true) :
    (Json.decode s.toJson.render >>= ofJson) = .ok s := by
  have text : Json.decode s.toJson.render = .ok s.toJson.reread := by
    rw [Json.decode, Json.parse?_render (s.readable.mono (by decide))]
  rw [text, ok_bind, s.ofJson_reread]
  exact checked_eq_ok_iff.2 ⟨finite_coordinates_iff.2 finite, rfl⟩

/-! ### Any surface -/

/-- Opacity and brightness are both numbers between zero and one. -/
structure InRange (s : Surface) : Prop where
  opacity : s.opacity.value.IsLevel
  brightness : s.brightness.value.IsLevel

/-- What a surface does with the levels that it is asked for. -/
structure KeepsLevels : Prop where
  /-- A surface is made with both levels at one, -/
  plain (id : SurfaceId) (name : String) (feed : FeedId) :
    (Surface.plain id name feed).opacity.value.amount = 1 ∧
      (Surface.plain id name feed).brightness.value.amount = 1
  /-- or it is read, and then it is such a surface of which the numbers that were read are set. -/
  read {value : Json} {s : Surface} : ofJson value = .ok s →
    ∃ members x y, value = .object members ∧ HasNumber members "opacity" x ∧
      HasNumber members "brightness" y ∧
      s = (Surface.plain s.id s.name s.feed).run
        [.vertices s.vertices, .opacity x, .brightness y, .blend s.blend, .zOrder s.zOrder]
  /-- Whatever is set of it, both levels are in range. -/
  range (s : Surface) (changes : List Change) : (s.run changes).InRange
  /-- Each level depends on nothing but what it was asked for, and nothing else depends on it. -/
  apart (s : Surface) (changes : List Change) :
    s.run changes =
      { s.run (changes.filter Change.isPlain) with
        opacity := s.opacity.after (changes.filterMap Change.opacity?)
        brightness := s.brightness.after (changes.filterMap Change.brightness?) }
  /-- What is set is the number of the range that is next to what was asked for. -/
  nearest (s : Surface) {x : Single} : x.isNaN = false →
    (s.setOpacity x).opacity.value.amount = max 0 (min 1 x.amount) ∧
      (s.setBrightness x).brightness.value.amount = max 0 (min 1 x.amount)
  /-- A number in range is kept with its bits, -/
  kept (s : Surface) {x : Single} : x.IsLevel →
    (s.setOpacity x).opacity.value = x ∧ (s.setBrightness x).brightness.value = x
  /-- what is no number counts as zero, -/
  nan (s : Surface) {x : Single} : x.isNaN = true →
    (s.setOpacity x).opacity.value = .zero .single ∧
      (s.setBrightness x).brightness.value = .zero .single
  /-- and a greater number sets no lower level. -/
  monotone (s : Surface) {x y : Single} : x.isNaN = false → y.isNaN = false →
    x.amount ≤ y.amount →
      (s.setOpacity x).opacity.value.amount ≤ (s.setOpacity y).opacity.value.amount ∧
        (s.setBrightness x).brightness.value.amount ≤ (s.setBrightness y).brightness.value.amount
  /-- A surface with finite vertices is read as it was written, from the value and from its text. -/
  back (s : Surface) : (∀ v ∈ s.vertices, v.isFinite = true) →
    ofJson s.toJson = .ok s ∧ (Json.decode s.toJson.render >>= ofJson) = .ok s

theorem keeps_levels : KeepsLevels where
  plain _ _ _ := ⟨Binary.amount_full, Binary.amount_full⟩
  read := eq_run_of_read
  range s changes :=
    ⟨(s.run changes).opacity.isLevel_value, (s.run changes).brightness.isLevel_value⟩
  apart := run_eq
  nearest _ _ number := ⟨Level.amount_clamp number, Level.amount_clamp number⟩
  kept _ _ level := ⟨Level.clamp_eq_self level, Level.clamp_eq_self level⟩
  nan _ _ nan := by
    simp only [setOpacity, setBrightness, Level.clamp_of_isNaN nan]
    exact ⟨rfl, rfl⟩
  monotone _ _ _ hx hy le := ⟨Level.clamp_mono hx hy le, Level.clamp_mono hx hy le⟩
  back _ finite := ⟨ofJson_toJson finite, decode_render finite⟩

end Surface

end ShowControl
