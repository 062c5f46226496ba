import Mathlib.Data.List.Basic
import ShowControl.Toml.Reader

/-!
# Integers of a configuration file

An integer of a configuration file is one of 64 bits with a sign: none that is read for a value is
outside of them (`isSigned64_of_value?`), and putting lines together into a document makes no new
values outside its tables (`isSigned64_of_parse?`). So a number that comes from a file can be
written to one.
-/

namespace ShowControl.Toml

/-- The value is no integer, or one of 64 bits with a sign. -/
def Value.IsSigned64 : Value → Prop
  | .integer n => -9223372036854775808 ≤ n ∧ n ≤ 9223372036854775807
  | _ => True

variable {text rest : Chars} {value : Value}

/-! ### Values -/

theorem isSigned64_of_signed64? {negative : Bool} {base : ℕ} {digits : List ℕ}
    (h : signed64? negative base digits = some value) : value.IsSigned64 := by
  rw [signed64?] at h
  split at h
  · next small =>
    obtain rfl := Option.some.inj h
    rw [Value.IsSigned64]
    omega
  · split at h
    · obtain rfl := Option.some.inj h
      rw [Value.IsSigned64]
      omega
    · cases h

theorem isSigned64_of_based? {base : ℕ} (h : based? base text = some (value, rest)) :
    value.IsSigned64 := by
  obtain ⟨⟨digits, text'⟩, -, h⟩ := Option.bind_eq_some_iff.1 h
  obtain ⟨value', signed, same⟩ := Option.bind_eq_some_iff.1 h
  cases same
  exact isSigned64_of_signed64? signed

theorem isSigned64_of_number? (h : number? text = some (value, rest)) : value.IsSigned64 := by
  unfold number? at h
  split at h
  · exact isSigned64_of_based? h
  · exact isSigned64_of_based? h
  · exact isSigned64_of_based? h
  · obtain ⟨negative, text'⟩ := takeSign text
    dsimp only at h
    split at h
    · cases h
      trivial
    · cases h
      trivial
    · obtain ⟨⟨digits, text'⟩, -, h⟩ := Option.bind_eq_some_iff.1 h
      dsimp only at h
      split at h
      · obtain ⟨⟨fraction, text'⟩, -, h⟩ := Option.bind_eq_some_iff.1 h
        obtain ⟨⟨exponent, text'⟩, -, h⟩ := Option.bind_eq_some_iff.1 h
        dsimp only at h
        split at h
        · cases h
        · cases h
          trivial
      · obtain ⟨⟨exponent, text'⟩, -, h⟩ := Option.bind_eq_some_iff.1 h
        split at h
        · split at h
          · cases h
          · cases h
            trivial
        · obtain ⟨value', signed, same⟩ := Option.bind_eq_some_iff.1 h
          cases same
          exact isSigned64_of_signed64? signed

/-- A value that is made of what has been taken, and never an integer. -/
theorem isSigned64_of_map {α : Type} {make : α → Value × Chars} {taken? : Option α}
    (h : taken?.map make = some (value, rest)) (other : ∀ a, (make a).1.IsSigned64) :
    value.IsSigned64 := by
  obtain ⟨a, -, same⟩ := Option.map_eq_some_iff.1 h
  have := other a
  rwa [same] at this

theorem isSigned64_of_scalar? {fuel : ℕ} (h : scalar? fuel text = some (value, rest)) :
    value.IsSigned64 := by
  unfold scalar? at h
  split at h
  case h_7 =>
    split at h
    · exact isSigned64_of_map h fun _ ↦ trivial
    · exact isSigned64_of_number? h
  all_goals exact isSigned64_of_map h fun _ ↦ trivial

theorem isSigned64_of_value? {depth fuel : ℕ} (h : value? depth fuel text = some (value, rest)) :
    value.IsSigned64 := by
  unfold value? at h
  split at h
  · cases h
  · split at h
    · cases h
    · exact isSigned64_of_map h fun _ ↦ trivial
  · split at h
    · cases h
    · split at h
      · cases h
        trivial
      · exact isSigned64_of_map h fun _ ↦ trivial
  · exact isSigned64_of_scalar? h

/-! ### Lines -/

/-- The line gives no value, or one in bounds. -/
def Statement.IsSigned64 : Statement → Prop
  | .pair _ _ value => value.IsSigned64
  | _ => True

theorem isSigned64_of_statement? {fuel : ℕ} {statement : Statement}
    (h : statement? fuel text = some (statement, rest)) : statement.IsSigned64 := by
  unfold statement? at h
  split at h
  · obtain ⟨_, -, h⟩ := Option.bind_eq_some_iff.1 h
    obtain ⟨_, -, h⟩ := Option.bind_eq_some_iff.1 h
    obtain ⟨_, -, h⟩ := Option.bind_eq_some_iff.1 h
    obtain ⟨_, -, same⟩ := Option.bind_eq_some_iff.1 h
    cases same
    trivial
  · obtain ⟨_, -, h⟩ := Option.bind_eq_some_iff.1 h
    obtain ⟨_, -, h⟩ := Option.bind_eq_some_iff.1 h
    obtain ⟨_, -, same⟩ := Option.bind_eq_some_iff.1 h
    cases same
    trivial
  · obtain ⟨_, -, h⟩ := Option.bind_eq_some_iff.1 h
    obtain ⟨_, -, h⟩ := Option.bind_eq_some_iff.1 h
    obtain ⟨⟨value, text'⟩, read, h⟩ := Option.bind_eq_some_iff.1 h
    obtain ⟨_, -, same⟩ := Option.bind_eq_some_iff.1 h
    cases same
    exact isSigned64_of_value? read

theorem isSigned64_of_statements {fuel : ℕ} {taken all : List Statement}
    (h : statements taken fuel text = some all) (before : ∀ s ∈ taken, s.IsSigned64) :
    ∀ s ∈ all, s.IsSigned64 := by
  induction fuel generalizing text taken with
  | zero => cases h
  | succ fuel ih =>
    rw [statements] at h
    split at h
    · obtain rfl := Option.some.inj h
      exact fun s here ↦ before s (List.mem_reverse.1 here)
    · split at h
      · exact ih h before
      · cases h
    · split at h
      · exact ih h before
      · split at h
        · next read => exact ih h (List.forall_mem_cons.2 ⟨isSigned64_of_statement? read, before⟩)
        · cases h

/-! ### Documents -/

/-- What stands outside all tables is in bounds. -/
def AreSigned64 (items : List (String × Item)) : Prop :=
  ∀ key value, Entries.find? key items = some (.value value) → value.IsSigned64

theorem AreSigned64.insert {items : List (String × Item)} (h : AreSigned64 items) (key : String)
    {item : Item} (new : ∀ value, item = .value value → value.IsSigned64) :
    AreSigned64 (Entries.insert key item items) := by
  intro key' value here
  rw [Entries.find?_insert] at here
  split at here
  · exact new value (Option.some.inj here)
  · exact h key' value here

/-- A change below a table is none to the values outside. -/
theorem AreSigned64.modifyAt {items items' : List (String × Item)} (h : AreSigned64 items)
    {dotted isDotted : Bool} {change : Bool → List (String × Item) → Option (List (String × Item))}
    {path : List String} (modified : Item.modifyAt dotted change path isDotted items = some items')
    (keeps : ∀ isDotted items', change isDotted items = some items' → AreSigned64 items') :
    AreSigned64 items' := by
  rcases path with _ | ⟨part, path⟩
  · exact keeps isDotted items' modified
  · rw [Item.modifyAt] at modified
    split at modified
    · obtain ⟨_, -, rfl⟩ := Option.map_eq_some_iff.1 modified
      exact h.insert part nofun
    · cases modified
    · obtain ⟨_, -, rfl⟩ := Option.map_eq_some_iff.1 modified
      exact h.insert part nofun
    · split at modified
      · cases modified
      · obtain ⟨_, -, rfl⟩ := Option.map_eq_some_iff.1 modified
        exact h.insert part nofun

theorem AreSigned64.add {d d' : Document} (h : AreSigned64 d.items) {s : Statement}
    (small : s.IsSigned64) (added : d.add s = some d') : AreSigned64 d'.items := by
  rcases s with ⟨path, key, value⟩ | ⟨path, key⟩ | ⟨path, key⟩
  · -- the value stands below the header, and there below the path of its key
    obtain ⟨items, modified, rfl⟩ := Option.map_eq_some_iff.1 added
    refine h.modifyAt modified fun _ _ paired ↦ h.modifyAt paired fun _ _ changed ↦ ?_
    split at changed
    · cases changed
    · split at changed
      · obtain rfl := Option.some.inj changed
        refine h.insert key ?_
        rintro _ ⟨⟩
        exact small
      · cases changed
  · obtain ⟨items, modified, rfl⟩ := Option.map_eq_some_iff.1 added
    refine h.modifyAt modified fun _ _ changed ↦ ?_
    rw [Item.addTable] at changed
    split at changed
    · obtain rfl := Option.some.inj changed
      exact h.insert key nofun
    · obtain rfl := Option.some.inj changed
      exact h.insert key nofun
    · cases changed
  · obtain ⟨items, modified, rfl⟩ := Option.map_eq_some_iff.1 added
    refine h.modifyAt modified fun _ _ changed ↦ ?_
    rw [Item.addArrayTable] at changed
    split at changed
    · obtain rfl := Option.some.inj changed
      exact h.insert key nofun
    · obtain rfl := Option.some.inj changed
      exact h.insert key nofun
    · cases changed

theorem AreSigned64.foldlM {d d' : Document} (h : AreSigned64 d.items) {all : List Statement}
    (small : ∀ s ∈ all, s.IsSigned64) (added : all.foldlM Document.add d = some d') :
    AreSigned64 d'.items := by
  induction all generalizing d with
  | nil =>
    cases added
    exact h
  | cons s all ih =>
    obtain ⟨first, others⟩ := List.forall_mem_cons.1 small
    rw [List.foldlM_cons] at added
    obtain ⟨next, one, rest⟩ := Option.bind_eq_some_iff.1 added
    exact ih (h.add first one) others rest

/-- An integer outside the tables of a document is one of 64 bits with a sign. -/
theorem isSigned64_of_parse? {text : String} {d : Document} (h : Document.parse? text = some d)
    {key : String} (here : d.find? key = some (.value value)) : value.IsSigned64 := by
  obtain ⟨all, read, built⟩ := Option.bind_eq_some_iff.1 h
  have small := isSigned64_of_statements read (List.forall_mem_nil _)
  have none_yet : AreSigned64 ({} : Document).items := nofun
  exact none_yet.foldlM small built key value here

end ShowControl.Toml
