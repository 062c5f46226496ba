import ShowControl.Catalog
import ShowControl.Registry.Handshake

/-!
# The table of registered renderers

A name belongs to at most one session. A session is taken out by its id, so that the late end of an
old session cannot take out a newer one that has its name by then. While the table is closed nothing
is put in.
-/

namespace ShowControl

/-- The registration of a renderer. Ids tell sessions of one name apart. -/
structure Session (ι : Type) where
  id : ι
  name : String
  deriving DecidableEq, Repr

/-- The sessions by name. -/
structure SessionTable (ι : Type) where
  ids : Catalog ι := ∅
  isClosed : Bool := false

namespace SessionTable

variable {ι : Type} (t : SessionTable ι)

/-- The id of the session that has a name. -/
def find? (name : String) : Option ι := t.ids.find? name

/-- All sessions, in the order of their names. -/
def sessions : List (Session ι) := t.ids.entries.map fun (name, id) ↦ ⟨id, name⟩

/-- All names, in order. -/
def names : List String := t.ids.keys

/-- How many sessions there are. -/
def size : Nat := t.ids.size

/-- Lets sessions be put in. -/
def reopen : SessionTable ι := { t with isClosed := false }

/-- Puts a session in, if the table is not closed and the name is free. -/
def insert (s : Session ι) : Except HandshakeError (SessionTable ι) :=
  if t.isClosed then .error .shuttingDown
  else if t.ids.contains s.name then .error .nameInUse
  else .ok { t with ids := t.ids.insert s.name s.id }

/-- Takes a session out, if it is the one that has its name; tells whether it was. -/
def remove [DecidableEq ι] (s : Session ι) : SessionTable ι × Bool :=
  if t.find? s.name = some s.id then ({ t with ids := t.ids.erase s.name }, true) else (t, false)

/-- Closes the table and takes all sessions out. -/
def closeAndDrain : SessionTable ι × List (Session ι) :=
  ({ ids := ∅, isClosed := true }, t.sessions)

/-! ### What the operations do to the look-ups -/

@[simp] theorem find?_reopen (name : String) : t.reopen.find? name = t.find? name := rfl

/-- A session is put in exactly if the table is not closed and the name is free. -/
theorem insert_eq_ok_iff {t t' : SessionTable ι} {s : Session ι} :
    t.insert s = .ok t' ↔
      t.isClosed = false ∧ t.find? s.name = none ∧
        t' = { t with ids := t.ids.insert s.name s.id } := by
  unfold insert
  cases t.isClosed with
  | true => simp
  | false =>
    cases found : t.find? s.name with
    | none => simp [Catalog.contains, show t.ids.find? s.name = none from found, eq_comm]
    | some id => simp [Catalog.contains, show t.ids.find? s.name = some id from found]

/-- A session that has been put in is found by its name, and no other look-up changes. -/
theorem find?_insert {t t' : SessionTable ι} {s : Session ι} (h : t.insert s = .ok t')
    (name : String) : t'.find? name = if s.name = name then some s.id else t.find? name := by
  obtain ⟨-, -, rfl⟩ := insert_eq_ok_iff.1 h
  exact t.ids.find?_insert s.name name s.id

/-- A session is taken out exactly if it is the one that has its name. -/
theorem remove_snd_iff [DecidableEq ι] (s : Session ι) :
    (t.remove s).2 = true ↔ t.find? s.name = some s.id := by
  unfold remove
  split <;> simp [*]

theorem find?_remove [DecidableEq ι] (s : Session ι) (name : String) :
    (t.remove s).1.find? name =
      if s.name = name ∧ t.find? name = some s.id then none else t.find? name := by
  unfold remove
  split
  · next here =>
    show (t.ids.erase s.name).find? name = _
    rw [Catalog.find?_erase]
    split
    · next eq => rw [if_pos ⟨eq, eq ▸ here⟩]
    · next ne =>
      rw [if_neg (not_and_of_not_left _ ne)]
      rfl
  · next gone => rw [if_neg fun ⟨eq, here⟩ ↦ gone (eq ▸ here)]

/-- A session that is put in and taken out at once leaves nothing behind. -/
theorem remove_of_insert [DecidableEq ι] {t t' : SessionTable ι} {s : Session ι}
    (h : t.insert s = .ok t') : (t'.remove s).1 = t := by
  have session := find?_insert h s.name
  rw [if_pos rfl] at session
  obtain ⟨-, free, rfl⟩ := insert_eq_ok_iff.1 h
  rw [remove, if_pos session, Catalog.erase_insert_self, Catalog.erase_of_find?_eq_none free]

@[simp] theorem find?_closeAndDrain (name : String) : t.closeAndDrain.1.find? name = none := rfl

/-- The names are those that are found. -/
theorem mem_names_iff {name : String} : name ∈ t.names ↔ (t.find? name).isSome :=
  t.ids.mem_keys_iff

/-- The sessions are those that are found by their names. -/
theorem mem_sessions_iff {s : Session ι} : s ∈ t.sessions ↔ t.find? s.name = some s.id := by
  rw [sessions, List.mem_map, find?, ← t.ids.mem_entries_iff]
  constructor
  · rintro ⟨⟨name, id⟩, mem, rfl⟩
    exact mem
  · intro mem
    exact ⟨(s.name, s.id), mem, rfl⟩

/-- While the table is not closed the names settle whether a session is put in. -/
theorem insert_of_mem {s : Session ι} (open_table : t.isClosed = false) (taken : s.name ∈ t.names) :
    t.insert s = .error .nameInUse := by
  have known : t.ids.contains s.name = true := t.mem_names_iff.1 taken
  simp [insert, open_table, known]

theorem insert_of_not_mem {s : Session ι} (open_table : t.isClosed = false)
    (free : s.name ∉ t.names) :
    t.insert s = .ok { t with ids := t.ids.insert s.name s.id } := by
  rw [mem_names_iff, Bool.not_eq_true, Option.isSome_eq_false_iff,
    Option.isNone_iff_eq_none] at free
  exact insert_eq_ok_iff.2 ⟨open_table, free, rfl⟩

/-- Whether a session is put in depends on the look-up of its name, and on whether the table is
closed. -/
theorem insert_congr {t t' : SessionTable ι} {s : Session ι} (closed : t'.isClosed = t.isClosed)
    (same : t'.find? s.name = t.find? s.name) :
    t'.insert s = (t.insert s).map fun _ ↦ { t' with ids := t'.ids.insert s.name s.id } := by
  have known : t'.ids.contains s.name = t.ids.contains s.name := congrArg Option.isSome same
  rw [insert, insert, closed, known]
  split
  · rfl
  · split <;> rfl

theorem names_sorted : t.names.Pairwise (· < ·) := t.ids.keys_sorted

theorem size_eq : t.size = t.names.length := by
  rw [size, names, Catalog.size, Catalog.keys, List.length_map]

end SessionTable

end ShowControl
