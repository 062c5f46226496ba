/-!
# Catalogs: one value per key, in key order

Everything the system keeps by name (members of an object, scenes, feeds, renderers) is an
association list whose keys increase in the order of their code points, which is also the order of
their UTF-8 bytes. `Entries` holds the operations on the bare lists; `Catalog` carries the order in
its type, so that two catalogs with the same look-ups are the same catalog (`ext_find?`). What
storing and taking out do to the look-ups is said by `find?_insert` and `find?_erase`.
-/

namespace ShowControl

/-! ### Operations on entries -/

namespace Entries

variable {α : Type}

/-- The value stored under a key. -/
def find? (key : String) : List (String × α) → Option α
  | [] => none
  | (k, a) :: rest => if k = key then some a else find? key rest

/-- Stores a value, replacing the one the key had, at the place its key has in the order. -/
def insert (key : String) (value : α) : List (String × α) → List (String × α)
  | [] => [(key, value)]
  | (k, a) :: rest =>
    if key < k then (key, value) :: (k, a) :: rest
    else if k = key then (key, value) :: rest
    else (k, a) :: insert key value rest

/-- Takes a key out. -/
def erase (key : String) (entries : List (String × α)) : List (String × α) :=
  entries.filter fun entry ↦ entry.1 ≠ key

/-- The keys increase strictly. -/
def Sorted (entries : List (String × α)) : Prop :=
  entries.Pairwise fun a b ↦ a.1 < b.1

theorem fst_mem_insert {key : String} {value : α} {entries : List (String × α)}
    {entry : String × α} (h : entry ∈ insert key value entries) :
    entry.1 = key ∨ entry ∈ entries := by
  induction entries with
  | nil => exact Or.inl (by simp_all [insert])
  | cons head rest ih =>
    simp only [insert] at h
    split at h
    · rcases List.mem_cons.1 h with rfl | h
      · exact Or.inl rfl
      · exact Or.inr h
    · split at h
      · rcases List.mem_cons.1 h with rfl | h
        · exact Or.inl rfl
        · exact Or.inr (List.mem_cons_of_mem _ h)
      · rcases List.mem_cons.1 h with rfl | h
        · exact Or.inr List.mem_cons_self
        · exact (ih h).imp_right (List.mem_cons_of_mem _)

theorem Sorted.insert {entries : List (String × α)} (h : Sorted entries) (key : String)
    (value : α) : Sorted (insert key value entries) := by
  induction entries with
  | nil => exact List.pairwise_singleton _ _
  | cons head rest ih =>
    obtain ⟨before, ordered⟩ := List.pairwise_cons.1 h
    simp only [Entries.insert]
    split
    · next lt =>
      refine List.pairwise_cons.2 ⟨fun entry mem ↦ ?_, h⟩
      rcases List.mem_cons.1 mem with rfl | mem
      · exact lt
      · exact String.lt_trans lt (before entry mem)
    · next not_lt =>
      split
      · next eq => exact List.pairwise_cons.2 ⟨fun entry mem ↦ eq ▸ before entry mem, ordered⟩
      · next ne =>
        refine List.pairwise_cons.2 ⟨fun entry mem ↦ ?_, ih ordered⟩
        rcases fst_mem_insert mem with eq | mem
        · have le : head.1 ≤ key := String.not_lt.1 not_lt
          rw [eq]
          exact Std.lt_of_le_of_ne le ne
        · exact before entry mem

/-- A key above all others goes to the end. -/
theorem insert_eq_append {key : String} {value : α} {entries : List (String × α)}
    (h : ∀ entry ∈ entries, entry.1 < key) :
    insert key value entries = entries ++ [(key, value)] := by
  induction entries with
  | nil => rfl
  | cons head rest ih =>
    obtain ⟨before, others⟩ := List.forall_mem_cons.1 h
    rw [insert, if_neg (String.lt_asymm before), if_neg (Std.ne_of_lt before), ih others,
      List.cons_append]

/-- A key that is not there yet adds its entry. -/
theorem perm_insert {key : String} {value : α} {entries : List (String × α)}
    (fresh : key ∉ entries.map Prod.fst) :
    (insert key value entries).Perm ((key, value) :: entries) := by
  induction entries with
  | nil => exact .refl _
  | cons head rest ih =>
    rw [List.map_cons, List.mem_cons, not_or] at fresh
    rw [insert, if_neg (Ne.symm fresh.1)]
    split
    · exact .refl _
    · exact ((ih fresh.2).cons head).trans (.swap (key, value) head rest)

theorem Sorted.erase {entries : List (String × α)} (h : Sorted entries) (key : String) :
    Sorted (erase key entries) :=
  h.sublist List.filter_sublist

/-! ### What the operations do to the look-ups -/

theorem find?_insert (key key' : String) (value : α) (entries : List (String × α)) :
    find? key' (insert key value entries) =
      if key = key' then some value else find? key' entries := by
  induction entries with
  | nil => rfl
  | cons head rest ih =>
    rw [insert]
    split
    · rfl
    · split
      · next eq =>
        subst eq
        simp only [find?]
        split <;> rfl
      · next ne =>
        simp only [find?, ih]
        split
        · next eq =>
          subst eq
          rw [if_neg (Ne.symm ne)]
        · rfl

theorem find?_erase (key key' : String) (entries : List (String × α)) :
    find? key' (erase key entries) = if key = key' then none else find? key' entries := by
  induction entries with
  | nil => simp [erase, find?]
  | cons head rest ih =>
    rw [erase] at ih
    by_cases h : head.1 = key
    · rw [erase, List.filter_cons_of_neg (by simpa using h), ih, find?]
      split
      · rfl
      · next ne => rw [if_neg (by rw [h]; exact ne)]
    · rw [erase, List.filter_cons_of_pos (by simpa using h)]
      simp only [find?, ih]
      split
      · next eq => rw [if_neg (by rw [← eq]; exact Ne.symm h)]
      · rfl

/-- A key has no value exactly if it is not among the keys. -/
theorem find?_eq_none_iff {key : String} {entries : List (String × α)} :
    find? key entries = none ↔ key ∉ entries.map Prod.fst := by
  induction entries with
  | nil => simp [find?]
  | cons head rest ih =>
    rw [find?, List.map_cons, List.mem_cons, not_or, ← ih]
    split
    · next eq => simp [eq]
    · next ne => exact ⟨fun h ↦ ⟨Ne.symm ne, h⟩, And.right⟩

theorem mem_of_find? {key : String} {value : α} {entries : List (String × α)}
    (h : find? key entries = some value) : (key, value) ∈ entries := by
  induction entries with
  | nil => cases h
  | cons head rest ih =>
    rw [find?] at h
    split at h
    · next eq =>
      cases h
      exact eq ▸ List.mem_cons_self
    · exact List.mem_cons_of_mem _ (ih h)

theorem find?_eq_none_of_lt {key : String} {entries : List (String × α)}
    (h : ∀ entry ∈ entries, key < entry.1) : find? key entries = none :=
  find?_eq_none_iff.2 fun listed ↦ by
    obtain ⟨entry, mem, rfl⟩ := List.mem_map.1 listed
    exact String.lt_irrefl _ (h entry mem)

/-- Where the keys increase, each entry is found by its key. -/
theorem Sorted.mem_iff {entries : List (String × α)} (h : Sorted entries) {key : String}
    {value : α} : (key, value) ∈ entries ↔ find? key entries = some value := by
  induction entries with
  | nil => simp [find?]
  | cons head rest ih =>
    obtain ⟨before, ordered⟩ := List.pairwise_cons.1 h
    rw [List.mem_cons, ih ordered, find?]
    split
    · next eq =>
      subst eq
      rw [find?_eq_none_of_lt before]
      simp [Prod.ext_iff, eq_comm]
    · next ne =>
      exact ⟨fun found ↦ found.resolve_left fun eq ↦ ne (eq ▸ rfl), Or.inr⟩

/-- Sorted entries are settled by which of them there are. -/
theorem Sorted.eq_of_mem_iff {left right : List (String × α)} (hl : Sorted left)
    (hr : Sorted right) (h : ∀ entry, entry ∈ left ↔ entry ∈ right) : left = right := by
  induction left generalizing right with
  | nil =>
    cases right with
    | nil => rfl
    | cons b right => exact absurd ((h b).2 List.mem_cons_self) List.not_mem_nil
  | cons a left ih =>
    cases right with
    | nil => exact absurd ((h a).1 List.mem_cons_self) List.not_mem_nil
    | cons b right =>
      obtain ⟨beforeL, orderedL⟩ := List.pairwise_cons.1 hl
      obtain ⟨beforeR, orderedR⟩ := List.pairwise_cons.1 hr
      have eq : a = b := by
        rcases List.mem_cons.1 ((h a).1 List.mem_cons_self) with eq | inR
        · exact eq
        · rcases List.mem_cons.1 ((h b).2 List.mem_cons_self) with eq | inL
          · exact eq.symm
          · exact absurd (String.lt_trans (beforeL b inL) (beforeR a inR)) (String.lt_irrefl _)
      subst eq
      rw [ih orderedL orderedR fun entry ↦ ⟨fun mem ↦ ?_, fun mem ↦ ?_⟩]
      · refine (List.mem_cons.1 ((h entry).1 (List.mem_cons_of_mem _ mem))).resolve_left ?_
        rintro rfl
        exact String.lt_irrefl _ (beforeL _ mem)
      · refine (List.mem_cons.1 ((h entry).2 (List.mem_cons_of_mem _ mem))).resolve_left ?_
        rintro rfl
        exact String.lt_irrefl _ (beforeR _ mem)

/-- Sorted entries are settled by their look-ups. -/
theorem Sorted.ext {left right : List (String × α)} (hl : Sorted left) (hr : Sorted right)
    (h : ∀ key, find? key left = find? key right) : left = right :=
  hl.eq_of_mem_iff hr fun (key, value) ↦ by rw [hl.mem_iff, hr.mem_iff, h]

end Entries

/-! ### Catalogs -/

/-- An association list in strict key order. -/
structure Catalog (α : Type) where
  /-- The keys with their values. -/
  entries : List (String × α) := []
  sorted : Entries.Sorted entries := by exact List.Pairwise.nil

namespace Catalog

variable {α : Type}

instance [DecidableEq α] : DecidableEq (Catalog α) := fun a b ↦
  decidable_of_iff (a.entries = b.entries)
    ⟨fun h ↦ by cases a; cases b; cases h; rfl, fun h ↦ h ▸ rfl⟩

instance : EmptyCollection (Catalog α) := ⟨{}⟩

/-- The value stored under a key. -/
def find? (c : Catalog α) (key : String) : Option α := Entries.find? key c.entries

/-- Some value is stored under the key. -/
def contains (c : Catalog α) (key : String) : Bool := (c.find? key).isSome

/-- Stores a value, replacing the one the key had. -/
def insert (c : Catalog α) (key : String) (value : α) : Catalog α :=
  ⟨Entries.insert key value c.entries, c.sorted.insert key value⟩

/-- Takes a key out. -/
def erase (c : Catalog α) (key : String) : Catalog α :=
  ⟨Entries.erase key c.entries, c.sorted.erase key⟩

/-- All keys, in order. -/
def keys (c : Catalog α) : List String := c.entries.map Prod.fst

/-- All values, in the order of their keys. -/
def values (c : Catalog α) : List α := c.entries.map Prod.snd

/-- How many keys there are. -/
def size (c : Catalog α) : Nat := c.entries.length

@[simp] theorem find?_empty (key : String) : (∅ : Catalog α).find? key = none := rfl

theorem find?_insert (c : Catalog α) (key key' : String) (value : α) :
    (c.insert key value).find? key' = if key = key' then some value else c.find? key' :=
  Entries.find?_insert key key' value c.entries

@[simp] theorem find?_insert_self (c : Catalog α) (key : String) (value : α) :
    (c.insert key value).find? key = some value := by
  rw [find?_insert, if_pos rfl]

theorem find?_insert_of_ne (c : Catalog α) {key key' : String} (value : α) (h : key ≠ key') :
    (c.insert key value).find? key' = c.find? key' := by
  rw [find?_insert, if_neg h]

theorem find?_erase (c : Catalog α) (key key' : String) :
    (c.erase key).find? key' = if key = key' then none else c.find? key' :=
  Entries.find?_erase key key' c.entries

@[simp] theorem find?_erase_self (c : Catalog α) (key : String) :
    (c.erase key).find? key = none := by
  rw [find?_erase, if_pos rfl]

theorem find?_erase_of_ne (c : Catalog α) {key key' : String} (h : key ≠ key') :
    (c.erase key).find? key' = c.find? key' := by
  rw [find?_erase, if_neg h]

/-- The entries are the keys with the values found under them. -/
theorem mem_entries_iff (c : Catalog α) {key : String} {value : α} :
    (key, value) ∈ c.entries ↔ c.find? key = some value :=
  c.sorted.mem_iff

/-- The values are those that are found under some key. -/
theorem mem_values_iff (c : Catalog α) {value : α} :
    value ∈ c.values ↔ ∃ key, c.find? key = some value := by
  constructor
  · intro listed
    obtain ⟨⟨key, stored⟩, mem, rfl⟩ := List.mem_map.1 listed
    exact ⟨key, c.mem_entries_iff.1 mem⟩
  · rintro ⟨key, found⟩
    exact List.mem_map.2 ⟨(key, value), c.mem_entries_iff.2 found, rfl⟩

/-- The keys are those under which a value is found. -/
theorem mem_keys_iff (c : Catalog α) {key : String} : key ∈ c.keys ↔ (c.find? key).isSome := by
  rw [← Decidable.not_iff_not, Bool.not_eq_true, Option.isSome_eq_false_iff,
    Option.isNone_iff_eq_none]
  exact Entries.find?_eq_none_iff.symm

/-- The keys increase strictly. -/
theorem keys_sorted (c : Catalog α) : c.keys.Pairwise (· < ·) :=
  List.pairwise_map.2 c.sorted

theorem nodup_keys (c : Catalog α) : c.keys.Nodup := by
  refine c.keys_sorted.imp ?_
  rintro key _ lt rfl
  exact String.lt_irrefl key lt

/-- Two catalogs with the same look-ups are the same. -/
theorem ext_find? {c d : Catalog α} (h : ∀ key, c.find? key = d.find? key) : c = d := by
  obtain ⟨left, hl⟩ := c
  obtain ⟨right, hr⟩ := d
  have eq : left = right := hl.ext hr h
  subst eq
  rfl

/-- What was stored under a key does not matter once something else is. -/
theorem insert_insert_self (c : Catalog α) (key : String) (value value' : α) :
    (c.insert key value).insert key value' = c.insert key value' := by
  refine ext_find? fun other ↦ ?_
  rw [find?_insert, find?_insert, find?_insert]
  split <;> rfl

theorem erase_insert_self (c : Catalog α) (key : String) (value : α) :
    (c.insert key value).erase key = c.erase key := by
  refine ext_find? fun other ↦ ?_
  rw [find?_erase, find?_erase, find?_insert]
  split <;> rfl

/-- A key under which nothing is stored need not be taken out. -/
theorem erase_of_find?_eq_none {c : Catalog α} {key : String} (h : c.find? key = none) :
    c.erase key = c := by
  refine ext_find? fun other ↦ ?_
  rw [find?_erase]
  split
  · next eq => rw [← eq, h]
  · rfl

end Catalog

end ShowControl
