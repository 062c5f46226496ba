import ShowControl.Catalog

/-!
# Values of a configuration file

A configuration file is in TOML. Only strings, integers and truth values mean anything to the
programs here; of the others it is enough to know that they are well-formed and where they stand.
-/

namespace ShowControl.Toml

/-- A value. -/
inductive Value where
  | string (text : String)
  | integer (value : Int)
  | boolean (value : Bool)
  | float
  | time
  | array
  /-- A table within a line; an implicit one stands for the first parts of a key with points. -/
  | inline (implicit : Bool) (members : List (String × Value))

/-- Stores a value under a key with points, given its parts, in a table within a line. No key is
given twice, and a table is closed once it has been written out. -/
def insertInline (key : String) (value : Value) :
    List String → List (String × Value) → Option (List (String × Value))
  | [], members =>
    match Entries.find? key members with
    | none => some (Entries.insert key value members)
    | some _ => none
  | part :: path, members =>
    match Entries.find? part members with
    | none =>
      (insertInline key value path []).map fun inner ↦
        Entries.insert part (.inline true inner) members
    | some (.inline true inner) =>
      (insertInline key value path inner).map fun inner ↦
        Entries.insert part (.inline true inner) members
    | some _ => none

/-- A line of a configuration file. -/
inductive Statement where
  /-- A value under a key with points: the parts before the last, the last, and the value. -/
  | pair (path : List String) (key : String) (value : Value)
  /-- The header of a table. -/
  | table (path : List String) (key : String)
  /-- The header of one more table of an array. -/
  | arrayTable (path : List String) (key : String)

/-- What stands under a key. -/
inductive Item where
  | value (value : Value)
  /-- A table. An implicit one has no header of its own; a dotted one comes from a key with
  points. -/
  | table (implicit dotted : Bool) (items : List (String × Item))
  /-- An array of tables; only the last of them can still grow. -/
  | tables (last : List (String × Item))

namespace Item

/-- Changes the items of the table at a path, making the tables on the way that are not there yet. A
table with a header of its own is closed to keys with points. -/
def modifyAt (dotted : Bool)
    (change : Bool → List (String × Item) → Option (List (String × Item))) :
    List String → Bool → List (String × Item) → Option (List (String × Item))
  | [], isDotted, items => change isDotted items
  | part :: path, _, items =>
    match Entries.find? part items with
    | none =>
      (modifyAt dotted change path dotted []).map fun inner ↦
        Entries.insert part (.table true dotted inner) items
    | some (.value _) => none
    | some (.tables last) =>
      (modifyAt dotted change path false last).map fun inner ↦
        Entries.insert part (.tables inner) items
    | some (.table implicit isDotted inner) =>
      if dotted && !implicit then none
      else
        (modifyAt dotted change path isDotted inner).map fun inner ↦
          Entries.insert part (.table implicit isDotted inner) items

/-- Stores a value under a key that has none. -/
def addPair (path : List String) (key : String) (value : Value) (isDotted : Bool)
    (items : List (String × Item)) : Option (List (String × Item)) :=
  modifyAt true (fun isDotted items ↦
    if isDotted = path.isEmpty then none
    else
      match Entries.find? key items with
      | none => some (Entries.insert key (.value value) items)
      | some _ => none) path isDotted items

/-- Opens a table that has had no header. -/
def addTable (key : String) (items : List (String × Item)) : Option (List (String × Item)) :=
  match Entries.find? key items with
  | none => some (Entries.insert key (.table false false []) items)
  | some (.table true false inner) => some (Entries.insert key (.table false false inner) items)
  | some _ => none

/-- Opens one more table of an array. -/
def addArrayTable (key : String) (items : List (String × Item)) :
    Option (List (String × Item)) :=
  match Entries.find? key items with
  | none => some (Entries.insert key (.tables []) items)
  | some (.tables _) => some (Entries.insert key (.tables []) items)
  | some _ => none

end Item

/-- A file part of which has been read: the path of the last header and all items. -/
structure Document where
  header : List String := []
  items : List (String × Item) := []

namespace Document

/-- Goes on with one more line. -/
def add (d : Document) : Statement → Option Document
  | .pair path key value =>
    (Item.modifyAt false (fun isDotted items ↦ Item.addPair path key value isDotted items)
      d.header false d.items).map fun items ↦ { d with items }
  | .table path key =>
    (Item.modifyAt false (fun _ items ↦ Item.addTable key items) path false d.items).map
      fun items ↦ { header := path ++ [key], items }
  | .arrayTable path key =>
    (Item.modifyAt false (fun _ items ↦ Item.addArrayTable key items) path false d.items).map
      fun items ↦ { header := path ++ [key], items }

/-- The document of some lines. -/
def ofStatements? (statements : List Statement) : Option Document :=
  statements.foldlM add {}

/-- What stands under a key outside all tables. -/
def find? (d : Document) (key : String) : Option Item := Entries.find? key d.items

end Document

end ShowControl.Toml
