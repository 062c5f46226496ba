import ShowControl.Catalog
import ShowControl.Numeric.Binary

/-!
# JSON values

A number is an integer where its text was one that 64 bits hold, and a number of 64-bit floating
point otherwise; the two are told apart, because only an integer can be a z-order. The members of
an object are kept in the order of their keys, each key once.
-/

namespace ShowControl

open Numeric (Double)

/-- A JSON value. -/
inductive Json where
  | null
  | bool (value : Bool)
  | integer (value : Int)
  | float (value : Double)
  | string (value : String)
  | array (items : List Json)
  | object (members : List (String × Json))

namespace Json

/-- The object with these members; of two with one key the later counts. -/
def ofMembers (members : List (String × Json)) : Json :=
  .object (members.foldl (fun sorted (key, value) ↦ Entries.insert key value sorted) [])

end Json

end ShowControl
