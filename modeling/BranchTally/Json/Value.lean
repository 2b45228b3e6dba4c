-- SUMMARY: JSON documents as values, with objects in the order of their names.

/-! # JSON values

Whole numbers are kept apart from the others, because they have no size limit. The fields of an
object keep the order in which their names first came.
-/

namespace BranchTally

/-- A JSON document. -/
inductive Json where
  | null
  | bool (value : Bool)
  | int (value : Int)
  | float (value : Float)
  | str (value : String)
  | arr (items : List Json)
  | obj (fields : List (String × Json))
  deriving Inhabited

namespace Json

/-- Sets a field: a known name keeps its place and takes the new value. -/
def putField (name : String) (value : Json) : List (String × Json) → List (String × Json)
  | [] => [(name, value)]
  | (n, v) :: rest => if n = name then (n, value) :: rest else (n, v) :: putField name value rest

/-- The value of a field of an object. -/
def field? (name : String) : Json → Option Json
  | .obj fields => (fields.find? fun f => f.1 = name).map (·.2)
  | _ => none

/-- A whole number as a value. -/
def ofNat (n : Nat) : Json := .int n

end Json

end BranchTally
