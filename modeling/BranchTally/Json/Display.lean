-- SUMMARY: The plain text of a JSON value where a text is wanted.

import BranchTally.Json.Value
import BranchTally.Number.Shortest
import BranchTally.Text.Quoted

/-! # Values as texts

Where a text is wanted and another value is given, its plain text is taken. Texts stand for themselves,
but in quotes as parts of other values.
-/

namespace BranchTally.Json

/-- A value without parts, as a part of another. -/
def scalarDisplay : Json → List Char
  | .null => "None".toList
  | .bool true => "True".toList
  | .bool false => "False".toList
  | .int n => (toString n).toList
  | .float x =>
    if x.isNaN then "nan".toList
    else if x.isInf then (if x > 0.0 then "inf".toList else "-inf".toList)
    else Number.finiteText x
  | .str s => Text.quoted s.toList
  | .arr _ | .obj _ => []

/-- Parts with commas between them. -/
def listed (parts : List (List Char)) : List Char := [',', ' '].intercalate parts

mutual

/-- A value as a part of another. -/
def innerDisplay : Json → List Char
  | .arr items => '[' :: listed (itemDisplays items) ++ [']']
  | .obj fields => '\x7b' :: listed (fieldDisplays fields) ++ ['\x7d']
  | v => scalarDisplay v

/-- The items of an array. -/
def itemDisplays : List Json → List (List Char)
  | [] => []
  | v :: rest => innerDisplay v :: itemDisplays rest

/-- The fields of an object. -/
def fieldDisplays : List (String × Json) → List (List Char)
  | [] => []
  | (name, v) :: rest => (Text.quoted name.toList ++ ':' :: ' ' :: innerDisplay v) :: fieldDisplays rest

end

/-- The plain text of a value. -/
def display : Json → List Char
  | .str s => s.toList
  | v => innerDisplay v

end BranchTally.Json
