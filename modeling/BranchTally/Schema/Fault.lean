-- SUMMARY: What is wrong with a field of a document, and where.

/-! # Faults of fields

A document is checked field by field, and every fault is reported with the way to its field. A field
that has a fault does not keep the others from being checked.

The checks are those of a library for documents with types, which is not part of the program. What stands
here is a stand-in for it, with the names that its documentation gives to faults.
-/

namespace BranchTally.Schema

/-- What is wrong with a value. -/
inductive FaultKind where
  | missing
  | text
  | wholeNumber
  | numeral
  | numeralSize
  | fraction
  | infinite
  | truthValue
  | truthWord
  | list
  | map
  | record
  | tooSmall
  | rule
  | json
  deriving DecidableEq

/-- The name of a kind of fault in answers. -/
def FaultKind.tag : FaultKind → String
  | .missing => "missing"
  | .text => "string_type"
  | .wholeNumber => "int_type"
  | .numeral => "int_parsing"
  | .numeralSize => "int_parsing_size"
  | .fraction => "int_from_float"
  | .infinite => "finite_number"
  | .truthValue => "bool_type"
  | .truthWord => "bool_parsing"
  | .list => "list_type"
  | .map => "dict_type"
  | .record => "model_attributes_type"
  | .tooSmall => "greater_than_equal"
  | .rule => "value_error"
  | .json => "json_invalid"

/-- A fault with the names on the way to its field. -/
structure Fault where
  path : List String
  kind : FaultKind
  deriving DecidableEq

/-- The result of a check: the value, or all faults that were found. -/
abbrev Checked (α : Type) := Except (List Fault) α

/-- A check that fails at the value itself. -/
def fail {α : Type} (kind : FaultKind) : Checked α := .error [⟨[], kind⟩]

/-- Puts a name in front of the way to every fault. -/
def within {α : Type} (name : String) (result : Checked α) : Checked α :=
  result.mapError fun faults => faults.map fun f => { f with path := name :: f.path }

/-- Both values, or the faults of both. -/
def both {α β : Type} (a : Checked α) (b : Checked β) : Checked (α × β) :=
  match a, b with
  | .ok x, .ok y => .ok (x, y)
  | .error e, .ok _ => .error e
  | .ok _, .error f => .error f
  | .error e, .error f => .error (e ++ f)

/-- All values of a list, or the faults of all. -/
def all {α : Type} : List (Checked α) → Checked (List α)
  | [] => .ok []
  | x :: rest => (both x (all rest)).map fun p => p.1 :: p.2

end BranchTally.Schema
