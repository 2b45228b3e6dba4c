-- SUMMARY: Whole numbers from JSON values: numbers, truth values and numerals in strings.

import BranchTally.Json.Writer
import BranchTally.Text.Numeral

/-! # Whole numbers from JSON

Documents give line numbers in several ways. A double is cut off toward zero, a truth value counts as
zero or one, and a string is read as a numeral.
-/

namespace BranchTally

/-- Why a JSON value is no whole number. -/
inductive WholeError where
  | numeral (text : String)
  | notANumber
  | infinite
  | kind
  deriving DecidableEq

namespace Json

/-- The whole number that a value stands for. -/
def whole : Json → Except WholeError Int
  | .int n => .ok n
  | .bool b => .ok (if b then 1 else 0)
  | .float x =>
    if x.isNaN then .error .notANumber
    else if x.isInf then .error .infinite
    else .ok (Number.truncate x)
  | .str s =>
    match Text.integer? s.toList with
    | some n => .ok n
    | none => .error (.numeral s)
  | _ => .error .kind

end Json

end BranchTally
