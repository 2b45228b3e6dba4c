-- SUMMARY: Reads the linter's results from a file.

import BranchTally.File.Tree
import BranchTally.Json.Reader

/-! # Result files

The linter leaves its results in a file: a JSON array in strict UTF-8.
-/

namespace BranchTally

/-- A fault of a JSON text with its place: line and column from one, and characters from the front. -/
structure JsonFault where
  kind : Json.FaultKind
  line : Nat
  column : Nat
  position : Nat

/-- The place of a fault that stands behind `position` characters. -/
def JsonFault.locate (kind : Json.FaultKind) (text : List Char) (position : Nat) : JsonFault :=
  let before := text.take position
  ⟨kind, before.count '\n' + 1, (before.reverse.takeWhile (· ≠ '\n')).length + 1, position⟩

/-- Why a result file cannot be used. -/
inductive ResultsError where
  | unreadable (fault : FileFault)
  | encoding
  | malformed (fault : JsonFault)
  | notAList

/-- Reads a result file. -/
def readResults (read : FileReader) (path : List Char) : Except ResultsError Json :=
  match read path with
  | .error fault => .error (.unreadable fault)
  | .ok bytes =>
    match Content.strictText? bytes with
    | none => .error .encoding
    | some text =>
      match Json.parse text with
      | .error (fault, position) => .error (.malformed (.locate fault text position))
      | .ok (.arr items) => .ok (.arr items)
      | .ok _ => .error .notAList

end BranchTally
