-- SUMMARY: The commands of the program, read from its arguments.

import BranchTally.Boundary.Document
import BranchTally.CommandLine.Options

/-! # Commands

The first argument names the command; what follows are its options. `extract` shows the points of one
file, `mismatches` compares a project with the linter, and `serve` answers requests.
-/

namespace BranchTally

/-- A command of the program. -/
inductive Command where
  | extract (file : List Char) (boundaries : List (Int × Boundary))
  | mismatches (root results output : Option (List Char)) (top : Option Int)
  | serve (host : Option (List Char)) (port : Option Int)

namespace Command

/-- Any value will do. -/
def anyValue : List Char → Bool := fun _ => true

/-- The value has to be a whole number. -/
def isWhole (s : List Char) : Bool := (Text.integer? s).isSome

/-- What `extract` takes. -/
def extractGrammar : OptionGrammar :=
  ⟨[⟨"--boundary", fun s => (parseBoundary? s).isSome⟩], true⟩

/-- What `mismatches` takes. -/
def mismatchesGrammar : OptionGrammar :=
  ⟨[⟨"--project-root", anyValue⟩, ⟨"--eslint-results", anyValue⟩, ⟨"--output", anyValue⟩,
    ⟨"--top", isWhole⟩], false⟩

/-- What `serve` takes. -/
def serveGrammar : OptionGrammar := ⟨[⟨"--host", anyValue⟩, ⟨"--port", isWhole⟩], false⟩

/-- Reads `extract`; at least one boundary has to be there. -/
def readExtract (args : List (List Char)) : Except ArgumentStop Command := do
  let a ← extractGrammar.read args
  match a.operand, (a.all "--boundary").filterMap parseBoundary? with
  | some file, b :: rest => .ok (.extract file (b :: rest))
  | _, _ => .error .misuse

/-- Reads `mismatches`. -/
def readMismatches (args : List (List Char)) : Except ArgumentStop Command := do
  let a ← mismatchesGrammar.read args
  .ok (.mismatches (a.last? "--project-root") (a.last? "--eslint-results") (a.last? "--output")
    ((a.last? "--top").bind Text.integer?))

/-- Reads `serve`. -/
def readServe (args : List (List Char)) : Except ArgumentStop Command := do
  let a ← serveGrammar.read args
  .ok (.serve (a.last? "--host") ((a.last? "--port").bind Text.integer?))

/-- Reads the arguments of the program. -/
def read : List (List Char) → Except ArgumentStop Command
  | [] => .error .misuse
  | name :: args =>
    match OptionGrammar.arguments ⟨[], false⟩ [name] with
    | [.help] => .error .help
    | [.operand name] =>
      match String.ofList name with
      | "extract" => readExtract args
      | "mismatches" => readMismatches args
      | "serve" => readServe args
      | _ => .error .misuse
    | _ => .error .misuse

end Command

end BranchTally
