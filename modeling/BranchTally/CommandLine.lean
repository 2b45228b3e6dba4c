-- SUMMARY: Runs a command on a tree of files: what it prints, its exit code, and the tree it leaves.

import BranchTally.Analysis
import BranchTally.CommandLine.Command
import BranchTally.Report.Document
import BranchTally.Settings

/-! # The command line

A command ends with zero when it has done its work, with one when a file or the linter is at fault,
and with two when it is misused. All else that stops it is a failure of its own.
-/

namespace BranchTally.CommandLine

/-- What a command prints and its exit code. -/
structure Outcome where
  code : Nat
  output : String := ""

/-- What stops a command without an exit code. -/
inductive Failure where
  | analysis (error : AnalysisError)
  | report (fault : FileFault)

/-- The document that `extract` prints: the points, and the totals in the order of the lines. -/
def extraction (source : List Char) (boundaries : BoundaryMap) : Json :=
  let points := decisionPoints source boundaries
  let lines := boundaries.keys.mergeSort fun a b => a ≤ b
  .obj
    [("decisionPoints", .arr (points.map Point.document)),
     ("functions", .arr (lines.map fun line => (Breakdown.of line points 1).lineDocument))]

/-- Shows the points of a file. -/
def extract (tree : FileTree) (file : List Char) (boundaries : List (Int × Boundary)) : Outcome :=
  match tree.read (Path.tidy file) with
  | .ok bytes =>
    ⟨0, (extraction (Content.text bytes) (.ofList boundaries)).pretty ++ "\n"⟩
  | .error _ => ⟨1, ""⟩

/-- An argument that is there and not empty. -/
def given? (arg : Option (List Char)) : Option (List Char) := arg.filter fun s => !s.isEmpty

/-- The report of a finished analysis, as it is printed. -/
def printed (report : Report) (top : Int) (path : List Char) : String :=
  report.summary top ++ "\nDetailed report saved to: " ++ String.ofList path ++ "\n"

/-- The outcome of an error: the linter's own errors have an exit code. -/
def failed (error : AnalysisError) : Except Failure Outcome :=
  match error with
  | .linter e => if e.message?.isSome then .ok ⟨1, ""⟩ else .error (.analysis error)
  | _ => .error (.analysis error)

/-- Where the linter results come from: a file, or the linter itself. -/
def resultsSource (settings : Settings) (tree : FileTree) (results : Option (List Char)) :
    Except AnalysisError ResultsSource :=
  match given? results with
  | some path =>
    ((readResults tree.read path).mapError fun e => .linter (.results path e)).map .given
  | none => .ok (.linter settings.linterCommand.toList settings.linterOutput.toList)

/-- Compares a project with the linter and writes the report. -/
def mismatches (settings : Settings) (tree : FileTree) (root results output : Option (List Char))
    (top : Option Int) (launcher : Launcher := launch) : FileTree × Except Failure Outcome :=
  let home := '/' :: Path.ofNames tree.home
  let root := (given? root).elim settings.projectRoot (Path.resolve home)
  let path := (given? output).elim settings.reportPath Path.tidy
  match resultsSource settings tree results with
  | .error e => (tree, failed e)
  | .ok source =>
    match tree.analyze root Registry.default.parserFor? source launcher with
    | (left, .error e) => (left, failed e)
    | (left, .ok report) =>
      match left.write path report.fileText.toUTF8 with
      | .error fault => (left, .error (.report fault))
      | .ok written => (written, .ok ⟨0, printed report (top.getD settings.topMismatches) path⟩)

/-- Runs a command. Serving is not done here. -/
def perform (settings : Settings) (tree : FileTree) (command : Command)
    (launcher : Launcher := launch) : FileTree × Except Failure Outcome :=
  match command with
  | .extract file boundaries => (tree, .ok (extract tree file boundaries))
  | .mismatches root results output top => mismatches settings tree root results output top launcher
  | .serve _ _ => (tree, .ok ⟨0, ""⟩)

/-- Runs the program with its arguments. -/
def run (settings : Settings) (tree : FileTree) (args : List (List Char))
    (launcher : Launcher := launch) : FileTree × Except Failure Outcome :=
  match Command.read args with
  | .ok command => perform settings tree command launcher
  | .error .help => (tree, .ok ⟨0, ""⟩)
  | .error .misuse => (tree, .ok ⟨2, ""⟩)

end BranchTally.CommandLine
