-- SUMMARY: Compares a whole project with the linter: from results to the sorted report.

import BranchTally.Comparison
import BranchTally.Linter.Record
import BranchTally.Linter.Run

/-! # Analysing a project

The scored functions are compared file by file. A file that no parser handles, or that cannot be read,
is left out, and its functions do not count as processed. The report has the largest differences first.
-/

namespace BranchTally

/-- Chooses the parser of a file by its path. -/
abbrev ParserChoice := String → Option SourceParser

/-- Why a project cannot be analysed. -/
inductive AnalysisError where
  | linter (error : Linter.Error)
  | records (error : RecordError)
  | compare (error : CompareError)

namespace Project

/-- Compares the functions of one file, unless the file is left out. -/
def compareGroup (p : Project) (parserFor : ParserChoice) (report : Report)
    (group : String × List FunctionRecord) : Except CompareError Report :=
  match parserFor group.1, p.sourceText group.1 with
  | some parser, .ok source => compareFile report source group.2 parser
  | _, _ => .ok report

/-- Compares functions file by file. -/
def compareAll (p : Project) (parserFor : ParserChoice) (records : List FunctionRecord) :
    Except CompareError Report :=
  ((groupByFile records).entries.foldlM (p.compareGroup parserFor) {}).map Report.sort

/-- The report on the functions that linter results score. -/
def analyze (p : Project) (parserFor : ParserChoice) (results : Json) : Except AnalysisError Report := do
  let records ← (p.functionRecords results).mapError .records
  (p.compareAll parserFor records).mapError .compare

end Project

/-- How to get at linter results: they are given, or the linter is run. -/
inductive ResultsSource where
  | given (results : Json)
  | linter (command output : List Char)

namespace FileTree

/-- The project in a directory of the tree. -/
def project (t : FileTree) (root : List Char) : Project := ⟨root, t.read⟩

/-- Analyses the project in a directory. The tree is what is left in either case. -/
def analyze (t : FileTree) (root : List Char) (parserFor : ParserChoice) (source : ResultsSource)
    (launcher : Launcher := launch) : FileTree × Except AnalysisError Report :=
  match source with
  | .given results => (t, (t.project root).analyze parserFor results)
  | .linter command output =>
    match Linter.run t root command output launcher with
    | (left, .error e) => (left, .error (.linter e))
    | (left, .ok results) => (left, (left.project root).analyze parserFor results)

end FileTree

end BranchTally
