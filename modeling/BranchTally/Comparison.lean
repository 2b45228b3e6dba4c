-- SUMMARY: Compares the calculated complexity of the functions of a file with the linter's scores.

import BranchTally.Breakdown
import BranchTally.Function.Extent
import BranchTally.Registry
import BranchTally.Report

/-! # Comparing a file

The boundaries of the scored functions are estimated, the points of the file extracted, and the total
of each function set against its score. The parser gets the scored functions along with the text. One
that declines the file counts as one that finds no point.
-/

namespace BranchTally

/-- Why a file cannot be compared. -/
inductive CompareError where
  | lineOutside
  | parse (error : ParseError)

/-- The mismatch of a function, if its total is not its score. -/
def mismatch? (boundaries : BoundaryMap) (points : List Point) (r : FunctionRecord) :
    Option Mismatch :=
  let breakdown := Breakdown.of r.line points 1
  if breakdown.total = r.complexity then none
  else
    some
      { name := r.name, file := r.file, line := r.line, actual := r.complexity
        calculated := breakdown.total
        points := breakdown.points.map fun p => (p.kind.tag, p.line)
        boundary := boundaries.get? r.line }

/-- Adds every function of a file to a report. -/
def Report.compare (report : Report) (boundaries : BoundaryMap) (points : List Point)
    (records : List FunctionRecord) : Report :=
  { processed := report.processed + records.length
    mismatches := report.mismatches ++ records.filterMap (mismatch? boundaries points) }

/-- Compares the functions of one file and adds them to a report. -/
def compareFile (report : Report) (source : List Char) (records : List FunctionRecord)
    (parser : SourceParser) : Except CompareError Report := do
  match functionBoundaries? (rawLines source) records with
  | none => .error .lineOutside
  | some boundaries =>
    match parser.parse ⟨⟨source, boundaries.document⟩, some records⟩ with
    | .error e => .error (.parse e)
    | .ok points => .ok (report.compare boundaries (points.getD []) records)

end BranchTally
