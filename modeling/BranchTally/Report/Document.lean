-- SUMMARY: Points, boundaries, breakdowns and reports as JSON documents.

import BranchTally.Breakdown
import BranchTally.Json.Writer
import BranchTally.Report

/-! # Documents

The shape of every result that leaves the program as JSON, and the text of a report file.
-/

namespace BranchTally

/-- A point, with its tag and its name for people. -/
def Point.document (p : Point) : Json :=
  .obj [("line", .int p.line), ("type", .str p.kind.tag), ("name", .str p.name),
    ("functionLine", .int p.owner)]

/-- A boundary. -/
def Boundary.document (b : Boundary) : Json :=
  .obj [("start", .int b.start), ("end", .int b.stop)]

/-- A mismatch. -/
def Mismatch.document (m : Mismatch) : Json :=
  .obj
    [("functionName", .str m.name), ("file", .str m.file), ("line", .int m.line),
     ("actualComplexity", .int m.actual), ("calculatedTotal", .int m.calculated),
     ("difference", .int m.difference), ("decisionPointsFound", .ofNat m.points.length),
     ("decisionPoints", .arr (m.points.map fun p =>
       .obj [("type", .str p.1), ("line", .int p.2)])),
     ("boundary", match m.boundary with | some b => b.document | none => .null)]

/-- The totals of a report. -/
def Report.summaryDocument (r : Report) : Json :=
  .obj [("totalProcessed", .int r.processed), ("totalMismatches", .ofNat r.mismatchCount),
    ("accuracy", .str r.accuracy)]

/-- A report. -/
def Report.document (r : Report) : Json :=
  .obj [("summary", r.summaryDocument), ("mismatches", .arr (r.mismatches.map Mismatch.document))]

/-- The text of a report file. -/
def Report.fileText (r : Report) : String := r.document.pretty ++ "\n"

/-- The base and the counts of a breakdown, those of zero included. -/
def Breakdown.countsDocument (b : Breakdown) : Json :=
  .obj (("base", .int b.base) :: scoredKinds.map fun k => (k.tag, .ofNat (b.count k)))

/-- The total of one function with its breakdown in full and on one line. -/
def Breakdown.document (b : Breakdown) : Json :=
  .obj [("functionLine", .int b.function), ("breakdown", b.countsDocument),
    ("calculatedTotal", .int b.total), ("summary", .str b.inline)]

/-- The total of one function with its breakdown on one line. -/
def Breakdown.lineDocument (b : Breakdown) : Json :=
  .obj [("functionLine", .int b.function), ("calculatedTotal", .int b.total),
    ("summary", .str b.inline)]

end BranchTally
