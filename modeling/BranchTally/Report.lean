-- SUMMARY: The functions whose calculated complexity differs from the score of the linter.

import BranchTally.Boundary
import BranchTally.Number.Fixed

/-! # Mismatch reports

A report counts the functions that were compared and lists those whose calculated complexity is not
the score. Sorted, the largest differences come first.
-/

namespace BranchTally

/-! ## Mismatches -/

/-- A function whose calculated complexity differs from its score. Its points are kept by tag and
line. -/
structure Mismatch where
  name : String
  file : String
  line : Int
  actual : Int
  calculated : Int
  points : List (String × Int) := []
  boundary : Option Boundary := none
  deriving DecidableEq

/-- How much the calculated complexity is above the score. -/
def Mismatch.difference (m : Mismatch) : Int := m.calculated - m.actual

/-- The size of the difference. -/
def Mismatch.magnitude (m : Mismatch) : Nat := m.difference.natAbs

/-! ## Reports -/

/-- How many functions were compared, and which of them differ. -/
structure Report where
  processed : Int := 0
  mismatches : List Mismatch := []

namespace Report

/-- The number of mismatches. -/
def mismatchCount (r : Report) : Nat := r.mismatches.length

/-- Adds a mismatch without counting a function. -/
def add (r : Report) (m : Mismatch) : Report := { r with mismatches := r.mismatches ++ [m] }

/-- The report with the largest differences first; equal ones keep their order. -/
def sort (r : Report) : Report :=
  { r with mismatches := r.mismatches.mergeSort fun a b => b.magnitude ≤ a.magnitude }

/-- The share of functions that agree, in percent with two places. -/
def accuracy (r : Report) : String :=
  if r.processed = 0 then "100.00%"
  else Number.fixedText 2 ((1.0 - Number.quotient r.mismatchCount r.processed) * 100.0) ++ "%"

/-- The share of functions that differ, in percent with one place. -/
def mismatchShare (r : Report) : String :=
  if r.processed = 0 then "0.0"
  else Number.fixedText 1 (Number.quotient r.mismatchCount r.processed * 100.0)

/-! ## Summary -/

/-- The first `top` mismatches; a negative number leaves out so many at the end. -/
def top (r : Report) (count : Int) : List Mismatch :=
  r.mismatches.take (if 0 ≤ count then count.toNat else (count + r.mismatches.length).toNat)

end Report

/-- The lines that show a mismatch at a place of the list. -/
def Mismatch.summary (place : Nat) (m : Mismatch) : List String :=
  let sign := if 0 < m.difference then "+" else ""
  let types := m.points.map fun p => p.1 ++ "@" ++ toString p.2
  [toString place ++ ". " ++ m.name ++ " (" ++ m.file ++ ":" ++ toString m.line ++ ")",
   "   ESLint: " ++ toString m.actual ++ ", Calculated: " ++ toString m.calculated ++
     ", Difference: " ++ sign ++ toString m.difference,
   "   Decision Points Found: " ++ toString m.points.length] ++
    (if types.isEmpty then [] else ["   Types: " ++ ", ".intercalate types]) ++
    (match m.boundary with
      | some b => ["   Boundary: lines " ++ toString b.start ++ "-" ++ toString b.stop]
      | none => []) ++
    [""]

/-- The summaries of mismatches, counted from `place` on. -/
def summaries (place : Nat) : List Mismatch → List String
  | [] => []
  | m :: rest => m.summary place ++ summaries (place + 1) rest

/-- The text that shows a report with its `top` largest mismatches. -/
def Report.summary (r : Report) (top : Int) : String :=
  "\n".intercalate
    (["AST PARSER MISMATCH ANALYSIS", "",
      "Total Functions Processed: " ++ toString r.processed,
      "Total Mismatches: " ++ toString r.mismatchCount ++ " (" ++ r.mismatchShare ++ "%)", "",
      "Top " ++ toString top ++ " Largest Mismatches:", ""] ++
      summaries 1 (r.top top))

end BranchTally
