-- SUMMARY: A report on any run of comparisons counts every function, lists exactly those whose complexity is not their score, and has the largest differences first.
import BranchTally.Comparison
import BranchTally.Proofs.Conservation
import BranchTally.Proofs.Document
import BranchTally.Proofs.Extent.Range
import BranchTally.Proofs.Sorting

/-!
# Reports on runs of comparisons

Each comparison adds the functions of one file to the report and none of them looks at what stands there
already, so a run adds up. What is listed is then sorted by the size of the difference, and nothing else
decides the order: differences of one size stay in the order in which they were found.
-/

namespace BranchTally

/-! ## One comparison -/

/-- The line scanner always answers, with the points within the boundaries of the file. -/
theorem compareFile_eq {source : List Char} {records : List FunctionRecord} {boundaries : BoundaryMap}
    (h : functionBoundaries? (rawLines source) records = some boundaries) (report : Report) :
    compareFile report source records lineParser =
      .ok (report.compare boundaries (decisionPoints source boundaries) records) := by
  simp only [compareFile, h, lineParser, BoundaryMap.read_document, Option.getD_some]

/-- A file to be compared: its text, its scored functions, a parser, and what the parser says of it. -/
structure Comparison where
  source : List Char
  records : List FunctionRecord
  parser : SourceParser
  answer : Option (List Point)

namespace Comparison

variable (c : Comparison)

/-- The functions are reported on lines, and the parser gives its answer when it is asked about the file. -/
structure Answered : Prop where
  on_lines : ∀ r ∈ c.records, 1 ≤ r.line
  answers : ∀ boundaries, functionBoundaries? (rawLines c.source) c.records = some boundaries →
    c.parser.parse ⟨⟨c.source, boundaries.document⟩, some c.records⟩ = .ok c.answer

/-- The points that the parser finds; one that declines the file finds none. -/
def points : List Point := c.answer.getD []

/-- How many points of the function count. -/
def pointCount (r : FunctionRecord) : Nat :=
  c.points.countP fun p => (p.kind ≠ .nullish && p.kind ≠ .optionalChain) && p.owner = r.line

/-- How much the complexity of the function is above its score. -/
def difference (r : FunctionRecord) : Int := c.pointCount r + 1 - r.complexity

/-- The functions whose complexity is not their score. -/
def differing : List FunctionRecord := c.records.filter fun r => r.complexity ≠ 1 + c.pointCount r

theorem difference_ne_zero_of_mem {r : FunctionRecord} (h : r ∈ c.differing) : c.difference r ≠ 0 := by
  have hne : r.complexity ≠ 1 + c.pointCount r := by simpa using (List.mem_filter.1 h).2
  rw [difference]
  omega

/-- What is listed of a function. -/
def mismatch (r : FunctionRecord) : Mismatch where
  name := r.name
  file := r.file
  line := r.line
  actual := r.complexity
  calculated := 1 + c.pointCount r
  points := (c.points.filter fun p => p.owner = r.line).map fun p => (p.kind.tag, p.line)
  boundary := ((functionBoundaries? (rawLines c.source) c.records).getD .empty).get? r.line

theorem difference_mismatch (r : FunctionRecord) : (c.mismatch r).difference = c.difference r := by
  simp only [Mismatch.difference, mismatch, difference]
  omega

theorem magnitude_mismatch (r : FunctionRecord) :
    (c.mismatch r).magnitude = (c.difference r).natAbs := by
  rw [Mismatch.magnitude, difference_mismatch]

/-- Compares the file and adds its functions to the report. -/
def run (report : Report) : Except CompareError Report :=
  compareFile report c.source c.records c.parser

variable {c}

theorem mismatch?_eq {boundaries : BoundaryMap}
    (h : functionBoundaries? (rawLines c.source) c.records = some boundaries) (r : FunctionRecord) :
    mismatch? boundaries c.points r =
      if r.complexity ≠ 1 + c.pointCount r then some (c.mismatch r) else none := by
  have htotal : (Breakdown.of r.line c.points 1).total = 1 + c.pointCount r := total_of_one r.line c.points
  simp only [mismatch?, htotal, mismatch, h, Option.getD_some, ne_eq, ite_not, eq_comm (a := r.complexity)]
  rfl

/-- A comparison counts all functions of its file and lists the differing ones. -/
theorem Answered.run_eq (h : c.Answered) (report : Report) :
    c.run report = .ok
      { processed := report.processed + c.records.length
        mismatches := report.mismatches ++ c.differing.map c.mismatch } := by
  obtain ⟨boundaries, hboundaries⟩ := exists_functionBoundaries? (rawLines c.source) h.on_lines
  have hlisted : c.records.filterMap (mismatch? boundaries c.points) = c.differing.map c.mismatch := by
    rw [differing, ← List.filterMap_eq_filter, List.map_filterMap, funext (mismatch?_eq hboundaries)]
    refine List.filterMap_congr fun r _ => ?_
    by_cases hne : r.complexity ≠ 1 + c.pointCount r <;> simp [Option.guard, hne]
  simp only [run, compareFile, hboundaries, h.answers boundaries hboundaries]
  rw [← hlisted]
  rfl

end Comparison

/-! ## A run of comparisons -/

/-- Compares files one after the other. -/
def compareRun (report : Report) (cs : List Comparison) : Except CompareError Report :=
  cs.foldlM (fun report c => c.run report) report

/-- The functions of all files whose complexity is not their score, in the order of the comparisons. -/
def differingFunctions (cs : List Comparison) : List (Comparison × FunctionRecord) :=
  cs.flatMap fun c => c.differing.map fun r => (c, r)

/-- Comparisons add up. -/
theorem compareRun_eq {cs : List Comparison} (h : ∀ c ∈ cs, c.Answered) (report : Report) :
    compareRun report cs = .ok
      { processed := report.processed + (cs.map fun c => (c.records.length : Int)).sum
        mismatches := report.mismatches ++ (differingFunctions cs).map fun x => x.1.mismatch x.2 } := by
  induction cs generalizing report with
  | nil => simp [compareRun, differingFunctions, pure, Except.pure]
  | cons c cs ih =>
    obtain ⟨hc, hcs⟩ := List.forall_mem_cons.1 h
    rw [compareRun, List.foldlM_cons, hc.run_eq]
    refine (ih hcs _).trans ?_
    simp only [differingFunctions, List.flatMap_cons, List.map_append, List.map_map, List.map_cons,
      List.sum_cons, List.append_assoc, add_assoc]
    rfl

/-! ## The sorted report -/

/-- An entry of a report says what is to be said of a function. -/
structure Mismatch.Describes (m : Mismatch) (c : Comparison) (r : FunctionRecord) : Prop where
  name : m.name = r.name
  file : m.file = r.file
  line : m.line = r.line
  actual : m.actual = r.complexity
  difference : m.difference = c.pointCount r + 1 - r.complexity
  difference_ne_zero : m.difference ≠ 0

/-- The report is the sorted one on some comparisons, with an entry for each of `placed` in turn: the
functions whose complexity is not their score. -/
structure Report.Accounts (report : Report) (cs : List Comparison)
    (placed : List (Comparison × FunctionRecord)) : Prop where
  processed : report.processed = (cs.map fun c => (c.records.length : Int)).sum
  one_to_one : placed.Perm (differingFunctions cs)
  describes : List.Forall₂ (fun m x => m.Describes x.1 x.2) report.mismatches placed
  largest_first : report.mismatches.Pairwise fun a b => b.magnitude ≤ a.magnitude
  ties_in_order : ∀ size : Nat, (placed.filter fun x => (x.1.difference x.2).natAbs = size) =
    (differingFunctions cs).filter fun x => (x.1.difference x.2).natAbs = size

theorem describes_of_mem {cs : List Comparison} {x : Comparison × FunctionRecord}
    (h : x ∈ differingFunctions cs) : (x.1.mismatch x.2).Describes x.1 x.2 := by
  obtain ⟨c, -, hx⟩ := List.mem_flatMap.1 h
  obtain ⟨r, hr, rfl⟩ := List.mem_map.1 hx
  have hdifference := c.difference_mismatch r
  refine ⟨rfl, rfl, rfl, rfl, hdifference, ?_⟩
  rw [hdifference]
  exact c.difference_ne_zero_of_mem hr

/-- Larger differences come first. -/
def byDifference (x y : Comparison × FunctionRecord) : Bool :=
  (y.1.difference y.2).natAbs ≤ (x.1.difference x.2).natAbs

theorem byDifference_trans (x y z : Comparison × FunctionRecord) (hxy : byDifference x y = true)
    (hyz : byDifference y z = true) : byDifference x z = true :=
  largestFirst_trans (fun x : Comparison × FunctionRecord => (x.1.difference x.2).natAbs) x y z hxy hyz

theorem byDifference_total (x y : Comparison × FunctionRecord) :
    (byDifference x y || byDifference y x) = true :=
  largestFirst_total (fun x : Comparison × FunctionRecord => (x.1.difference x.2).natAbs) x y

/-- Whatever files are compared, and whatever the parsers say of them, the report that starts empty and
is sorted at the end accounts for the run. -/
theorem sorted_report_accounts {cs : List Comparison} (h : ∀ c ∈ cs, c.Answered) :
    ∃ report placed, (compareRun {} cs).map Report.sort = .ok report ∧ report.Accounts cs placed := by
  let placed := (differingFunctions cs).mergeSort byDifference
  let entry (x : Comparison × FunctionRecord) : Mismatch := x.1.mismatch x.2
  have hperm : placed.Perm (differingFunctions cs) := List.mergeSort_perm _ _
  have hsorted : placed.Pairwise fun x y => byDifference x y = true :=
    List.pairwise_mergeSort byDifference_trans byDifference_total _
  have hentries : placed.map entry =
      ((differingFunctions cs).map entry).mergeSort fun a b => b.magnitude ≤ a.magnitude := by
    refine List.map_mergeSort fun x _ y _ => ?_
    rw [byDifference, Comparison.magnitude_mismatch, Comparison.magnitude_mismatch]
  refine ⟨{ processed := (cs.map fun c => (c.records.length : Int)).sum
            mismatches := placed.map entry }, placed, ?_, rfl, hperm, ?_, ?_, fun size => ?_⟩
  · rw [compareRun_eq h, hentries]
    simp only [Except.map, Report.sort, zero_add, List.nil_append]
    rfl
  · rw [List.forall₂_map_left_iff, List.forall₂_same]
    exact fun x hx => describes_of_mem (hperm.subset hx)
  · refine List.pairwise_map.2 (hsorted.imp fun {x y} hxy => ?_)
    rw [Comparison.magnitude_mismatch, Comparison.magnitude_mismatch]
    exact of_decide_eq_true hxy
  · refine filter_mergeSort_of_ties byDifference_trans byDifference_total (fun x y hx hy => ?_) _
    rw [decide_eq_true_eq] at hx hy
    rw [byDifference, hx, hy, decide_eq_true_eq]

/-- Two files with three functions. The first file is declined, so its function is two points short; one
function of the second is one point over its score, since `??` does not count; the other is right. -/
theorem sorted_report_accounts_two_files :
    let declining : SourceParser := ⟨"declining", [".js"], fun _ => .ok none⟩
    let found : List Point := [⟨2, .ifBranch, 1⟩, ⟨2, .nullish, 1⟩, ⟨4, .conj, 4⟩]
    let finding : SourceParser := ⟨"finding", [".js"], fun _ => .ok (some found)⟩
    let first : Comparison :=
      ⟨"function a() \x7b\n\x7d".toList, [{ file := "a.js", line := 1, complexity := 3, name := "a" }],
        declining, none⟩
    let second : Comparison :=
      ⟨"function b() \x7b\n\x7d\n\nfunction c() \x7b\n\x7d".toList,
        [{ file := "b.js", line := 1, complexity := 1, name := "b" },
          { file := "b.js", line := 4, complexity := 2, name := "c" }], finding, some found⟩
    (∀ c ∈ [first, second], c.Answered) ∧
      ∃ report placed, (compareRun {} [first, second]).map Report.sort = .ok report ∧
        report.Accounts [first, second] placed ∧ report.processed = 3 ∧
        placed.Perm [(first, { file := "a.js", line := 1, complexity := 3, name := "a" }),
          (second, { file := "b.js", line := 1, complexity := 1, name := "b" })] := by
  intro declining found finding first second
  have hanswered : ∀ c ∈ [first, second], c.Answered :=
    List.forall_mem_cons.2 ⟨⟨by decide, fun _ _ => rfl⟩,
      List.forall_mem_cons.2 ⟨⟨by decide, fun _ _ => rfl⟩, nofun⟩⟩
  obtain ⟨report, placed, hrun, haccounts⟩ := sorted_report_accounts hanswered
  exact ⟨hanswered, report, placed, hrun, haccounts, haccounts.processed, haccounts.one_to_one⟩

end BranchTally
