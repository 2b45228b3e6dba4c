-- SUMMARY: With carriage returns in front of its line feeds, a source has the names, boundaries, points and mismatches that it has without them.
import BranchTally.Proofs.Extent.Range
import BranchTally.Proofs.Layout
import BranchTally.Proofs.LineEnding.Extent
import BranchTally.Proofs.Report

/-!
# Line endings

Only the scanner drops the carriage returns at the ends of lines. The names and the boundaries of
functions are looked for in lines that keep them, and nothing that is looked for there sees them.
-/

namespace BranchTally

open Text

/-! ## Lines that end in carriage returns -/

/-- The text with a carriage return in front of each line feed. -/
def withReturns (source : List Char) : List Char :=
  source.flatMap fun c => if c = '\n' then ['\r', '\n'] else [c]

theorem withReturns_feed (source : List Char) :
    withReturns ('\n' :: source) = '\r' :: '\n' :: withReturns source := rfl

theorem withReturns_cons {c : Char} (hc : c ≠ '\n') (source : List Char) :
    withReturns (c :: source) = c :: withReturns source := by
  rw [withReturns, List.flatMap_cons, if_neg hc]
  rfl

theorem rawLines_return_feed (source : List Char) :
    rawLines ('\r' :: '\n' :: source) = ['\r'] :: rawLines source := rfl

theorem rawLines_cons {c : Char} (hc : c ≠ '\n') (source : List Char) :
    rawLines (c :: source) = (rawLines source).modifyHead (c :: ·) := by
  have hline : '\n' ∉ [c] := by simpa using Ne.symm hc
  exact rawLines_append hline source

theorem rawLines_withReturns {source : List Char} (h : '\r' ∉ source) :
    (∀ line ∈ rawLines (withReturns source), Loose line) ∧
      (rawLines (withReturns source)).map eraseReturns = rawLines source := by
  induction source with
  | nil => exact ⟨by simp [withReturns, rawLines, Loose], rfl⟩
  | cons c source ih =>
    rw [List.mem_cons, not_or] at h
    obtain ⟨hloose, herase⟩ := ih h.2
    by_cases hc : c = '\n'
    · subst hc
      rw [withReturns_feed, rawLines_return_feed]
      refine ⟨List.forall_mem_cons.2 ⟨.singleton _, hloose⟩, ?_⟩
      rw [List.map_cons, herase]
      rfl
    · rw [withReturns_cons hc, rawLines_cons hc, rawLines_cons hc, ← herase]
      obtain ⟨first, more, hlines⟩ := List.exists_cons_of_ne_nil (rawLines_ne_nil (withReturns source))
      rw [hlines] at hloose ⊢
      obtain ⟨hfirst, hmore⟩ := List.forall_mem_cons.1 hloose
      refine ⟨List.forall_mem_cons.2 ⟨hfirst.cons (Ne.symm h.1), hmore⟩, ?_⟩
      simp only [List.modifyHead_cons, List.map_cons, eraseReturns_cons (Ne.symm h.1)]

/-- The scanner sees the same lines. -/
theorem splitLines_withReturns {source : List Char} (h : '\r' ∉ source) :
    splitLines (withReturns source) = splitLines source := by
  induction source with
  | nil => rfl
  | cons c source ih =>
    rw [List.mem_cons, not_or] at h
    by_cases hc : c = '\n'
    · subst hc
      have hreturn : splitLines ('\r' :: '\n' :: withReturns source) =
          [] :: splitLines (withReturns source) := rfl
      rw [withReturns_feed, hreturn, ih h.2]
      rfl
    · have hplain : ∀ d ∈ [c], d ≠ '\n' ∧ d ≠ '\r' := by simpa using ⟨hc, Ne.symm h.1⟩
      have hcons (source : List Char) := splitLines_append hplain source
      simp only [List.singleton_append] at hcons
      rw [withReturns_cons hc, hcons, hcons, ih h.2]

/-! ## The whole of a file -/

/-- Carriage returns in front of the line feeds of a source change none of the names of its functions,
nor the boundaries that are estimated for them, nor the points within these, nor what the comparison
with the scores adds to a report. -/
theorem lineEndings_change_nothing {source : List Char} (hsource : '\r' ∉ source)
    {records : List FunctionRecord} (hrecords : ∀ r ∈ records, 1 ≤ r.line) :
    (∀ number nodeType, functionName (rawLines (withReturns source)) number nodeType =
        functionName (rawLines source) number nodeType) ∧
      ∃ boundaries, functionBoundaries? (rawLines source) records = some boundaries ∧
        functionBoundaries? (rawLines (withReturns source)) records = some boundaries ∧
        decisionPoints (withReturns source) boundaries = decisionPoints source boundaries ∧
        ∀ report, compareFile report source records lineParser =
            .ok (report.compare boundaries (decisionPoints source boundaries) records) ∧
          compareFile report (withReturns source) records lineParser =
            compareFile report source records lineParser := by
  obtain ⟨hloose, herase⟩ := rawLines_withReturns hsource
  have hpoints (m : BoundaryMap) : decisionPoints (withReturns source) m = decisionPoints source m := by
    rw [decisionPoints, decisionPoints, splitLines_withReturns hsource]
  obtain ⟨boundaries, hboundaries⟩ := exists_functionBoundaries? (rawLines source) hrecords
  have hreturns : functionBoundaries? (rawLines (withReturns source)) records = some boundaries := by
    rw [← functionBoundaries?_erase hloose, herase, hboundaries]
  refine ⟨fun number nodeType => ?_, boundaries, hboundaries, hreturns, hpoints boundaries, ?_⟩
  · rw [← functionName_erase hloose, herase]
  · intro report
    refine ⟨compareFile_eq hboundaries report, ?_⟩
    rw [compareFile_eq hreturns, compareFile_eq hboundaries, hpoints]

/-- The body of an arrow function ends on the third line, whatever the line breaks. -/
theorem lineEndings_change_nothing_arrow :
    let source := "const total = (a, b) => \x7b\n  return a && b;\n\x7d;".toList
    let arrow := Json.str "ArrowFunctionExpression"
    let records : List FunctionRecord := [⟨"total.js", 1, 3, "total", arrow, .null, ""⟩]
    let m : BoundaryMap := ⟨[(1, ⟨1, 3, by decide⟩)], by decide⟩
    '\r' ∉ source ∧ (∀ r ∈ records, 1 ≤ r.line) ∧
      functionName (rawLines (withReturns source)) 1 arrow = "total".toList ∧
      functionBoundaries? (rawLines (withReturns source)) records = some m ∧
      compareFile {} (withReturns source) records lineParser =
        .ok (Report.compare {} m (decisionPoints source m) records) := by
  intro source arrow records m
  have hsource : '\r' ∉ source := by decide
  have hrecords : ∀ r ∈ records, 1 ≤ r.line := by
    intro r hr
    obtain rfl := List.mem_singleton.1 hr
    decide
  obtain ⟨hname, boundaries, hplain, hreturns, -, hcompare⟩ :=
    lineEndings_change_nothing hsource hrecords
  have hm : functionBoundaries? (rawLines source) records = some m := by rfl
  obtain rfl : m = boundaries := Option.some.inj (hm.symm.trans hplain)
  refine ⟨hsource, hrecords, ?_, hreturns, (hcompare {}).2.trans (hcompare {}).1⟩
  rw [hname]
  decide

end BranchTally
