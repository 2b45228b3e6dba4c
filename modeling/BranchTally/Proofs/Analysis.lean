-- SUMMARY: A project is analysed as if the results for files that have no parser or cannot be read had not been given.
import BranchTally.Analysis
import BranchTally.Proofs.Linter.Record
import BranchTally.Proofs.PlainLine
import BranchTally.Proofs.Report

/-!
# Files that are left out

The functions of a file that is left out have been named, put among all others and sorted with them before
the file is given up. None of this shows: the groups of the other files are the same without them, in the
same order, and the report counts the functions of those groups only.
-/

namespace BranchTally

/-! ## Parsers that answer -/

/-- The parser gives an answer, whatever text, boundaries and records it is asked about. -/
def SourceParser.Answers (parser : SourceParser) : Prop :=
  ∀ source (boundaries : BoundaryMap) records,
    ∃ answer, parser.parse ⟨⟨source, boundaries.document⟩, some records⟩ = .ok answer

theorem answers_lineParser : lineParser.Answers := by
  intro source boundaries records
  refine ⟨some (decisionPoints source boundaries), ?_⟩
  simp only [lineParser, BoundaryMap.read_document]

theorem answers_of_parserFor?_default {file : String} {parser : SourceParser}
    (h : Registry.default.parserFor? file = some parser) : parser.Answers := by
  have hparsers : Registry.default.parsers.entries =
      [("javascript", lineParser), ("typescript", lineParser)] := by rfl
  obtain ⟨language, -, h⟩ := Option.bind_eq_some_iff.1 h
  have hmem := (OrderedMap.get?_eq_some_iff _ _ _).1 h
  simp only [hparsers, List.mem_cons, Prod.mk.injEq, List.not_mem_nil, or_false] at hmem
  obtain rfl : parser = lineParser := hmem.elim And.right And.right
  exact answers_lineParser

/-- A comparison gives a report, which counts all functions of the file. -/
theorem exists_compareFile {parser : SourceParser} (hparser : parser.Answers)
    {records : List FunctionRecord} (hlines : ∀ r ∈ records, 1 ≤ r.line) (report : Report)
    (source : List Char) :
    ∃ next, compareFile report source records parser = .ok next ∧
      next.processed = report.processed + records.length := by
  obtain ⟨boundaries, hboundaries⟩ := exists_functionBoundaries? (rawLines source) hlines
  obtain ⟨answer, hanswer⟩ := hparser source boundaries records
  refine ⟨report.compare boundaries (answer.getD []) records, ?_, rfl⟩
  simp only [compareFile, hboundaries, hanswer]

namespace Project

variable (p : Project) (parserFor : ParserChoice)

/-! ## Files that are compared -/

/-- The file has a parser and can be read. -/
def comparable (file : String) : Bool := (parserFor file).isSome && (p.sourceText file).isOk

theorem compareGroup_of_not_comparable {group : String × List FunctionRecord}
    (h : p.comparable parserFor group.1 = false) (report : Report) :
    p.compareGroup parserFor report group = .ok report := by
  rw [compareGroup]
  split
  · rename_i hparser hsource
    simp [comparable, hparser, hsource, Except.isOk, Except.toBool] at h
  · rfl

theorem exists_compareGroup {group : String × List FunctionRecord}
    (h : p.comparable parserFor group.1 = true)
    (hparser : ∀ parser, parserFor group.1 = some parser → parser.Answers)
    (hlines : ∀ r ∈ group.2, 1 ≤ r.line) (report : Report) :
    ∃ next, p.compareGroup parserFor report group = .ok next ∧
      next.processed = report.processed + group.2.length := by
  rw [compareGroup]
  split
  · rename_i parser source hchosen _
    exact exists_compareFile (hparser parser hchosen) hlines report source
  · rename_i hnone
    rw [comparable, Bool.and_eq_true, Option.isSome_iff_exists] at h
    obtain ⟨⟨parser, hchosen⟩, hsource⟩ := h
    cases htext : p.sourceText group.1 with
    | error e => simp [htext, Except.isOk, Except.toBool] at hsource
    | ok source => exact absurd htext (hnone parser source hchosen)

/-! ## Runs over groups -/

theorem foldlM_compareGroup_filter (groups : List (String × List FunctionRecord)) (report : Report) :
    (groups.filter fun group => p.comparable parserFor group.1).foldlM (p.compareGroup parserFor) report =
      groups.foldlM (p.compareGroup parserFor) report := by
  induction groups generalizing report with
  | nil => rfl
  | cons group groups ih =>
    cases h : p.comparable parserFor group.1 with
    | true =>
      simp only [List.filter_cons, h, if_true, List.foldlM_cons, ih]
    | false =>
      simp only [List.filter_cons, h, Bool.false_eq_true, if_false, ih, List.foldlM_cons,
        p.compareGroup_of_not_comparable parserFor h]
      rfl

theorem exists_foldlM_compareGroup (hparser : ∀ file parser, parserFor file = some parser → parser.Answers)
    {groups : List (String × List FunctionRecord)}
    (h : ∀ group ∈ groups, p.comparable parserFor group.1 = true)
    (hlines : ∀ group ∈ groups, ∀ r ∈ group.2, 1 ≤ r.line) (report : Report) :
    ∃ last, groups.foldlM (p.compareGroup parserFor) report = .ok last ∧
      last.processed = report.processed + (groups.map fun group => group.2.length).sum := by
  induction groups generalizing report with
  | nil => exact ⟨report, rfl, by simp⟩
  | cons group groups ih =>
    obtain ⟨hgroup, hgroups⟩ := List.forall_mem_cons.1 h
    obtain ⟨hline, hlines⟩ := List.forall_mem_cons.1 hlines
    obtain ⟨next, hnext, hcount⟩ := p.exists_compareGroup parserFor hgroup (hparser group.1) hline report
    obtain ⟨last, hlast, htotal⟩ := ih hgroups hlines next
    refine ⟨last, ?_, ?_⟩
    · rw [List.foldlM_cons, hnext]
      exact hlast
    · rw [htotal, hcount, List.map_cons, List.sum_cons]
      push_cast
      omega

/-! ## Functions of compared files -/

/-- The functions of files that are left out do not count. -/
theorem compareAll_filter (records : List FunctionRecord) :
    p.compareAll parserFor (records.filter fun r => p.comparable parserFor r.file) =
      p.compareAll parserFor records := by
  rw [compareAll, compareAll, groupByFile_filter, OrderedMap.filterKeys, foldlM_compareGroup_filter]

theorem exists_compareAll (hparser : ∀ file parser, parserFor file = some parser → parser.Answers)
    {records : List FunctionRecord} (hlines : ∀ r ∈ records, 1 ≤ r.line) :
    ∃ report, p.compareAll parserFor records = .ok report ∧
      report.processed = (records.filter fun r => p.comparable parserFor r.file).length := by
  have hgroups : ∀ group ∈ (groupByFile (records.filter fun r => p.comparable parserFor r.file)).entries,
      p.comparable parserFor group.1 = true ∧ ∀ r ∈ group.2, 1 ≤ r.line := by
    intro group hgroup
    refine ⟨?_, fun r hr => hlines r (List.mem_filter.1 (mem_of_mem_groupByFile hgroup hr)).1⟩
    rw [groupByFile_filter] at hgroup
    exact (List.mem_filter.1 hgroup).2
  obtain ⟨report, hreport, hcount⟩ := p.exists_foldlM_compareGroup parserFor hparser
    (fun group hgroup => (hgroups group hgroup).1) (fun group hgroup => (hgroups group hgroup).2) {}
  refine ⟨report.sort, ?_, ?_⟩
  · rw [← compareAll_filter, compareAll, hreport]
    rfl
  · rw [length_groupByFile] at hcount
    simpa [Report.sort] using hcount

/-! ## The analysis -/

theorem analyze_of_functionRecords {results : Json} {records : List FunctionRecord}
    (h : p.functionRecords results = .ok records) :
    p.analyze parserFor results = (p.compareAll parserFor records).mapError .compare := by
  rw [analyze, h]
  rfl

/-- Where the line scanner has one function to compare, the report has its mismatch, if there is one. -/
theorem analyze_of_one_record {results : List Json} {r : FunctionRecord} {source : List Char}
    {boundaries : BoundaryMap} (h : p.allRecords results = .ok [r])
    (hparser : parserFor r.file = some lineParser) (hsource : p.sourceText r.file = .ok source)
    (hboundaries : functionBoundaries? (rawLines source) [r] = some boundaries) :
    p.analyze parserFor (.arr results) =
      .ok ⟨1, (mismatch? boundaries (decisionPoints source boundaries) r).toList⟩ := by
  have hrecords : p.functionRecords (.arr results) = .ok [r] := by
    change (p.allRecords results).map _ = _
    rw [h]
    exact congrArg Except.ok (List.mergeSort_singleton _)
  have hgroups : (groupByFile [r]).entries = [(r.file, [r])] := rfl
  rw [p.analyze_of_functionRecords parserFor hrecords, compareAll, hgroups, List.foldlM_cons, compareGroup]
  simp only [hparser, hsource, compareFile_eq hboundaries, Report.compare, List.filterMap_cons]
  cases mismatch? boundaries (decisionPoints source boundaries) r with
  | none => exact congrArg (fun m => Except.ok (⟨1, m⟩ : Report)) List.mergeSort_nil
  | some m => exact congrArg (fun m => Except.ok (⟨1, m⟩ : Report)) (List.mergeSort_singleton m)

/-- An analysis comes to the same, in all that it reports or fails with, without the results for files
that have no parser or cannot be read. Where the parsers answer there is a report, and what it counts
as processed are the functions that the results for the other files score. -/
theorem analyze_without_left_out (registry : Registry) {results : List Json}
    (h : ∀ result ∈ results, IsLinterResult result) :
    let kept := results.filter fun result =>
      p.comparable registry.parserFor? (resultFile p.root result)
    p.analyze registry.parserFor? (.arr results) = p.analyze registry.parserFor? (.arr kept) ∧
      ((∀ file parser, registry.parserFor? file = some parser → parser.Answers) →
        ∃ records report, p.functionRecords (.arr kept) = .ok records ∧
          p.analyze registry.parserFor? (.arr results) = .ok report ∧
          report.processed = records.length) := by
  intro kept
  obtain ⟨records, hrecords, hreported, hkept⟩ :=
    p.exists_functionRecords h (p.comparable registry.parserFor?)
  have hall := p.analyze_of_functionRecords registry.parserFor? hrecords
  have hsome := p.analyze_of_functionRecords registry.parserFor? hkept
  refine ⟨by rw [hall, ← compareAll_filter]; exact hsome.symm, fun hparser => ?_⟩
  obtain ⟨report, hreport, hcount⟩ :=
    p.exists_compareAll registry.parserFor? hparser fun r hr => (hreported r hr).on_line
  refine ⟨_, report, hkept, ?_, hcount⟩
  rw [hall, hreport]
  rfl

/-- Of three files one is missing and one has no parser; the function of the third is a mismatch. -/
theorem analyze_without_left_out_two_of_three :
    let read : FileReader := fun path =>
      if path = "/p/a.js".toList then .ok "function a() {}".toUTF8 else .error .missing
    let p : Project := ⟨"/p".toList, read⟩
    let result (path text : String) : Json := .obj
      [("filePath", .str path), ("messages", .arr [.obj
        [("ruleId", .str "complexity"), ("severity", .int 1), ("line", .int 1), ("message", .str text)]])]
    let gone := result "/p/gone.js" "a complexity of 9"
    let read := result "/p/a.js" "a complexity of 3"
    let other := result "/p/a.py" "a complexity of 7"
    (∀ r ∈ [gone, read, other], IsLinterResult r) ∧
      (∀ file parser, Registry.default.parserFor? file = some parser → parser.Answers) ∧
      p.analyze Registry.default.parserFor? (.arr [gone, read, other]) =
        p.analyze Registry.default.parserFor? (.arr [read]) ∧
      ∃ report, p.analyze Registry.default.parserFor? (.arr [gone, read, other]) = .ok report ∧
        report.processed = 1 ∧
        report.mismatches = [⟨"a", "a.js", 1, 3, 1, [], some ⟨1, 1, le_rfl⟩⟩] := by
  intro reader p result gone read other
  have hresult (path text : String) : IsLinterResult (result path text) := by
    refine ⟨⟨_, rfl⟩, fun value hvalue => ⟨path, (Option.some.inj hvalue).symm⟩,
      fun value hvalue => .inr ?_⟩
    obtain rfl := Option.some.inj hvalue
    refine ⟨_, rfl, fun m hm => ?_⟩
    obtain rfl := List.mem_singleton.1 hm
    exact ⟨⟨_, rfl⟩, ⟨text, rfl⟩, ⟨1, rfl, le_rfl⟩⟩
  have hresults : ∀ r ∈ [gone, read, other], IsLinterResult r := by
    simp only [List.forall_mem_cons]
    exact ⟨hresult _ _, hresult _ _, hresult _ _, nofun⟩
  have hgone : p.comparable Registry.default.parserFor? (resultFile p.root gone) = false := by
    decide +kernel
  have hread : p.comparable Registry.default.parserFor? (resultFile p.root read) = true := by
    decide +kernel
  have hother : p.comparable Registry.default.parserFor? (resultFile p.root other) = false := by
    decide +kernel
  have hanswers (file : String) (parser : SourceParser)
      (h : Registry.default.parserFor? file = some parser) : parser.Answers :=
    answers_of_parserFor?_default h
  obtain ⟨hsame, hreport⟩ := p.analyze_without_left_out Registry.default hresults
  simp only [List.filter_cons, hgone, hread, hother, Bool.false_eq_true, if_false, if_true,
    List.filter_nil] at hsame hreport
  obtain ⟨-, report, -, hreport, -⟩ := hreport hanswers
  -- the comparison of the file that is left
  obtain ⟨source, hsource⟩ : ∃ source, source = "function a() {}".toList := ⟨_, rfl⟩
  obtain ⟨m, hm⟩ : ∃ m, m = BoundaryMap.single 1 ⟨1, 1, le_rfl⟩ := ⟨_, rfl⟩
  obtain ⟨r, hr⟩ : ∃ r : FunctionRecord, r =
    { file := "a.js", line := 1, complexity := 3, name := "a", message := "a complexity of 3" } := ⟨_, rfl⟩
  have hname : p.functionName "a.js" 1 (.str defaultNodeType) = "a" := by decide +kernel
  have hrecords : p.allRecords [read] =
      .ok [{ r with name := p.functionName "a.js" 1 (.str defaultNodeType) }] := by rw [hr]; rfl
  rw [hname, show { r with name := "a" } = r by rw [hr]] at hrecords
  have hlines : splitLines source = [source] := by rw [hsource]; decide
  have hplain : IsPlain source := Text.forall_mem_of_all (by rw [hsource]; decide)
  have hpoints : decisionPoints source m = [] := by
    rw [hm]
    exact decisionPoints_eq_nil_of_plain hlines (by rw [hsource]; decide) (by decide) hplain
      (fun _ => by rw [hsource]; rfl) (by rw [hsource]; decide)
  have hboundaries : functionBoundaries? (rawLines source) [r] = some m := by
    rw [hsource, hr, hm]
    rfl
  have hleft := p.analyze_of_one_record Registry.default.parserFor? hrecords (by rw [hr]; rfl)
    (by rw [hr, hsource]; rfl) hboundaries
  rw [← hsame, hreport, hpoints] at hleft
  obtain rfl := Except.ok.inj hleft
  refine ⟨hresults, hanswers, hsame, _, hreport, rfl, ?_⟩
  rw [hm, hr]
  rfl

end Project

end BranchTally
