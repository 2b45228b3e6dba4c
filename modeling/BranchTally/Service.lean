-- SUMMARY: Answers requests for points and mismatches.

import BranchTally.Analysis
import BranchTally.Report.Document
import BranchTally.Service.Request
import BranchTally.Settings

/-! # The service

The service tells that it is there, extracts the points of a text, and compares a project with the
linter. An answer is a document with a status, or the faults of the document that was sent.

What finds the route of a request, checks its document and answers one that has no route is a framework
that is not part of the program. `route?`, `respond` and the checks in `Schema` are stand-ins for it, as
far as its documentation says how it treats these routes and types.
-/

namespace BranchTally.Service

/-- An answer. -/
inductive Response where
  | document (status : Nat) (body : Json)
  | faults (faults : List Schema.Fault)

/-- What keeps a request from being answered. -/
inductive Failure where
  | analysis (error : AnalysisError)
  | answer

/-- An answer that only says why there is no other. -/
def detail (status : Nat) (text : String) : Response := .document status (.obj [("detail", .str text)])

/-! ## Answers -/

/-- The version that the service tells. -/
def version : String := "0.1.0"

/-- The service is there. -/
def health : Json :=
  .obj [("status", .str "ok"), ("version", .str version),
    ("extensions", .arr (Registry.default.supportedExtensions.map .str))]

/-- The points of a text and the breakdown of each function, in the order of their lines. -/
def pointsDocument (r : PointsRequest) : Json :=
  let points := decisionPoints r.source r.boundaries
  let lines := r.boundaries.keys.mergeSort fun a b => a ≤ b
  .obj
    [("decisionPoints", .arr (points.map Point.document)),
     ("functions", .arr (lines.map fun line => (Breakdown.of line points 1).document))]

/-- A mismatch can be answered: its boundary counts lines from one. -/
def isAnswerable (m : Mismatch) : Bool := m.boundary.all fun b => 1 ≤ b.start

/-- The report with its largest mismatches only. -/
def mismatchesDocument (r : Report) (top : Int) : Except Failure Json :=
  let shown := r.mismatches.take top.toNat
  if shown.all isAnswerable then
    .ok (.obj [("summary", r.summaryDocument), ("mismatches", .arr (shown.map Mismatch.document))])
  else .error .answer

/-- Compares a project with the linter. -/
def answerMismatches (settings : Settings) (tree : FileTree) (r : MismatchRequest)
    (launcher : Launcher := launch) : FileTree × Except Failure Response :=
  let home := '/' :: Path.ofNames tree.home
  let root := (r.root.filter fun s => !s.isEmpty).elim settings.projectRoot
    fun s => Path.resolve home s.toList
  if !tree.isDirectory root then
    (tree, .ok (detail 400 ("Project root is not a directory: " ++ String.ofList root)))
  else
    let source : ResultsSource :=
      match r.results with
      | some results => .given (.arr results)
      | none => .linter settings.linterCommand.toList settings.linterOutput.toList
    match tree.analyze root Registry.default.parserFor? source launcher with
    | (left, .ok report) => (left, (mismatchesDocument report r.top).map (.document 200))
    | (left, .error (.linter e)) =>
      (left, (e.message?.map (detail 500)).elim (.error (.analysis (.linter e))) .ok)
    | (left, .error e) => (left, .error (.analysis e))

/-! ## Routes -/

/-- What can be asked for. -/
inductive Route where
  | health
  | points
  | mismatches
  deriving DecidableEq

/-- The routes by their paths. -/
def routes : List (String × Route) :=
  [("/", .health), ("/api/decision-points", .points), ("/api/mismatches", .mismatches)]

/-- The method of a route. -/
def Route.method : Route → String
  | .health => "GET"
  | _ => "POST"

/-- The path without a query, and without slashes at its end. -/
def routePath (path : List Char) : List Char :=
  let bare := path.takeWhile fun c => c ≠ '?' && c ≠ '#'
  match (bare.reverse.dropWhile (· = '/')).reverse with
  | [] => if bare.length ≤ 1 then ['/'] else bare
  | trimmed => trimmed

/-- The route of a path. -/
def route? (path : List Char) : Option Route :=
  (routes.find? fun r => r.1.toList = routePath path).map (·.2)

/-- A request. -/
structure Request where
  method : String
  path : List Char
  body : Body

/-- Answers a request. The tree is what is left. -/
def respond (settings : Settings) (tree : FileTree) (r : Request) (launcher : Launcher := launch) :
    FileTree × Except Failure Response :=
  match route? r.path with
  | none => (tree, .ok (detail 404 "Not Found"))
  | some route =>
    if r.method.map Char.toUpper ≠ route.method then (tree, .ok (detail 405 "Method Not Allowed"))
    else
      match route with
      | .health => (tree, .ok (.document 200 health))
      | .points =>
        match r.body.check PointsRequest.read with
        | .ok request => (tree, .ok (.document 200 (pointsDocument request)))
        | .error faults => (tree, .ok (.faults faults))
      | .mismatches =>
        match r.body.check MismatchRequest.read with
        | .ok request => answerMismatches settings tree request launcher
        | .error faults => (tree, .ok (.faults faults))

end BranchTally.Service
