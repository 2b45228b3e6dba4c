-- SUMMARY: Checks the documents that requests send.

import BranchTally.Boundary
import BranchTally.Json.Reader
import BranchTally.Schema.Scalar

/-! # Requests

A request sends a document, which is checked field by field before anything is done. Fields that are
not known are passed over.
-/

namespace BranchTally.Service

open Schema

/-! ## Bodies -/

/-- What a request sends. -/
inductive Body where
  | empty
  | document (value : Json)
  | malformed (position : Nat)

/-- A value as a body: `null` is the same as nothing. -/
def Body.ofJson : Json → Body
  | .null => .empty
  | v => .document v

/-- The body that a text writes; a byte order mark does not count. -/
def Body.ofText (s : List Char) : Body :=
  let s' := match s with
    | '\ufeff' :: rest => rest
    | _ => s
  if s.isEmpty then .empty
  else
    match Json.parse s' with
    | .ok v => .ofJson v
    | .error (_, position) => .malformed position

/-- Checks the document of a body. -/
def Body.check {α : Type} (check : Json → Checked α) (b : Body) : Checked α :=
  within "body"
    (match b with
    | .empty => fail .missing
    | .document v => check v
    | .malformed position => within (toString position) (fail .json))

/-- A document with fields. -/
def record {α : Type} (check : Json → Checked α) (v : Json) : Checked α :=
  match v with
  | .obj _ => check v
  | _ => fail .record

/-! ## Points of a source text -/

/-- A source text and the boundaries of its functions. -/
structure PointsRequest where
  source : List Char
  boundaries : BoundaryMap

/-- A boundary: both lines count from one, and the end is not before the start. -/
def readBoundary : Json → Checked Boundary :=
  record fun v => do
    let (start, stop) ← both (required v "start" (integerFrom 1)) (required v "end" (integerFrom 1))
    match Boundary.ofRange? start stop with
    | some b => .ok b
    | none => fail .rule

/-- Boundaries by the lines of their functions, which are written as numerals. -/
def readBoundaries : Json → Checked BoundaryMap
  | .obj fields =>
    (all (fields.map fun f =>
      both (within f.1 (within "[key]" (integer (.str f.1)))) (within f.1 (readBoundary f.2)))).map .ofList
  | _ => fail .map

/-- A request for the points of a source text. -/
def PointsRequest.read : Json → Checked PointsRequest :=
  record fun v =>
    (both (required v "source_code" text) (withDefault v "boundaries" .empty readBoundaries)).map
      fun p => ⟨p.1.toList, p.2⟩

/-! ## Mismatches of a project -/

/-- A project to compare with the linter, perhaps with the linter's results, and how many mismatches
are wanted. -/
structure MismatchRequest where
  root : Option String
  results : Option (List Json)
  top : Int

/-- An object with any fields. -/
def anyObject : Json → Checked Json
  | .obj fields => .ok (.obj fields)
  | _ => fail .map

/-- A request for the mismatches of a project. -/
def MismatchRequest.read : Json → Checked MismatchRequest :=
  record fun v =>
    (both (withDefault v "project_root" none (optional text))
      (both (withDefault v "eslint_results" none (optional (listOf anyObject)))
        (withDefault v "top" 20 (integerFrom 0)))).map
      fun p => ⟨p.1, p.2.1, p.2.2⟩

end BranchTally.Service
