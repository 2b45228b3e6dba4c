-- SUMMARY: Boundary maps from documents: keys and ranges in their various spellings.

import BranchTally.Boundary
import BranchTally.Json.Whole

/-! # Boundary maps in documents

A document may give a range as a pair, as an object with the names `start` and `end`, or as anything
else that makes two whole numbers. Keys are numbers or numerals; keys that differ only in spelling
become one key, which keeps its first place and takes the last range.
-/

namespace BranchTally

/-! ## Spellings -/

/-- A key as a document spells it. -/
inductive BoundaryKey where
  | number (n : Int)
  | text (s : String)
  deriving DecidableEq

/-- A range as a document or a caller gives it. -/
inductive BoundaryValue where
  | ready (boundary : Boundary)
  | document (value : Json)

/-- Why there is no boundary map. -/
inductive BoundaryError where
  | whole (error : WholeError)
  | reversed (start stop : Int)
  | missing (name : String)
  | tooFew (count : Nat)
  | tooMany
  | notAPair
  deriving DecidableEq

/-! ## Reading -/

/-- A whole number in a boundary map. -/
def readWhole (v : Json) : Except BoundaryError Int := v.whole.mapError .whole

/-- The boundary between two values. -/
def readRange (start stop : Json) : Except BoundaryError Boundary := do
  let start ← readWhole start
  let stop ← readWhole stop
  match Boundary.ofRange? start stop with
  | some b => .ok b
  | none => .error (.reversed start stop)

/-- The boundary in a list of two values. -/
def readPair : List Json → Except BoundaryError Boundary
  | [start, stop] => readRange start stop
  | [] => .error (.tooFew 0)
  | [_] => .error (.tooFew 1)
  | _ => .error .tooMany

/-- The boundary that a value stands for. In a text each character is a value of its own. -/
def BoundaryValue.read : BoundaryValue → Except BoundaryError Boundary
  | .ready boundary => .ok boundary
  | .document (.arr items) => readPair items
  | .document (.str s) => readPair (s.toList.map fun c => .str (String.ofList [c]))
  | .document (.obj fields) => do
    match Json.field? "start" (.obj fields) with
    | none => .error (.missing "start")
    | some start =>
      let start ← readWhole start
      match Json.field? "end" (.obj fields) with
      | none => .error (.missing "end")
      | some stop => readRange (.int start) stop
  | .document _ => .error .notAPair

/-- The whole number that a key stands for. -/
def BoundaryKey.read : BoundaryKey → Except BoundaryError Int
  | .number n => .ok n
  | .text s => readWhole (.str s)

/-- Reads entries one after the other into a boundary map. -/
def readEntries (m : BoundaryMap) :
    List (BoundaryKey × BoundaryValue) → Except BoundaryError BoundaryMap
  | [] => .ok m
  | (key, value) :: rest => do
    let boundary ← value.read
    let key ← key.read
    readEntries (m.insert key boundary) rest

/-- The boundary map of a document. -/
def BoundaryMap.read (document : OrderedMap BoundaryKey BoundaryValue) :
    Except BoundaryError BoundaryMap :=
  readEntries .empty document.entries

/-- A boundary map as a document. -/
def BoundaryMap.document (m : BoundaryMap) : OrderedMap BoundaryKey BoundaryValue :=
  .ofList (m.entries.map fun entry => (.number entry.1, .ready entry.2))

/-! ## Triples in one text -/

/-- The pieces of a text between colons. -/
def colonPieces : List Char → List (List Char)
  | [] => [[]]
  | c :: rest =>
    if c = ':' then [] :: colonPieces rest
    else
      match colonPieces rest with
      | [] => [[c]]
      | piece :: more => (c :: piece) :: more

/-- Reads `key:start:end`. -/
def parseBoundary? (text : List Char) : Option (Int × Boundary) :=
  match (colonPieces text).mapM Text.integer? with
  | some [key, start, stop] => (Boundary.ofRange? start stop).map fun b => (key, b)
  | _ => none

/-- What is said of a text that is no such triple. -/
def badBoundary (text : List Char) : String :=
  "invalid boundary " ++ String.ofList (Text.quoted text) ++
    ": expected LINE:START:END with START <= END"

end BranchTally
