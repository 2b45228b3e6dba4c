-- SUMMARY: The functions that the linter scored, from the JSON results of its complexity rule.

import BranchTally.Json.Whole
import BranchTally.Project
import BranchTally.Text.Case

/-! # Functions from linter results

Linter results are a list of files, each with a list of messages. A message of the complexity rule,
given as a warning, tells the score of a function in its text. Of several scores for the same name on
the same line of the same file the highest is kept.
-/

namespace BranchTally

/-! ## Values as the linter gives them -/

namespace Json

/-- Nothing, `false`, zero, and whatever is empty. -/
def isVoid : Json → Bool
  | .null => true
  | .bool b => !b
  | .int n => n = 0
  | .float x => x == 0.0
  | .str s => s.isEmpty
  | .arr items => items.isEmpty
  | .obj fields => fields.isEmpty

/-- The parts of a value that has some: items, names of fields, characters. -/
def parts? : Json → Option (List Json)
  | .arr items => some items
  | .obj fields => some (fields.map fun f => .str f.1)
  | .str s => some (s.toList.map fun c => .str (String.ofList [c]))
  | _ => none

/-- The number one, in any spelling. -/
def isOne : Json → Bool
  | .bool b => b
  | .int n => n = 1
  | .float x => x == 1.0
  | _ => false

/-- The value is a given text. -/
def isText (text : String) : Json → Bool
  | .str s => s = text
  | _ => false

end Json

/-! ## Messages -/

/-- Why linter results cannot be used. -/
inductive RecordError where
  | notAList
  | notAnObject
  | pathNotText
  | messageNotText
  | line (error : WholeError)
  deriving DecidableEq

/-- What a message says about a function. -/
structure Finding where
  line : Int
  score : Nat
  nodeType : Json
  column : Json
  message : String

/-- The number after the words `complexity of` at the front of a text. -/
def scoreHere? (s : List Char) : Option Nat :=
  (Text.foldedLiteral? "complexity of ".toList s).bind fun rest =>
    Text.natural? (rest.takeWhile Text.isDecimal)

/-- The first score that a text tells. -/
def score? : List Char → Option Nat
  | [] => none
  | c :: rest =>
    match scoreHere? (c :: rest) with
    | some n => some n
    | none => score? rest

/-- What a message says, if it comes from the complexity rule and tells a score. -/
def finding? (message : Json) : Except RecordError (Option Finding) :=
  match message with
  | .obj _ =>
    if !((message.field? "ruleId").any (Json.isText "complexity")
        && (message.field? "severity").any Json.isOne) then .ok none
    else
      match (message.field? "message").getD (.str "") with
      | .str text =>
        match score? text.toList with
        | none => .ok none
        | some score =>
          match ((message.field? "line").getD (.int 0)).whole with
          | .error e => .error (.line e)
          | .ok line =>
            let nodeType := (message.field? "nodeType").getD .null
            .ok (some
              { line, score, message := text
                nodeType := if nodeType.isVoid then .str defaultNodeType else nodeType
                column := (message.field? "column").getD .null })
      | _ => .error .messageNotText
  | _ => .error .notAnObject

/-- The findings among messages, in order. -/
def findings : List Json → Except RecordError (List Finding)
  | [] => .ok []
  | message :: rest => do
    let found ← finding? message
    let more ← findings rest
    pure (found.toList ++ more)

/-- The file of a linter result, as seen from the project, and its findings. -/
def fileFindings (root : List Char) (result : Json) : Except RecordError (String × List Finding) :=
  match result with
  | .obj _ =>
    let messages := (result.field? "messages").getD .null
    match (result.field? "filePath").getD (.str "") with
    | .str path =>
      match if messages.isVoid then some [] else messages.parts? with
      | some messages => do
        let found ← findings messages
        pure (String.ofList (Path.relativeTo root path.toList), found)
      | none => .error .notAList
    | _ => .error .pathNotText
  | _ => .error .notAnObject

/-! ## Records -/

/-- What tells functions apart: file, name and line, with colons between them. -/
def FunctionRecord.key (r : FunctionRecord) : String := r.file ++ ":" ++ r.name ++ ":" ++ toString r.line

/-- The functions of one linter result, one for each finding. -/
def Project.records (p : Project) (file : String) (found : List Finding) : List FunctionRecord :=
  found.map fun f =>
    { file, line := f.line, complexity := f.score, name := p.functionName file f.line f.nodeType
      nodeType := f.nodeType, column := f.column, message := f.message }

/-- Adds a function, unless one with the same key has at least its score. -/
def keepHighest (m : OrderedMap String FunctionRecord) (r : FunctionRecord) :
    OrderedMap String FunctionRecord :=
  match m.get? r.key with
  | none => m.insert r.key r
  | some known => if r.complexity > known.complexity then m.insert r.key r else m

/-- All functions that results score, each finding on its own. -/
def Project.allRecords (p : Project) : List Json → Except RecordError (List FunctionRecord)
  | [] => .ok []
  | result :: rest => do
    let (file, found) ← fileFindings p.root result
    let more ← p.allRecords rest
    pure (p.records file found ++ more)

/-- One function for each key, with its highest score. -/
def distinctRecords (records : List FunctionRecord) : List FunctionRecord :=
  (records.foldl keepHighest .empty).values

/-- Highest score first; equal scores keep their order. -/
def byScore (records : List FunctionRecord) : List FunctionRecord :=
  records.mergeSort fun a b => b.complexity ≤ a.complexity

/-- The functions that linter results score. -/
def Project.functionRecords (p : Project) (results : Json) : Except RecordError (List FunctionRecord) :=
  match results.parts? with
  | none => .error .notAList
  | some results => (p.allRecords results).map fun records => byScore (distinctRecords records)

/-- The functions of each file, files in the order of their first function. -/
def groupByFile (records : List FunctionRecord) : OrderedMap String (List FunctionRecord) :=
  records.foldl (fun m r => m.insert r.file ((m.get? r.file).getD [] ++ [r])) .empty

/-- The function as the linter reported it, with its name. -/
def FunctionRecord.document (r : FunctionRecord) : Json :=
  .obj
    [("file", .str r.file), ("line", .int r.line), ("column", r.column), ("message", .str r.message),
     ("complexity", .int r.complexity), ("functionName", .str r.name), ("nodeType", r.nodeType)]

end BranchTally
