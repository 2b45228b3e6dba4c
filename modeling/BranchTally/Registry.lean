-- SUMMARY: Routes a file to the parser that is registered for its language.

import BranchTally.Boundary.Document
import BranchTally.File.Path
import BranchTally.Function.Record
import BranchTally.Scan
import BranchTally.Text.Case

/-! # Parsers and their registry

A parser extracts decision points from the files with certain extensions. Extensions stand for
languages, so a parser registered for one extension of a language gets the files with all of them.
-/

namespace BranchTally

/-! ## Parsers -/

/-- Why a parser gives no answer. -/
inductive ParseError where
  | boundary (error : BoundaryError)
  | kind (tag : String)

/-- What points are asked of: a source text and the boundaries of its functions. -/
structure ParseRequest where
  source : List Char
  boundaries : OrderedMap BoundaryKey BoundaryValue

/-- What a parser gets: a request, and the linter's records of the functions where the caller has them. -/
structure ParserInput extends ParseRequest where
  functions : Option (List FunctionRecord) := none

/-- Something that extracts decision points. It may decline a file. -/
structure SourceParser where
  name : String
  extensions : List String
  parse : ParserInput → Except ParseError (Option (List Point))

/-- The extensions that the line scanner handles. -/
def scannedExtensions : List String :=
  [".js", ".jsx", ".mjs", ".cjs", ".ts", ".tsx", ".mts", ".cts"]

/-- The parser that scans line by line. It has no need of the records. -/
def lineParser : SourceParser where
  name := "builtin"
  extensions := scannedExtensions
  parse input :=
    match BoundaryMap.read input.boundaries with
    | .ok boundaries => .ok (some (decisionPoints input.source boundaries))
    | .error e => .error (.boundary e)

/-! ## Extensions -/

/-- The extension of a file name, with its dot. A dot at either end of the name begins none. -/
def nameExtension (name : List Char) : List Char :=
  match Text.lastIndexOf? '.' name with
  | some i => if 0 < i && i + 1 < name.length then name.drop i else []
  | none => []

/-- The extension of a path in lower case. -/
def extensionOf (path : String) : String :=
  String.ofList (Text.lower (nameExtension ((Path.names path.toList).getLast?.getD [])))

/-- The language that an extension stands for if no other is known. -/
def ownLanguage (extension : String) : String :=
  String.ofList (Text.lower (extension.toList.dropWhile (· = '.')))

/-- The languages of the extensions that are known from the start. -/
def knownLanguages : OrderedMap String String :=
  .ofList
    [(".js", "javascript"), (".jsx", "javascript"), (".mjs", "javascript"), (".cjs", "javascript"),
     (".ts", "typescript"), (".tsx", "typescript"), (".mts", "typescript"), (".cts", "typescript")]

/-! ## The registry -/

/-- The languages of extensions, and the parser of each language. -/
structure Registry where
  languages : OrderedMap String String
  parsers : OrderedMap String SourceParser

namespace Registry

/-- The registry that knows languages but no parser. -/
def empty : Registry := ⟨knownLanguages, .empty⟩

/-- Gives the parser the language of an extension; an extension without one becomes its own. -/
def registerExtension (r : Registry) (p : SourceParser) (extension : String) : Registry :=
  match r.languages.get? extension with
  | some language => { r with parsers := r.parsers.insert language p }
  | none =>
    let language := ownLanguage extension
    ⟨r.languages.insert extension language, r.parsers.insert language p⟩

/-- Registers a parser for the languages of all its extensions. -/
def register (r : Registry) (p : SourceParser) : Registry :=
  p.extensions.foldl (fun r extension => r.registerExtension p extension) r

/-- The language of a file. -/
def language? (r : Registry) (path : String) : Option String :=
  r.languages.get? (extensionOf path)

/-- The parser of a language. -/
def parser? (r : Registry) (language : String) : Option SourceParser := r.parsers.get? language

/-- The parser of a file. -/
def parserFor? (r : Registry) (path : String) : Option SourceParser :=
  (r.language? path).bind r.parser?

/-- The extensions of all languages that have a parser, in order. -/
def supportedExtensions (r : Registry) : List String :=
  let supported := r.languages.entries.filter fun entry => r.parsers.contains entry.2
  (supported.map (·.1)).mergeSort fun a b => a ≤ b

/-- The points of a file, if a parser handles it. -/
def parseFile (r : Registry) (path : String) (request : ParseRequest)
    (functions : Option (List FunctionRecord) := none) : Except ParseError (Option (List Point)) :=
  match r.parserFor? path with
  | some p => p.parse ⟨request, functions⟩
  | none => .ok none

/-- The registry with the line scanner. -/
def default : Registry := empty.register lineParser

end Registry

end BranchTally
