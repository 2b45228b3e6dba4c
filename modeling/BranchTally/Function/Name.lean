-- SUMMARY: The display name of a function, recovered from the source around its line.

import BranchTally.Function.Record
import BranchTally.Text.Case
import BranchTally.Line.Literal

/-! # Function names

A declared function has the name of the nearest declaration above or on its line. An arrow function
has its own name if a constant holds it; else it is shown as the callback of a call, or as an arrow
function, within the declaration above.
-/

namespace BranchTally

open Text

/-! ## Name patterns -/

/-- A pattern takes a piece off the front of a text and finds a name in it: the name and the text
after the piece. -/
abbrev NamePattern := List Char → Option (List Char × List Char)

/-- Takes an identifier. -/
def takeIdentifier? : NamePattern
  | [] => none
  | c :: rest =>
    if isIdentifierStart c then
      some (c :: rest.takeWhile isIdentifierPart, rest.dropWhile isIdentifierPart)
    else none

/-- Takes a run of word characters. -/
def takeWord? : NamePattern
  | [] => none
  | c :: rest => if isWord c then some (c :: rest.takeWhile isWord, rest.dropWhile isWord) else none

/-- Takes a word and the blanks after it. -/
def keyword? (word : List Char) (s : List Char) : Option (List Char) :=
  (literal? word s).bind blanks?

/-- `export` -/
def exportWord : List Char := ['e', 'x', 'p', 'o', 'r', 't']

/-- `default` -/
def defaultWord : List Char := ['d', 'e', 'f', 'a', 'u', 'l', 't']

/-- `const` -/
def constWord : List Char := ['c', 'o', 'n', 's', 't']

/-- `function` -/
def functionKeyword : List Char := ['f', 'u', 'n', 'c', 't', 'i', 'o', 'n']

/-- The text after a parameter list in parentheses and the blanks behind it, if there is one. -/
def skipParens (s : List Char) : List Char :=
  match s with
  | '(' :: rest =>
    match rest.dropWhile (· ≠ ')') with
    | _ :: tail => skipBlanks tail
    | [] => s
  | _ => s

/-- Takes `=>`. -/
def arrowSign? (s : List Char) : Option (List Char) := literal? ['=', '>'] s

/-- A name, then `<` or `(`. -/
def calledName? : NamePattern := fun s => do
  let (name, rest) ← takeIdentifier? s
  match skipBlanks rest with
  | c :: tail => if c = '<' || c = '(' then some (name, tail) else none
  | [] => none

/-- A name, one of some separators, perhaps a parameter list, and an ending. -/
def assignedName? (separators : List Char) (ending : List Char → Option (List Char)) :
    NamePattern := fun s => do
  let (name, rest) ← takeIdentifier? s
  match skipBlanks rest with
  | c :: tail =>
    if separators.contains c then do
      let rest ← ending (skipParens (skipBlanks tail))
      some (name, rest)
    else none
  | [] => none

/-- `function name(`, exported or not. -/
def functionPattern : NamePattern := fun s =>
  (keyword? functionKeyword ((keyword? exportWord s).getD s)).bind calledName?

/-- An arrow or the word `function`. -/
def functionSign? (s : List Char) : Option (List Char) :=
  (arrowSign? s).or (literal? functionKeyword s)

/-- `const name =` and a function. -/
def constPattern : NamePattern := fun s =>
  (keyword? constWord s).bind (assignedName? ['='] functionSign?)

/-- `export const name =` and a function. -/
def exportConstPattern : NamePattern := fun s => (keyword? exportWord s).bind constPattern

/-- `export default function name(`. -/
def exportDefaultPattern : NamePattern := fun s =>
  (((keyword? exportWord s).bind (keyword? defaultWord)).bind (keyword? functionKeyword)).bind
    calledName?

/-- A component: a constant or default export with a capital, a colon or equals sign, and an arrow. -/
def componentPattern : NamePattern := fun s => do
  let rest ←
    ((keyword? exportWord s).bind (keyword? defaultWord)).or (keyword? constWord s)
  match rest with
  | c :: _ =>
    if 'A' ≤ c && c ≤ 'Z' then assignedName? [':', '='] arrowSign? rest else none
  | [] => none

/-- The patterns of declarations, in the order in which they are tried. -/
def declarationPatterns : List NamePattern :=
  [functionPattern, constPattern, exportConstPattern, exportDefaultPattern, componentPattern]

/-- The name that the first piece of a pattern in a text holds. -/
def firstName? (p : NamePattern) : List Char → Option (List Char)
  | [] => (p []).map (·.1)
  | c :: rest =>
    match p (c :: rest) with
    | some (name, _) => some name
    | none => firstName? p rest

/-- The last piece of a pattern in the text at position `pos`, by its start and name; pieces do not
overlap, and the first `skip` characters belong to one found before. -/
def lastNameFrom (p : NamePattern) : (skip pos : Nat) → (last : Option (Nat × List Char)) →
    List Char → Option (Nat × List Char)
  | _, _, last, [] => last
  | skip + 1, pos, last, _ :: rest => lastNameFrom p skip (pos + 1) last rest
  | 0, pos, last, c :: rest =>
    match p (c :: rest) with
    | some (name, tail) =>
      lastNameFrom p (rest.length - tail.length) (pos + 1) (some (pos, name)) rest
    | none => lastNameFrom p 0 (pos + 1) last rest

/-! ## Declared names -/

/-- How many lines a declaration may stand above the line of its function. -/
def declarationLookback : Nat := 50

/-- The later of two pieces; of two with one start, the first. -/
def laterName (a b : Option (Nat × List Char)) : Option (Nat × List Char) :=
  match a, b with
  | some x, some y => if x.1 < y.1 then b else a
  | some _, none => a
  | none, _ => b

/-- The lines of a text with line feeds between them. -/
def joinLines : List Line → List Char
  | [] => []
  | [line] => line
  | line :: rest => line ++ '\n' :: joinLines rest

/-- The name of the nearest declaration above line `number` or on it. -/
def declaredName? (lines : List Line) (number : Int) : Option (List Char) :=
  if number < 1 then none
  else
    let above := lines.take number.toNat
    let context := joinLines (above.drop (number.toNat - declarationLookback))
    let found := declarationPatterns.foldl
      (fun last p => laterName last (lastNameFrom p 0 0 none context)) none
    found.map (·.2)

/-! ## Arrow functions -/

/-- A constant that holds an arrow function. -/
def namedArrowPattern : NamePattern := fun s =>
  (keyword? constWord s).bind (assignedName? ['='] arrowSign?)

/-- An arrow after the closing parenthesis of a call. -/
def arrowAfterCall (arguments : List Char) : Bool :=
  match arguments.dropWhile (· ≠ ')') with
  | _ :: rest => (arrowSign? (skipBlanks rest)).isSome
  | [] => false

/-- An arrow among the arguments of a call. -/
def arrowInCall (arguments : List Char) : Bool :=
  occurs ['=', '>'] (arguments.takeWhile (· ≠ ')'))

/-- The name of a call whose arguments pass the test. -/
def callPattern (test : List Char → Bool) : NamePattern := fun s => do
  let (name, rest) ← takeWord? s
  let arguments ← spacedChar? '(' rest
  if test arguments then some (name, arguments) else none

/-- The same for the call of a method. -/
def methodPattern (test : List Char → Bool) : NamePattern := fun s =>
  (char? '.' s).bind (callPattern test)

/-- The patterns of calls that take an arrow function, in the order in which they are tried. -/
def hostPatterns : List NamePattern :=
  [callPattern arrowAfterCall, callPattern arrowInCall, methodPattern arrowAfterCall,
    methodPattern arrowInCall]

/-- The line with a number, or an empty one. -/
def lineOrEmpty (lines : List Line) (number : Int) : Line :=
  if 1 ≤ number then (lines[(number - 1).toNat]?).getD [] else []

/-- The name of an arrow function on line `number`. -/
def arrowName (lines : List Line) (number : Int) : List Char :=
  let context := trim (lineOrEmpty lines (number - 1) ++ ' ' :: lineOrEmpty lines number)
  match firstName? namedArrowPattern context with
  | some name => name
  | none =>
    let parent := declaredName? lines (number - 1)
    match hostPatterns.findSome? (firstName? · context), parent with
    | some host, some parent => parent ++ " (".toList ++ host ++ " callback)".toList
    | some host, none => host ++ " callback".toList
    | none, some parent => parent ++ " (arrow function)".toList
    | none, none => "anonymous arrow function".toList

/-- The display name of the function that the linter reports on line `number`. -/
def functionName (lines : List Line) (number : Int) (nodeType : Json) : List Char :=
  if isArrowType nodeType then arrowName lines number
  else (declaredName? lines number).getD "anonymous".toList

/-! ## Base names -/

/-- Takes the note of a display name: blanks and `(word callback)` or `(arrow function)`. -/
def takeNote? (s : List Char) : Option (List Char) := do
  let rest ← spacedChar? '(' s
  let callback := (word? rest).bind (foldedLiteral? " callback".toList)
  let note := (callback.bind (char? ')')).or
    ((foldedLiteral? "arrow function".toList rest).bind (char? ')'))
  note

/-- Drops the notes of a text; its first `skip` characters belong to a note found before. -/
def dropNotesFrom : (skip : Nat) → List Char → List Char
  | _, [] => []
  | skip + 1, _ :: rest => dropNotesFrom skip rest
  | 0, c :: rest =>
    match takeNote? (c :: rest) with
    | some tail => dropNotesFrom (rest.length - tail.length) rest
    | none => c :: dropNotesFrom 0 rest

/-- A display name without its notes. -/
def baseName (name : List Char) : List Char := trim (dropNotesFrom 0 name)

end BranchTally
