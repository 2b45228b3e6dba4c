-- SUMMARY: Estimates the lines that a function takes, by counting braces.

import BranchTally.Boundary
import BranchTally.Function.Name

/-! # The extent of a function

Given the line where the linter reports a function, the boundary is estimated from the text alone. A
declaration is looked for up to fifty lines above; an arrow function begins on the line of its arrow.
A braced body ends where its braces balance, with two tails that belong to it: the dependency array
of a hook and the delay of a timer. An arrow without braces ends where its expression does. What does
not end is taken to go on for five hundred lines at most.

All functions here look at the lines from some line on, with the number of the first of them.
-/

namespace BranchTally

open Text

/-! ## Counting -/

/-- How many more `{` than `}` a text has. -/
def braceBalance (s : Line) : Int := s.count '{' - s.count '}'

/-- The text has an arrow. -/
def containsArrow (s : Line) : Bool := occurs ['=', '>'] s

/-- The text from its first arrow on. -/
def fromArrow (s : Line) : Line := s.drop ((find? ['=', '>'] s).getD s.length)

/-! ## Expression bodies -/

/-- The expression after an arrow ends on its own line. -/
def endsOnLine (rest : Line) : Bool :=
  match (trimEnd rest).getLast? with
  | none => false
  | some c =>
    c = ';' || c = ',' || rest.count '(' < rest.count ')' || rest.count '{' < rest.count '}'

/-- A line that begins so closes the expression above it. -/
def closesExpression (line : Line) : Bool :=
  match (trim line).head? with
  | some c => c = ';' || c = '}' || c = ',' || c = ')'
  | none => false

/-- The number of the line that closes an expression, or of the last line; `number` is that of the
first of the lines. -/
def expressionEndFrom (number : Int) : List Line → Int
  | [] => number - 1
  | line :: rest =>
    if closesExpression line then number else expressionEndFrom (number + 1) rest

/-- The last line of an arrow function whose expression begins on the line `line` with a number. -/
def expressionEnd (number : Int) (line : Line) (rest : List Line) : Int :=
  if endsOnLine ((fromArrow line).drop 2) then number else expressionEndFrom (number + 1) rest

/-! ## Braced bodies -/

/-- How many lines the tail of a callback may take, the first included. -/
def tailLimit : Nat := 3

/-- `}, [` anywhere. -/
def hasArrayTail (s : Line) : Bool :=
  anyTail (fun s => (((char? '}' s).bind (spacedChar? ',')).bind (spacedChar? '[')).isSome) s

/-- `}, ` and a number anywhere. -/
def hasDelayTail (s : Line) : Bool :=
  anyTail (fun s =>
    (((char? '}' s).bind (spacedChar? ',')).map skipBlanks).any fun s =>
      s.head?.any isDecimal) s

/-- The number of the first line that passes the test; the test sees how far down the line is. -/
def firstLineFrom (test : Nat → Line → Bool) (distance : Nat) (number : Int) :
    List Line → Option Int
  | [] => none
  | line :: rest =>
    if test distance line then some number
    else firstLineFrom test (distance + 1) (number + 1) rest

/-- The last line of a callback whose body closes on the line `line`, where a dependency array or a
delay follows the body. -/
def callbackTail? (number : Int) (line : Line) (rest : List Line) : Option Int :=
  match line.dropWhile (· ≠ '}') with
  | [] => none
  | closing =>
    let combined := closing ++ ' ' :: (rest.head?.getD [])
    let window := (line :: rest).take tailLimit
    if hasArrayTail combined then firstLineFrom (fun _ s => s.contains ']') 0 number window
    else if hasDelayTail combined then
      firstLineFrom (fun d s => s.contains ')' && (s.contains ';' || d = 1)) 0 number window
    else none

/-- The last line of a body that closes on the line `line`. A tail cannot end on line zero, which
stands for no line. -/
def bodyEndAt (number : Int) (line : Line) (rest : List Line) : Int :=
  match callbackTail? number line rest with
  | some stop => if stop = 0 then number else stop
  | none => number

/-- Follows the braces of the lines until none of the `depth` open ones is left. -/
def bodyEnd? (depth : Int) (number : Int) : List Line → Option Int
  | [] => none
  | line :: rest =>
    let depth := depth + braceBalance line
    if depth ≤ 0 && line.contains '}' then some (bodyEndAt number line rest)
    else bodyEnd? depth (number + 1) rest

/-! ## Arrow functions -/

/-- The first and last line of the first arrow function among the lines; `start` is the answer for
the first line where there is none. -/
def arrowExtent (start number : Int) : List Line → Int × Option Int
  | [] => (start, none)
  | line :: rest =>
    if !containsArrow line then arrowExtent start (number + 1) rest
    else
      let body := fromArrow line
      if body.contains '{' then
        let depth := braceBalance body
        if depth ≤ 0 then (number, some (bodyEndAt number line rest))
        else (number, bodyEnd? depth (number + 1) rest)
      else
        match rest with
        | next :: below =>
          if (trim next).head? = some '{' then (number + 1, bodyEnd? 1 (number + 2) below)
          else (number, some (expressionEnd number line rest))
        | [] => (number, some (expressionEnd number line rest))

/-- The line of the arrow of a function reported on line `number`: that line or the next. -/
def arrowStart (lines : List Line) (number : Int) : Int :=
  if 1 ≤ number && containsArrow (lineOrEmpty lines number) then number
  else if 0 ≤ number && containsArrow (lineOrEmpty lines (number + 1)) then number + 1
  else number

/-! ## Declared functions -/

/-- The characters of a return type between the parameters and the body. -/
def isReturnTypeChar (c : Char) : Bool :=
  isWord c || isBlank c || [':', '<', '>', '[', ']', '|', '\'', '"'].contains c

/-- The text from the `{` that opens a body on: one that only a return type parts from a `)`. -/
def bodyOpener? : Line → Option Line
  | [] => none
  | c :: rest =>
    if c = ')' then
      match rest.dropWhile isReturnTypeChar with
      | '{' :: tail => some ('{' :: tail)
      | _ => bodyOpener? rest
    else bodyOpener? rest

/-- The last line of the first declared function among the lines. -/
def declarationEnd? (number : Int) : List Line → Option Int
  | [] => none
  | line :: rest =>
    match bodyOpener? line with
    | some opener =>
      let depth := braceBalance opener
      if depth ≤ 0 then some (bodyEndAt number line rest) else bodyEnd? depth (number + 1) rest
    | none =>
      if containsArrow line && !line.contains '{' then some (expressionEnd number line rest)
      else declarationEnd? (number + 1) rest

/-- The line declares the name. -/
def declaresName (name : List Char) (line : Line) : Bool :=
  declarationPatterns.any fun p => firstName? p line = some name

/-- The number of the nearest line that declares the name; `number` is that of the first of the lines,
which go upwards. -/
def declarationFrom? (name : List Char) (number : Int) : List Line → Option Int
  | [] => none
  | line :: above =>
    if declaresName name line then some number else declarationFrom? name (number - 1) above

/-- The line of the declaration of the function that is reported on line `number`. -/
def declarationStart (lines : List Line) (number : Int) (name : List Char) : Int :=
  let last := min number lines.length
  let above := (lines.take last.toNat).reverse.take (last - max 0 (number - declarationLookback)).toNat
  (declarationFrom? name last above).getD number

/-! ## Boundaries -/

/-- How many lines a function takes at most whose end is not found. -/
def fallbackSpan : Int := 500

/-- The lines from line `number` on. A number below one counts from the end, and the text then comes
once more; there are none where that goes beyond the first line. -/
def linesFrom? (lines : List Line) (number : Int) : Option (List Line) :=
  if 1 ≤ number then some (lines.drop (number - 1).toNat)
  else if 0 ≤ number - 1 + lines.length then
    some (lines.drop (number - 1 + lines.length).toNat ++ lines)
  else none

/-- The boundary from a start to an end, or to the fall-back where no end was found. -/
def boundaryTo (start : Int) (stop : Option Int) (lineCount : Int) : Boundary :=
  let stop := stop.getD (min (start + fallbackSpan) lineCount)
  ⟨start, max stop start, by omega⟩

/-- The estimated boundary of a function; there is none where its line is not in the text. -/
def functionBoundary? (lines : List Line) (r : FunctionRecord) : Option Boundary :=
  if r.isArrow then
    let first := arrowStart lines r.line
    (linesFrom? lines first).map fun below =>
      let (start, stop) := arrowExtent first first below
      boundaryTo start stop lines.length
  else
    let start := declarationStart lines r.line r.name.toList
    (linesFrom? lines start).map fun below =>
      boundaryTo start (declarationEnd? start below) lines.length

/-- The estimated boundaries of functions by their reported lines, in the order of the records. -/
def functionBoundaries? (lines : List Line) (records : List FunctionRecord) :
    Option BoundaryMap :=
  records.foldlM (fun m r => (functionBoundary? lines r).map fun b => m.insert r.line b) .empty

end BranchTally
