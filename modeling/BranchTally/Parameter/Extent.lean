-- SUMMARY: Where the parameter list of a function ends.

import BranchTally.Parameter.Shape

/-! # The extent of a parameter list

The list is walked bracket by bracket from the first line of the function. The answers are exclusive
line numbers: the list takes the lines from the start of the function up to, but not including, the
answer.
-/

namespace BranchTally

open Text

/-! ## The parameters of an arrow -/

/-- The position just past the bracket that closes the `depth` ones open at `pos`. -/
def balancedEndFrom (opening closing : Char) (depth : Nat) (pos : Nat) : Line → Option Nat
  | [] => none
  | c :: rest =>
    if c = opening then balancedEndFrom opening closing (depth + 1) (pos + 1) rest
    else if c = closing then
      if depth ≤ 1 then some (pos + 1)
      else balancedEndFrom opening closing (depth - 1) (pos + 1) rest
    else balancedEndFrom opening closing depth (pos + 1) rest

/-- The position just past the bracket that balances the one at `position`. -/
def balancedEnd? (opening closing : Char) (text : Line) (position : Nat) : Option Nat :=
  balancedEndFrom opening closing 1 (position + 1) (text.drop (position + 1))

/-- Where the parameters stand in the text before an arrow: between the last parentheses, or in the
braces that open the text, or all of a bare text. In `const f = x =>` the bare parameter comes after
the declaration. -/
def arrowParameters? (beforeArrow : Line) (isDeclaration : Bool) : Option Span :=
  match lastIndexOf? '(' beforeArrow with
  | some opening =>
    (balancedEnd? '(' ')' beforeArrow opening).bind fun stop =>
      if stop ≤ opening + 2 then none else some ⟨opening + 1, stop - 1⟩
  | none =>
    let blanks := beforeArrow.length - (skipBlanks beforeArrow).length
    if (skipBlanks beforeArrow).head? = some '{' then
      (balancedEnd? '{' '}' beforeArrow blanks).map fun stop => ⟨blanks, stop⟩
    else if isDeclaration then
      match declaredValue? beforeArrow with
      | some (c :: rest) => some ⟨beforeArrow.length - (c :: rest).length, beforeArrow.length⟩
      | _ => none
    else if beforeArrow.isEmpty then none
    else some ⟨0, beforeArrow.length⟩

/-- The text of a span. -/
def Span.of (s : Span) (text : Line) : Line := (text.take s.stop).drop s.start

/-! ## The bracket walk -/

/-- What the walk carries along. -/
structure ListState where
  parens : Int := 0
  braces : Int := 0
  opened : Bool := false
  closed : Bool := false

/-- How a line ends the walk, or leaves it open. -/
inductive ListResult where
  | ends (line : Int)
  | goesOn (state : ListState)

/-- The list has closed and every bracket with it. -/
def ListState.isDone (s : ListState) : Bool := s.closed && s.parens = 0 && s.braces = 0

/-- The state after a bracket that does not open the body. -/
def ListState.step (s : ListState) (c : Char) : ListState :=
  if c = '(' then { s with parens := s.parens + 1, opened := true }
  else if c = ')' then
    { s with parens := s.parens - 1, closed := s.parens - 1 = 0 && s.opened }
  else if c = '{' then
    if !s.closed || 0 < s.parens then { s with braces := s.braces + 1 } else s
  else if c = '}' then { s with braces := s.braces - 1 }
  else s

/-- Walks one line with number `number`; `isFunction` tells that the word `function` is on it and
`first` is the first line of the function. -/
def ListState.walk (isFunction : Bool) (number first : Int) : ListState → Line → ListResult
  | s, [] => .goesOn s
  | s, c :: rest =>
    if c = '{' && s.closed && s.parens = 0 && isFunction then
      .ends (if number = first then number + 1 else number)
    else
      let s := s.step c
      if s.isDone then .ends number else s.walk isFunction number first rest

/-- The word `function`. -/
def functionWord : List Char := ['f', 'u', 'n', 'c', 't', 'i', 'o', 'n']

/-- Walks one signature line. -/
def ListState.walkLine (s : ListState) (line : Line) (number first : Int) : ListResult :=
  s.walk (occurs functionWord line) number first line

/-! ## The end of the list -/

/-- How many lines below the first one are walked. -/
def signatureLimit : Int := 20

/-- The end of the list where the walk meets an arrow on line `number`; `line` is the line with number
`asked` that the question is about. -/
def arrowEnd? (walked : Line) (number asked : Int) (line : Line) : Option Int :=
  if !hasArrow walked then none
  else if asked = number then
    match find? arrow line, find? ['='] line with
    | some a, some e => some (if e < a then number + 1 else number)
    | _, _ => some (number + 1)
  else if asked < number then some (number + 1)
  else none

/-- Walks the lines of a signature, the next one with number `number`. -/
def signatureEnd? (asked first : Int) (line : Line) (number : Int) :
    ListState → List Line → Option Int
  | _, [] => none
  | s, next :: rest =>
    let walked := stripComments next
    match arrowEnd? walked number asked line with
    | some stop => some stop
    | none =>
      match s.walkLine walked number first with
      | .ends stop => some stop
      | .goesOn s => signatureEnd? asked first line (number + 1) s rest

/-- The lines that a signature starting on line `first` may take. -/
def signatureLines (first : Int) (lines : List Line) : List Line :=
  (lines.take (first + signatureLimit).toNat).drop (first - 1).toNat

/-- The end of the parameter list of the function that starts on line `first`, as seen from the line
`line` with number `asked`. Where nothing closes the list, the first line alone belongs to it. -/
def parameterListEnd (asked first : Int) (lines : List Line) (line : Line) : Int :=
  match signatureEnd? asked first line (max (first - 1) 0 + 1) {} (signatureLines first lines) with
  | some stop => stop
  | none => if asked = first then first + 1 else first

/-- How many lines below are searched for an arrow. -/
def arrowLookahead : Nat := 5

/-- The number of the line after the first one with an arrow; `number` is that of the first. -/
def arrowBelowFrom (number : Int) : List Line → Option Int
  | [] => none
  | line :: rest =>
    if hasArrow (stripComments line) then some (number + 1) else arrowBelowFrom (number + 1) rest

/-- The exclusive end of a list whose arrow stands on one of the next lines. -/
def arrowBelow? (f : Focus) : Option Int :=
  arrowBelowFrom (f.number + 1) (f.after.take arrowLookahead)

/-- Widens a list that the walk closed on its first line though the line in view, `line` without its
comments, has a default. -/
def widenedListEnd (stop first : Int) (f : Focus) (line : Line) (signature : Bool) : Int :=
  if stop ≠ first || f.number < first || countDefaults line = 0 then stop
  else if f.number = first && signature then first + 1
  else (arrowBelow? f).getD stop

end BranchTally
