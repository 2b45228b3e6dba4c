-- SUMMARY: A source text as lines, and one line of it in view with its neighbours.

import BranchTally.Line.Literal

/-! # Source text

A source is split at line feeds only, so that line numbers are those of the linter; carriage returns
before a line feed are dropped. The collectors never see a whole file: they look at one line through
a `Focus`, which holds the lines around it in the order of their distance.
-/

namespace BranchTally

/-! ## Lines -/

/-- The pieces of a text between its line feeds. -/
def rawLines : List Char → List Line
  | [] => [[]]
  | c :: rest =>
    if c = '\n' then [] :: rawLines rest
    else
      match rawLines rest with
      | [] => [[c]]
      | line :: more => (c :: line) :: more

/-- The line without the carriage returns at its end. -/
def dropReturns (line : Line) : Line := (line.reverse.dropWhile (· = '\r')).reverse

/-- The lines of a source text. -/
def splitLines (source : List Char) : List Line := (rawLines source).map dropReturns

/-! ## One line in view -/

/-- A line with its number, counted from one, and its neighbours, nearest first. -/
structure Focus where
  number : Int
  before : List Line
  line : Line
  after : List Line

/-- The lines of a text in view one after the other; the first has number `number` and the lines
`before` above it. -/
def fociFrom (number : Int) (before : List Line) : List Line → List Focus
  | [] => []
  | line :: after => ⟨number, before, line, after⟩ :: fociFrom (number + 1) (line :: before) after

/-- Each line of a text in view. -/
def foci (lines : List Line) : List Focus := fociFrom 1 [] lines

/-- The line above as the line in view. -/
def Focus.up? (f : Focus) : Option Focus :=
  match f.before with
  | [] => none
  | line :: before => some ⟨f.number - 1, before, line, f.line :: f.after⟩

end BranchTally
