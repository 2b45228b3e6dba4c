-- SUMMARY: The decision points of a source text: every line through every collector, then duplicates removed.

import BranchTally.Logical.Continuation
import BranchTally.Parameter.Points

/-! # Scanning a source

Each line of code passes through all collectors. A line outside every function gives nothing. A
construct that two collectors report is kept once, and the points come out in the order of lines.
-/

namespace BranchTally

open Text

/-! ## One line -/

/-- The line has nothing to count: it is blank or a comment. -/
def isQuiet (line : Line) : Bool := (trim line).isEmpty || isCommentLine line

/-- The points of a line that belongs to the function `owner`. The operators of the line go to the
condition that it continues, if it does, and defaults are looked for in destructuring declarations
only where no parameter has any. -/
def codePoints (ctx : Ownership) (lines : List Line) (f : Focus) (owner : Int) : List Point :=
  let headers := Headers.of f.line
  let markup := Markup.of f headers
  let continued := continuationPoints ctx f headers markup owner
  let parameters := parameterPoints ctx lines f owner
  controlPoints ctx f.line f.number headers owner ++
    ternaryPoints f owner ctx.innermost? ++
    chainPoints f.line f.number owner ++
    (if continued.isEmpty then expressionPoints ctx f headers markup owner else continued) ++
    (if parameters.isEmpty then destructuringPoints f owner (ctx.boundaries.get? owner)
      else parameters)

/-- The points of the line in view. -/
def scanLine (ctx : Ownership) (lines : List Line) (f : Focus) : List Point :=
  if isQuiet f.line then []
  else
    match ctx.innermost? f.number with
    | none => []
    | some owner => codePoints ctx lines f owner

/-! ## Duplicates -/

/-- Drops the points that are in `seen` or come a second time, except those of repeatable kinds. -/
def distinctFrom (seen : List Point) : List Point → List Point
  | [] => []
  | p :: rest =>
    if p.kind.repeatable then p :: distinctFrom seen rest
    else if seen.contains p then distinctFrom seen rest
    else p :: distinctFrom (p :: seen) rest

/-- Keeps the first of equal points, and every point of a repeatable kind. -/
def distinctPoints (points : List Point) : List Point := distinctFrom [] points

/-- The points in the order of lines; on one line they keep their order. -/
def sortByLine (points : List Point) : List Point := points.mergeSort fun a b => a.line ≤ b.line

/-! ## All lines -/

/-- The points of all lines as the collectors report them. -/
def rawPoints (ctx : Ownership) (lines : List Line) : List Point :=
  (foci lines).flatMap (scanLine ctx lines)

/-- The decision points of a source text whose functions have the given boundaries. -/
def decisionPoints (source : List Char) (boundaries : BoundaryMap) : List Point :=
  let ctx := Ownership.of boundaries
  let points := distinctPoints (rawPoints ctx (splitLines source))
  sortByLine (points.filter fun p => boundaries.contains p.owner)

end BranchTally
