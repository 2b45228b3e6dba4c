-- SUMMARY: The search for the colon that makes a question mark a ternary.

import BranchTally.Source
import BranchTally.Ternary.Depth
import BranchTally.Ternary.Question
import BranchTally.Line.Token

/-! # Matching colons

A question mark is a ternary when a colon follows at its own depth, past all inner ternaries. The
search runs on to the lines below as long as nothing on the way rules the colon out. In embedded
markup commas and semicolons do not end the search on the first line, and below it the colon may sit
one level deeper.
-/

namespace BranchTally

open Text

/-- How many lines below the question mark are searched. -/
def continuationLimit : Nat := 20

/-! ## One stretch of text -/

/-- What the search carries along: the depth, and the inner ternaries whose colon is still due. -/
structure ColonState where
  depth : Depth
  pending : Nat := 0

/-- The rules of one search: the depth of the question mark, whether it stands in markup, and how
much deeper the colon may be. -/
structure ColonRule where
  target : Depth
  inMarkup : Bool
  tolerance : Int

/-- How a stretch of text ends the search, or leaves it open. -/
inductive ColonResult where
  | decided (found : Bool)
  | undecided (state : ColonState)

/-- A colon at this depth closes the ternary. -/
def ColonRule.accepts (rule : ColonRule) (depth : Depth) : Bool :=
  depth = rule.target || (rule.tolerance ≠ 0 && depth.within rule.target rule.tolerance)

/-- A comma or semicolon in this state ends the search. -/
def ColonRule.stopsAt (rule : ColonRule) (state : ColonState) (c : Char) : Bool :=
  state.pending = 0 && state.depth = rule.target &&
    (((c = ';' || c = ',') && !rule.inMarkup) || (c = ';' && rule.tolerance ≠ 0))

/-- Searches a stretch of text. The first `skip` cells belong to a mark that was read before. -/
def ColonRule.search (rule : ColonRule) : (skip : Nat) → ColonState → List Cell → ColonResult
  | _, state, [] => .undecided state
  | skip + 1, state, _ :: rest => rule.search skip state rest
  | 0, state, cell :: rest =>
    if cell.masked then rule.search 0 state rest
    else if cell.char = '?' then
      match cell.question with
      | .plain => rule.search 0 { state with pending := state.pending + 1 } rest
      | q => rule.search q.tail state rest
    else if cell.char = ':' then
      if 0 < state.pending then rule.search 0 { state with pending := state.pending - 1 } rest
      else if rule.accepts state.depth then .decided true
      else rule.search 0 state rest
    else
      let state := { state with depth := state.depth.step cell.char }
      if state.depth.below rule.target then .decided false
      else if rule.stopsAt state cell.char then .decided false
      else rule.search 0 state rest

/-- Searches the lines below, one after the other; the end of the last one settles that there is no
colon. -/
def ColonRule.searchLines (rule : ColonRule) (state : ColonState) : List Line → Bool
  | [] => false
  | line :: rest =>
    match rule.search 0 state (cells line) with
    | .decided found => found
    | .undecided state => rule.searchLines state rest

/-! ## Ternaries of a line -/

/-- A question mark between these two texts looks like one in markup. -/
def looksLikeMarkup (before after : Line) : Bool :=
  before.contains '{' || (skipBlanks after).head? = some '('

/-- A colon follows for the question mark that stands between `before` and `after`; `rest` are the
cells after it and `below` the lines under it. -/
def colonFollows (before after : Line) (rest : List Cell) (below : List Line) : Bool :=
  let target := Depth.of before
  let inMarkup := looksLikeMarkup before after
  match (ColonRule.mk target inMarkup 0).search 0 ⟨target, 0⟩ rest with
  | .decided found => found
  | .undecided state =>
    (ColonRule.mk target inMarkup (if inMarkup then 1 else 0)).searchLines state
      (below.take continuationLimit)

/-- The question mark at a position of the line in view has its colon. -/
def hasMatchingColon (f : Focus) (position : Nat) : Bool :=
  colonFollows (f.line.take position) (f.line.drop (position + 1))
    ((cells f.line).drop (position + 1)) f.after

/-- The position holds a live question mark that may open a ternary. -/
def mayOpenTernary (line : Line) (position : Nat) : Bool :=
  match (cells line)[position]? with
  | some cell =>
    cell.char = '?' && !cell.masked && cell.question = .plain &&
      !(0 < position && (line)[position - 1]? = some '?')
  | none => false

/-- The positions of the ternaries on the line in view. -/
def ternaryPositions (f : Focus) : List Nat :=
  (List.range f.line.length).filter fun i => mayOpenTernary f.line i && hasMatchingColon f i

/-- The positions of the live `??` of a line, those of `??=` among them. -/
def nullishPositions (line : Line) : List Nat := findTokens line ['?', '?']

/-! ## Conditions above their question mark -/

/-- Some live `&&` or `||` stands on the line. -/
def hasLiveLogical (line : Line) : Bool :=
  Logical.all.any fun op => !(findTokens line op.token).isEmpty

/-- The line in view is the condition of a ternary whose `?` stands on the next line and whose `:`
opens the line after that. -/
def isTernaryCondition (f : Focus) : Bool :=
  match f.after with
  | next :: second :: _ =>
    hasLiveLogical f.line && !hasLiveQuestion f.line && hasLiveQuestion next &&
      (trim second).head? = some ':'
  | _ => false

end BranchTally
