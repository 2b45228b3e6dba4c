-- SUMMARY: Operators on the later lines of a condition that is spread over several lines.

import BranchTally.Logical.Expression

/-! # Continued conditions

The operators of a line that goes on a condition from above belong to the function of the line where
the condition began. That line is looked for a few lines up: a condition keyword is the start, and
failing that the earliest line that still has an operator.
-/

namespace BranchTally

open Text

/-- How many lines above are looked at. -/
def lookbackLimit : Nat := 5

/-! ## Shapes of lines -/

/-- A keyword and its parenthesis open the line. -/
def opensWith (word : List Char) (line : Line) : Bool :=
  ((literal? word (skipBlanks line)).bind (spacedChar? '(')).isSome

/-- An `else if (` stands anywhere on the line. -/
def hasElseIf (line : Line) : Bool := !(headersFrom elseIfForm none 0 line).isEmpty

/-- The line begins a condition. -/
def isConditionStart (line : Line) : Bool :=
  opensWith ['i', 'f'] line || hasElseIf line || opensWith ['w', 'h', 'i', 'l', 'e'] line ||
    opensWith ['f', 'o', 'r'] line

/-- The line reads as an expression of its own. -/
def isExpressionLine (line : Line) : Bool :=
  isReturn line || isBooleanAssignment line || hasParenthesisedPair line ||
    (line.contains '{' && hasLogicalPair line)

/-- No condition reaches down past this line. -/
def stopsLookback (line : Line) : Bool :=
  let logical := hasLogicalPair line
  (line.contains '{' && logical) || isBooleanAssignment line ||
    ((line.contains ';' || line.contains '}') && !logical)

/-! ## The start of a condition -/

/-- Walks up through the lines above, the next one at distance `distance`; `found` is the farthest
line with an operator so far. -/
def conditionStartFrom (distance : Nat) (found : Option Nat) : List Line → Option Nat
  | [] => found
  | above :: rest =>
    let line := trim (stripComments above)
    if stopsLookback line then found
    else if isConditionStart line then some distance
    else conditionStartFrom (distance + 1) (if hasLogicalPair line then some distance else found) rest

/-- How many lines above the condition began that goes on below the lines `before`. -/
def conditionStart? (before : List Line) : Option Nat :=
  conditionStartFrom 1 none (before.take lookbackLimit)

/-! ## Points -/

/-- The line may go on a condition: it has an operator and is no statement of its own. -/
def mayContinue (f : Focus) (headers : Headers) (markup : Markup) : Bool :=
  let line := stripComments f.line
  !headers.isControl && !markup.any && hasLogicalPair line && !isReturn line &&
    !isBooleanAssignment line && !hasParenthesisedPair line && !isTernaryCondition f

/-- The owner of a condition that began at a line. -/
def conditionOwner (ctx : Ownership) (number : Int) (line : Line) (default : Int) : Int :=
  keyOr (if isConditionStart (stripComments line) then ctx.controlOwner? number
    else ctx.innermost? number) default

/-- The points of a line that goes on a condition, given the line above it. -/
def continuationPointsBelow (ctx : Ownership) (above : Line) (f : Focus) (headers : Headers)
    (markup : Markup) (default : Int) : List Point :=
  let previous := trim (stripComments above)
  if !mayContinue f headers markup || isExpressionLine previous then []
  else if isConditionStart previous then
    logicalPoints f.line f.number (conditionOwner ctx (f.number - 1) above default)
  else
    match conditionStart? f.before with
    | none => []
    | some distance =>
      let start := (f.before[distance - 1]?).getD []
      logicalPoints f.line f.number (conditionOwner ctx (f.number - distance) start default)

/-- The points of the line in view where it goes on a condition from above. -/
def continuationPoints (ctx : Ownership) (f : Focus) (headers : Headers) (markup : Markup)
    (default : Int) : List Point :=
  match f.before with
  | [] => []
  | above :: _ => continuationPointsBelow ctx above f headers markup default

end BranchTally
