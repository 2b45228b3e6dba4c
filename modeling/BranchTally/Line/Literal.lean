-- SUMMARY: Which characters of a line are string content: the quote-tracking walk and the mask it gives.

/-! # String content

A token inside quotes is never a decision point, while one inside the `${…}` of a template literal
is live code. The walk below carries the quotes that are open from character to character. Of its two
readings, `literalMask` marks every character of a line and `isInsideLiteral` asks about one.
-/

namespace BranchTally

/-- One line of the scanned source, or a piece of one, as its characters. -/
abbrev Line := List Char

/-! ## The walk -/

/-- What is open after some characters of a line. `braces` counts the braces that are open inside a
template expression, its own included. -/
structure QuoteState where
  inSingle : Bool := false
  inDouble : Bool := false
  inTemplate : Bool := false
  inExpression : Bool := false
  braces : Int := 0
  escaped : Bool := false
  deriving DecidableEq

/-- The next character would be string content. -/
def QuoteState.inLiteral (s : QuoteState) : Bool :=
  s.inSingle || s.inDouble || (s.inTemplate && !s.inExpression)

/-- One step of the walk: the state after it and how many characters it took. -/
structure QuoteStep where
  state : QuoteState
  width : Nat
  deriving DecidableEq

/-- Takes the character `c`, with a look at the one after it. Only the `$` of a `${` that opens a
template expression takes its follower along. -/
def QuoteState.advance (s : QuoteState) (c : Char) (next : Option Char) : QuoteStep :=
  if s.escaped then ⟨{ s with escaped := false }, 1⟩
  else if c = '\\' then ⟨{ s with escaped := true }, 1⟩
  else if s.inExpression then
    if c = '{' then ⟨{ s with braces := s.braces + 1 }, 1⟩
    else if c = '}' then
      if s.braces - 1 ≤ 0 then ⟨{ s with inExpression := false, braces := 0 }, 1⟩
      else ⟨{ s with braces := s.braces - 1 }, 1⟩
    else ⟨s, 1⟩
  else if s.inTemplate && c = '$' && next = some '{' then
    ⟨{ s with inExpression := true, braces := 1 }, 2⟩
  else if c = '\'' && !(s.inDouble || s.inTemplate) then
    ⟨{ s with inSingle := !s.inSingle }, 1⟩
  else if c = '"' && !(s.inSingle || s.inTemplate) then
    ⟨{ s with inDouble := !s.inDouble }, 1⟩
  else if c = '\x60' && !(s.inSingle || s.inDouble) then
    if s.inTemplate then
      ⟨{ s with inTemplate := false, inExpression := false, braces := 0 }, 1⟩
    else ⟨{ s with inTemplate := true }, 1⟩
  else ⟨s, 1⟩

/-- The steps of the walk over a text. -/
def QuoteState.walk (s : QuoteState) : Line → List QuoteStep
  | [] => []
  | [c] => [s.advance c none]
  | c :: d :: rest =>
    let step := s.advance c (some d)
    if step.width = 2 then step :: step.state.walk rest else step :: step.state.walk (d :: rest)

/-- The state after the steps that begin before the next `n` characters are over. -/
def QuoteState.after (s : QuoteState) : List QuoteStep → Nat → QuoteState
  | [], _ => s
  | step :: rest, n => if n = 0 then s else step.state.after rest (n - step.width)

/-! ## The two readings -/

/-- The marks of the steps of a walk that begins in state `s`: `true` for string content. A step marks
all the characters it takes by the state it starts from, so a closing quote counts as content and an
opening one does not. -/
def QuoteState.marks (s : QuoteState) : List QuoteStep → List Bool
  | [] => []
  | step :: rest => List.replicate step.width s.inLiteral ++ step.state.marks rest

/-- The mask of a text that is entered in state `s`. -/
def QuoteState.mask (s : QuoteState) (line : Line) : List Bool := s.marks (s.walk line)

/-- The mask of a line, one entry for each character. -/
def literalMask (line : Line) : List Bool := QuoteState.mask {} line

/-- String content is open once the first `n` characters of the line are read. -/
def isInsideLiteral (line : Line) (n : Nat) : Bool :=
  (QuoteState.after {} (QuoteState.walk {} line) n).inLiteral

/-- A line paired with its mask. -/
def maskedCells (line : Line) : List (Char × Bool) := line.zip (literalMask line)

/-- Some `?` of the line is live code. -/
def hasLiveQuestion (line : Line) : Bool :=
  (maskedCells line).any fun cell => cell.1 = '?' && !cell.2

end BranchTally
