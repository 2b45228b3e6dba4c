-- SUMMARY: Comments on one line: where they lie, and the line without them.

import BranchTally.Text.Front
import BranchTally.Line.Literal

/-! # Comments

Two views of the comments on a line. `commentSpans` knows about strings and says where comments lie.
`stripComments` does not, and is what the line classifiers read: it would cut `"http://x"` short, so
the positions of operators always come from the full line.
-/

namespace BranchTally

open Text

/-! ## The line without comments -/

/-- A block comment closes in this text before any line break. -/
def closesBlock : Line → Bool
  | '*' :: '/' :: _ => true
  | '\n' :: _ => false
  | _ :: rest => closesBlock rest
  | [] => false

/-- The text goes on to the end of its line, save for one line break that may close it. -/
def isLineTail : Line → Bool
  | [] => true
  | ['\n'] => true
  | '\n' :: _ => false
  | _ :: rest => isLineTail rest

/-- Removes comments; `inBlock` tells that a block comment is open. -/
def stripCommentsFrom : (inBlock : Bool) → Line → Line
  | _, [] => []
  | true, '*' :: '/' :: rest => stripCommentsFrom false rest
  | true, _ :: rest => stripCommentsFrom true rest
  | false, '/' :: '/' :: rest =>
    if isLineTail rest then rest.filter (· = '\n') else '/' :: stripCommentsFrom false ('/' :: rest)
  | false, '/' :: '*' :: rest =>
    if closesBlock rest then stripCommentsFrom true rest
    else '/' :: stripCommentsFrom false ('*' :: rest)
  | false, c :: rest => c :: stripCommentsFrom false rest

/-- The line without `//` tails and closed `/* */` blocks, wherever these stand. -/
def stripComments (line : Line) : Line := stripCommentsFrom false line

/-! ## Comment spans -/

/-- A half-open range of positions. -/
structure Span where
  start : Nat
  stop : Nat
  deriving DecidableEq

/-- The position lies in the span. -/
def Span.contains (s : Span) (i : Nat) : Bool := s.start ≤ i && i < s.stop

/-- The comments of the masked text that begins at position `pos`; `opened` is the start of a block
comment that is open there. A comment starts outside strings only, but once it is open the mask no
longer matters. The first `skip` characters belong to a mark that was read before. -/
def commentSpansFrom : (skip : Nat) → (opened : Option Nat) → (pos : Nat) → List (Char × Bool) →
    List Span
  | _, none, _, [] => []
  | _, some start, pos, [] => [⟨start, pos⟩]
  | skip + 1, opened, pos, _ :: rest => commentSpansFrom skip opened (pos + 1) rest
  | 0, some start, pos, (c, _) :: rest =>
    if c = '*' && rest.head?.any (·.1 = '/') then
      ⟨start, pos + 2⟩ :: commentSpansFrom 1 none (pos + 1) rest
    else commentSpansFrom 0 (some start) (pos + 1) rest
  | 0, none, pos, (c, masked) :: rest =>
    if c = '/' && !masked then
      if rest.head?.any (·.1 = '/') then [⟨pos, pos + 1 + rest.length⟩]
      else if rest.head?.any (·.1 = '*') then commentSpansFrom 1 (some pos) (pos + 1) rest
      else commentSpansFrom 0 none (pos + 1) rest
    else commentSpansFrom 0 none (pos + 1) rest

/-- The comments that start outside strings, from left to right. -/
def commentSpans (line : Line) : List Span := commentSpansFrom 0 none 0 (maskedCells line)

/-- The position lies inside a comment. -/
def isInsideComment (line : Line) (i : Nat) : Bool := (commentSpans line).any (·.contains i)

/-- The line is a comment from its first character on, or reads as the body of a block comment. -/
def isCommentLine (line : Line) : Bool :=
  match trim line with
  | '/' :: '/' :: _ => true
  | '/' :: '*' :: _ => true
  | '*' :: _ => true
  | _ => false

end BranchTally
