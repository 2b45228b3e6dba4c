-- SUMMARY: Where a token stands in live code, that is outside strings and comments.

import BranchTally.Line.Comment

/-! # Live tokens

A position is live when it is neither string content nor inside a comment. `findTokens` lists the
live places of a token in a window of the line. Occurrences are taken from left to right without
overlap, whether they are live or not.
-/

namespace BranchTally

open Text

/-! ## Live positions -/

/-- The mask and the comments of a line, computed once for many questions. -/
structure LiveMap where
  mask : List Bool
  comments : List Span

/-- The live map of a line. -/
def LiveMap.of (line : Line) : LiveMap := ⟨literalMask line, commentSpans line⟩

/-- The position holds a character of live code. -/
def LiveMap.isLive (m : LiveMap) (i : Nat) : Bool :=
  m.mask[i]? = some false && !m.comments.any (·.contains i)

/-! ## Token search -/

/-- The occurrences of a token in the text that begins at `pos`, without overlap; the first `skip`
characters belong to an occurrence found before. -/
def occurrencesFrom (token : List Char) : (skip pos : Nat) → Line → List Nat
  | _, _, [] => []
  | skip + 1, pos, _ :: rest => occurrencesFrom token skip (pos + 1) rest
  | 0, pos, c :: rest =>
    if token.isPrefixOf (c :: rest) then
      pos :: occurrencesFrom token (token.length - 1) (pos + 1) rest
    else occurrencesFrom token 0 (pos + 1) rest

/-- The live positions of a token between `start` and `stop`, where it must end. -/
def findTokens (line : Line) (token : List Char) (start : Nat := 0) (stop : Option Nat := none) :
    List Nat :=
  let live := LiveMap.of line
  (occurrencesFrom token 0 start (line.drop start)).filter fun i =>
    (stop.all fun limit => i + token.length ≤ limit) && live.isLive i

/-- A character of `&&` and `||`. -/
def isLogicalChar (c : Char) : Bool := c = '&' || c = '|'

/-- Two such characters stand side by side, in live code or not. -/
def hasLogicalPair (line : Line) : Bool := anyPair isLogicalChar line

/-- The two short-circuit operators that are counted. -/
inductive Logical where
  | conj
  | disj
  deriving DecidableEq

/-- How the operator is written. -/
def Logical.token : Logical → List Char
  | .conj => ['&', '&']
  | .disj => ['|', '|']

/-- Both operators, in the order in which points are emitted. -/
def Logical.all : List Logical := [.conj, .disj]

end BranchTally
