-- SUMMARY: What a question mark means by its neighbours: optional chaining, `??`, an optional marker, or none of these.

import BranchTally.Text.Front
import BranchTally.Line.Literal

/-! # Question marks

The characters around a `?` tell four uses apart. What remains may open a ternary, which only the
search for its colon can settle.
-/

namespace BranchTally

open Text

/-! ## Tests on the neighbours -/

/-- `?.` followed by no digit: `a ? .5 : b` without its blank is no optional chaining. -/
def isOptionalChain (next second : Option Char) : Bool := next = some '.' && !second.any isDigit

/-- One of the two marks of `??`. -/
def isNullishHalf (before next : Option Char) : Bool := next = some '?' || before = some '?'

/-- Characters that may end the name in front of an optional marker. -/
def endsName (c : Char) : Bool := isWord c || c = '$' || c = ']' || c = ')'

/-- `name?: Type`, where a name ends before the mark and a colon follows it. -/
def isOptionalMarker (before : Option Char) (rest : Line) : Bool :=
  before.any endsName && (spacedChar? ':' rest).isSome

/-! ## Classified text -/

/-- The meanings of a question mark. -/
inductive Question where
  | chain
  | nullish
  | nullishAssign
  | marker
  | plain
  deriving DecidableEq

/-- The meaning of a question mark from the character before it and the text after it. -/
def Question.of (before : Option Char) (rest : Line) : Question :=
  match rest with
  | '.' :: _ => .chain
  | '?' :: '=' :: _ => .nullishAssign
  | '?' :: _ => .nullish
  | _ => if isOptionalMarker before rest then .marker else .plain

/-- How many characters after the mark belong to it. -/
def Question.tail : Question → Nat
  | .chain | .nullish => 1
  | .nullishAssign => 2
  | .marker | .plain => 0

/-- A character with its mask; `question` is its meaning if it is a question mark. -/
structure Cell where
  char : Char
  masked : Bool
  question : Question

/-- The cells of a masked text that stands after the character `before`. -/
def cellsFrom (before : Option Char) : List (Char × Bool) → List Cell
  | [] => []
  | (c, masked) :: rest =>
    ⟨c, masked, if c = '?' then .of before (rest.map (·.1)) else .plain⟩ :: cellsFrom (some c) rest

/-- The cells of a line. -/
def cells (line : Line) : List Cell := cellsFrom none (maskedCells line)

end BranchTally
