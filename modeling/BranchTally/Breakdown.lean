-- SUMMARY: The complexity of one function as a sum over the kinds of its points.

import BranchTally.Point

/-! # Complexity breakdowns

The complexity of a function is a base of one plus the number of its points. Nullish coalescing and
optional chaining are kept in view but add nothing.
-/

namespace BranchTally

/-- The kinds that add to the complexity, in the order in which they are shown. -/
def scoredKinds : List Kind :=
  [.ifBranch, .elseIf, .forLoop, .forOf, .forIn, .whileLoop, .doWhile, .switchBranch, .caseClause,
    .catchClause, .ternary, .conj, .disj, .defaultParameter]

theorem mem_scoredKinds (k : Kind) : k ∈ scoredKinds ↔ k ≠ .nullish ∧ k ≠ .optionalChain := by
  cases k <;> decide

/-- The points of one function, with the base that they add to. -/
structure Breakdown where
  function : Int
  base : Int
  points : List Point

namespace Breakdown

/-- The breakdown of a function among the points of a file; a base of zero counts as one. -/
def of (function : Int) (points : List Point) (base : Int) : Breakdown :=
  ⟨function, if base = 0 then 1 else base, points.filter fun p => p.owner = function⟩

/-- How many points of a kind the function has. -/
def count (b : Breakdown) (k : Kind) : Nat := b.points.countP fun p => p.kind = k

/-- The complexity. -/
def total (b : Breakdown) : Int := b.base + ((scoredKinds.map b.count).foldr (· + ·) 0 : Nat)

/-- The kinds that the function has, with their counts. -/
def nonzero (b : Breakdown) : List (Kind × Nat) :=
  (scoredKinds.map fun k => (k, b.count k)).filter fun e => 0 < e.2

/-- The text of the base, where there is something to show. -/
def baseText (b : Breakdown) : List String :=
  if 0 < b.base then [toString b.base ++ " base"] else []

/-- The breakdown beside the score of the linter. -/
def format (b : Breakdown) (actual : Int) : String :=
  let parts := b.baseText ++ b.nonzero.map fun e => toString e.2 ++ " " ++ e.1.tag
  "complexity = " ++ toString actual ++ " (" ++ " + ".intercalate parts ++ ")"

/-- The symbol of a kind in a one-line breakdown. -/
def symbol : Kind → String
  | .ternary => "?:"
  | k => k.tag

/-- The breakdown on one line. -/
def inline (b : Breakdown) : String :=
  let parts := b.baseText ++ b.nonzero.map fun e => "+" ++ toString e.2 ++ " " ++ symbol e.1
  " ".intercalate parts

end Breakdown

end BranchTally
