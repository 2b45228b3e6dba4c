-- SUMMARY: The level of a complexity score.

/-! # Levels

Scores fall into five levels. The levels name the quality of the code, so the highest scores are `low`
at the one end and the lowest are `good` at the other.
-/

namespace BranchTally

/-- The levels of complexity, worst first. -/
inductive Level where
  | low
  | medium
  | high
  | acceptable
  | good
  deriving DecidableEq

/-- The level of a score. -/
def Level.of (score : Int) : Level :=
  if 20 ≤ score then .low
  else if 15 ≤ score then .medium
  else if 10 < score then .high
  else if 6 < score then .acceptable
  else .good

/-- The name of a level. -/
def Level.name : Level → String
  | .low => "low"
  | .medium => "medium"
  | .high => "high"
  | .acceptable => "acceptable"
  | .good => "good"

end BranchTally
