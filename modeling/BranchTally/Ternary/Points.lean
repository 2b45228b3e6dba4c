-- SUMMARY: The points of ternaries and nullish coalescing on a line.

import BranchTally.Ternary.Colon
import BranchTally.Point

/-! # Points of ternaries

A ternary whose condition stands on the line above takes the `&&` and `||` of that line along: the
points are emitted here, ahead of the line's own, and owned by the function around the line above.
-/

namespace BranchTally

/-- The kind of point that an operator makes. -/
def Logical.kind : Logical → Kind
  | .conj => .conj
  | .disj => .disj

/-- The key, unless it is missing or zero, which stands for no function. -/
def keyOr (key : Option Int) (default : Int) : Int :=
  match key with
  | some k => if k = 0 then default else k
  | none => default

/-- A point of the kind for each position, all with one owner. -/
def pointsAt (line : Int) (kind : Kind) (owner : Int) (positions : List Nat) : List Point :=
  positions.map fun _ => ⟨line, kind, owner⟩

/-- The points of the live `&&` and `||` of a line, all with one owner. -/
def logicalPoints (text : Line) (line : Int) (owner : Int) : List Point :=
  Logical.all.flatMap fun op => pointsAt line op.kind owner (findTokens text op.token)

/-- The points of the live `??` of a line. -/
def nullishPoints (text : Line) (line owner : Int) : List Point :=
  pointsAt line .nullish owner (nullishPositions text)

/-- The points of the condition on the line above, if there is one. -/
def conditionAbovePoints (f : Focus) (owner : Int) (resolve : Int → Option Int) : List Point :=
  match f.up? with
  | some above =>
    if isTernaryCondition above then
      logicalPoints above.line above.number (keyOr (resolve above.number) owner)
    else []
  | none => []

/-- The points of the ternaries and `??` on the line in view. `resolve` finds the function around
the line above, where the condition of a ternary may stand. -/
def ternaryPoints (f : Focus) (owner : Int) (resolve : Int → Option Int) : List Point :=
  let ternaries := ternaryPositions f
  (if ternaries.isEmpty then [] else conditionAbovePoints f owner resolve) ++
    pointsAt f.number .ternary owner ternaries ++ nullishPoints f.line f.number owner

end BranchTally
