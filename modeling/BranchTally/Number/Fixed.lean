-- SUMMARY: Doubles with a fixed number of decimal places.

import BranchTally.Number.Double

/-! # Fixed places

The decimal nearest to the exact value of a double, halves to the even last place. The sign of a
negative double is kept where all places are zero.
-/

namespace BranchTally.Number

/-- A whole number of units of the last place, written with so many places. -/
def placedText (places units : Nat) : String :=
  let digits := Nat.toDigits 10 units
  let padded := List.replicate (places + 1 - digits.length) '0' ++ digits
  let whole := padded.take (padded.length - places)
  String.ofList (whole ++ '.' :: padded.drop (padded.length - places))

/-- A double with so many places after the point. -/
def fixedText (places : Nat) (x : Float) : String :=
  if x.isNaN then "nan"
  else
    let p := binaryParts x
    let sign := if p.negative then "-" else ""
    if x.isInf then sign ++ "inf"
    else
      let num := p.mantissa * twoTo p.exponent.toNat * tenTo places
      sign ++ placedText places (roundDiv num (twoTo (-p.exponent).toNat))

end BranchTally.Number
