-- SUMMARY: Doubles as exact numbers: their binary parts, cutting off, and quotients of whole numbers.

/-! # Doubles

A finite double is a whole mantissa times a power of two. All that is printed of doubles is worked out
from these parts in whole numbers, so it is exact.
-/

namespace BranchTally.Number

/-- A power of two. -/
def twoTo (n : Nat) : Nat := Nat.pow 2 n

/-- A power of ten. -/
def tenTo (n : Nat) : Nat := Nat.pow 10 n

/-- The parts of a finite double: whether it is negative, the mantissa and the exponent of two. -/
structure BinaryParts where
  negative : Bool
  mantissa : Nat
  exponent : Int

/-- The parts of a finite double. -/
def binaryParts (x : Float) : BinaryParts :=
  let bits := x.toBits.toNat
  let fraction := bits % twoTo 52
  let exponent : Nat := bits / twoTo 52 % twoTo 11
  { negative := bits / twoTo 63 = 1
    mantissa := if exponent = 0 then fraction else fraction + twoTo 52
    exponent := ((max exponent 1 : Nat) : Int) - 1075 }

/-- The quotient rounded to the nearest whole number, halves to the even one. -/
def roundDiv (a b : Nat) : Nat :=
  let q := a / b
  let r := a % b
  if 2 * r < b then q else if b < 2 * r then q + 1 else q + q % 2

/-- A finite double cut off toward zero. -/
def truncate (x : Float) : Int :=
  let p := binaryParts x
  let magnitude : Nat := p.mantissa * twoTo p.exponent.toNat / twoTo (-p.exponent).toNat
  if p.negative then -(magnitude : Int) else magnitude

/-- The double nearest to the quotient of two whole numbers; the divisor is not zero. The quotient is
taken with at least sixty-five binary digits, the last of which also tells of a remainder. -/
def quotient (a b : Int) : Float :=
  let n := a.natAbs
  let d := b.natAbs
  let shift : Int := 66 + d.log2 - n.log2
  let num := n * twoTo shift.toNat
  let den := d * twoTo (-shift).toNat
  let digits := num / den
  let sticky := if num % den = 0 then digits else digits ||| 1
  let magnitude := (Float.ofNat sticky).scaleB (-shift)
  if (a < 0) != (b < 0) then -magnitude else magnitude

end BranchTally.Number
