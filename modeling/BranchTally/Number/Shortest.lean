-- SUMMARY: The shortest decimal digits that read back as a double, and their usual notation.

import BranchTally.Number.Double

/-! # Shortest decimals

A double is written with the fewest digits that read back as the same double, and of those with the
ones nearest to it. Every number of digits from one up is tried on the grid of decimals of that size:
the two points of the grid around the double are the only ones that need a look.
-/

namespace BranchTally.Number

/-- A decimal: digits, read as one number, times a power of ten. -/
structure Decimal where
  digits : Nat
  exponent : Int
  deriving DecidableEq

/-- The power of ten that a positive `mantissa · 2 ^ exponent` reaches. -/
def decimalSize (mantissa : Nat) (exponent : Int) : Int :=
  if 0 ≤ exponent then (Nat.toDigits 10 (mantissa * twoTo exponent.toNat)).length - 1
  else
    -- Scaled up by a power of ten beyond all doubles, the number is whole enough to be measured.
    (Nat.toDigits 10 (mantissa * tenTo 400 / twoTo exponent.natAbs)).length - 401

/-- The double that a decimal reads as. -/
def Decimal.toFloat (d : Decimal) : Float := Float.ofScientific d.digits (d.exponent < 0) d.exponent.natAbs

/-- The decimal of `count` digits that reads back as a positive double with the given parts. -/
def decimalOf? (x : Float) (p : BinaryParts) (count : Nat) : Option Decimal :=
  let exponent : Int := decimalSize p.mantissa p.exponent - (count - 1 : Nat)
  let num := p.mantissa * twoTo p.exponent.toNat * tenTo (-exponent).toNat
  let den := twoTo (-p.exponent).toNat * tenTo exponent.toNat
  let below : Decimal := ⟨num / den, exponent⟩
  let above : Decimal := ⟨num / den + 1, exponent⟩
  match below.toFloat == x, above.toFloat == x with
  | true, false => some below
  | false, true => some above
  | true, true => some ⟨roundDiv num den, exponent⟩
  | false, false => none

/-- Drops the zeros at the end of the digits; `fuel` bounds their number. -/
def Decimal.trim : (fuel : Nat) → Decimal → Decimal
  | 0, d => d
  | fuel + 1, d =>
    if d.digits % 10 = 0 && d.digits ≠ 0 then trim fuel ⟨d.digits / 10, d.exponent + 1⟩ else d

/-- The shortest decimal of a positive finite double. -/
def shortest (x : Float) : Decimal :=
  let p := binaryParts x
  let found := (List.range 17).findSome? fun n => decimalOf? x p (n + 1)
  (found.getD ⟨p.mantissa, 0⟩).trim 17

/-- A decimal in positional notation, or in scientific notation if it is very large or small. -/
def Decimal.text (d : Decimal) : List Char :=
  let digits := Nat.toDigits 10 d.digits
  let point : Int := digits.length + d.exponent
  if -4 < point && point ≤ 16 then
    if point ≤ 0 then '0' :: '.' :: (List.replicate point.natAbs '0' ++ digits)
    else if (digits.length : Int) ≤ point then
      digits ++ List.replicate (point - digits.length).toNat '0' ++ ['.', '0']
    else digits.take point.toNat ++ '.' :: digits.drop point.toNat
  else
    let power := Nat.toDigits 10 (point - 1).natAbs
    let fraction := if digits.length = 1 then [] else '.' :: digits.drop 1
    digits.take 1 ++ fraction ++ 'e' :: (if point < 1 then '-' else '+') ::
      (List.replicate (2 - power.length) '0' ++ power)

/-- A finite double. -/
def finiteText (x : Float) : List Char :=
  let p := binaryParts x
  let magnitude := if p.mantissa = 0 then ['0', '.', '0'] else (shortest x.abs).text
  if p.negative then '-' :: magnitude else magnitude

end BranchTally.Number
