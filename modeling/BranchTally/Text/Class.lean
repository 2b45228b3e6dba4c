-- SUMMARY: The character classes that the scanners test: blanks, word characters and digits.

import BranchTally.Text.WordRanges
import BranchTally.Text.DigitRanges
import BranchTally.Text.HiddenRanges

/-! # Character classes

The classes are those of Unicode 14. Each is spelled out below U+0080, where nearly all source text
lies, and read from a table of code point ranges above.
-/

namespace BranchTally.Text

/-- Membership of a code point in one of the inclusive ranges. -/
def inRanges (ranges : List (Nat × Nat)) (n : Nat) : Bool :=
  ranges.any fun r => r.1 ≤ n && n ≤ r.2

/-! ## Blanks -/

/-- The blanks beyond ASCII. -/
def isWideBlank (c : Char) : Bool :=
  let n := c.toNat
  n == 0x85 || n == 0xa0 || n == 0x1680 || (0x2000 ≤ n && n ≤ 0x200a) || n == 0x2028 ||
    n == 0x2029 || n == 0x202f || n == 0x205f || n == 0x3000

/-- White space: the five ASCII spacing controls, the four ASCII separators, the space and the
wide blanks. -/
def isBlank (c : Char) : Bool :=
  let n := c.toNat
  (9 ≤ n && n ≤ 13) || (28 ≤ n && n ≤ 32) || isWideBlank c

/-- The blanks that may surround a numeral: all but the four ASCII separators. -/
def isNumeralBlank (c : Char) : Bool :=
  let n := c.toNat
  (9 ≤ n && n ≤ 13) || n == 32 || isWideBlank c

/-! ## Word characters and digits -/

/-- ASCII letters. -/
def isLatinLetter (c : Char) : Bool :=
  let n := c.toNat
  (65 ≤ n && n ≤ 90) || (97 ≤ n && n ≤ 122)

/-- ASCII digits. -/
def isLatinDigit (c : Char) : Bool :=
  let n := c.toNat
  48 ≤ n && n ≤ 57

/-- Letters, numbers and the underscore, of any script. -/
def isWord (c : Char) : Bool :=
  if c.toNat < 0x80 then isLatinLetter c || isLatinDigit c || c == '_'
  else inRanges wordRanges c.toNat

/-- Decimal digits of any script. -/
def isDecimal (c : Char) : Bool :=
  if c.toNat < 0x80 then isLatinDigit c else inRanges decimalRanges c.toNat

/-- Digits of any script, superscripts and circled digits among them. -/
def isDigit (c : Char) : Bool :=
  isDecimal c || inRanges otherDigitRanges c.toNat

/-- The value of a decimal digit: its distance from the zero of its run. -/
def decimalValue? (c : Char) : Option Nat :=
  let n := c.toNat
  if n < 0x80 then
    if isLatinDigit c then some (n - 48) else none
  else
    (decimalRanges.find? fun r => r.1 ≤ n && n ≤ r.2).map fun r => (n - r.1) % 10

/-- Characters that may open an identifier of the scanned language, ASCII only. -/
def isIdentifierStart (c : Char) : Bool :=
  isLatinLetter c || c == '_' || c == '$'

/-- Characters that may go on an identifier of the scanned language, ASCII only. -/
def isIdentifierPart (c : Char) : Bool :=
  isIdentifierStart c || isLatinDigit c

/-- Characters that a quoted text shows as they are. -/
def isShown (c : Char) : Bool :=
  let n := c.toNat
  if n < 0x80 then 32 ≤ n && n < 127 else !inRanges hiddenRanges n

end BranchTally.Text
