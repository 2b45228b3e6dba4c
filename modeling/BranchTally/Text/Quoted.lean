-- SUMMARY: A text in quotes, as messages show it.

import BranchTally.Text.Class

/-! # Quoted texts

Messages show a text in single quotes, or in double quotes where it holds a single quote and no
double one. Backslashes, the enclosing quote and all characters without a printed form are escaped.
-/

namespace BranchTally.Text

/-- The lower-case hexadecimal digits of `n`, at least `width` of them. -/
def hexText (width n : Nat) : List Char :=
  let digits := Nat.toDigits 16 n
  List.replicate (width - digits.length) '0' ++ digits

/-- One character of a text that stands between quotes `q`. -/
def quotedChar (q c : Char) : List Char :=
  if c = q || c = '\\' then ['\\', c]
  else if c = '\t' then ['\\', 't']
  else if c = '\n' then ['\\', 'n']
  else if c = '\r' then ['\\', 'r']
  else if isShown c then [c]
  else if c.toNat < 0x100 then '\\' :: 'x' :: hexText 2 c.toNat
  else if c.toNat < 0x10000 then '\\' :: 'u' :: hexText 4 c.toNat
  else '\\' :: 'U' :: hexText 8 c.toNat

/-- The quote that encloses a text. -/
def enclosingQuote (s : List Char) : Char :=
  if s.contains '\'' && !s.contains '"' then '"' else '\''

/-- The text in quotes. -/
def quoted (s : List Char) : List Char :=
  let q := enclosingQuote s
  q :: (s.flatMap (quotedChar q) ++ [q])

end BranchTally.Text
