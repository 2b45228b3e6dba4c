-- SUMMARY: Lower-case and upper-case texts, and words that match whatever their case.

import BranchTally.Text.CapitalRanges
import BranchTally.Text.Front

/-! # Letter case

A text in lower case keeps its length but for the dotted capital I, which becomes two characters. A
capital sigma at the end of a word has a form of its own. Matching without regard to case takes the
few characters beyond ASCII that stand for a Latin letter.
-/

namespace BranchTally.Text

/-! ## Lower case -/

/-- The code point lies on the run. -/
def CaseRun.contains (r : CaseRun) (n : Nat) : Bool :=
  r.first ≤ n && n ≤ r.last && (n - r.first) % r.step = 0

/-- The lower-case form of a character on its own. -/
def lowerChar (c : Char) : List Char :=
  let n := c.toNat
  if 65 ≤ n && n ≤ 90 then [Char.ofNat (n + 32)]
  else if n < 0x80 then [c]
  else if n = 0x130 then ['i', Char.ofNat 0x307]
  else
    match lowerRuns.find? (·.contains n) with
    | some r => [Char.ofNat (n + r.distance).toNat]
    | none => [c]

/-- A letter with case. -/
def isCased (c : Char) : Bool :=
  if c.toNat < 0x80 then isLatinLetter c else inRanges casedRanges c.toNat

/-- A character that does not part a letter from its word. -/
def isCaseIgnorable (c : Char) : Bool :=
  if c.toNat < 0x80 then ['\'', '.', ':', '^', '\x60'].contains c
  else inRanges caseIgnorableRanges c.toNat

/-- The nearest character that is not ignored is a letter with case. -/
def meetsCased (s : List Char) : Bool := ((s.dropWhile isCaseIgnorable).head?).any isCased

/-- The text in lower case; `before` is what stands in front of it, last character first. -/
def lowerFrom (before : List Char) : List Char → List Char
  | [] => []
  | c :: rest =>
    let here :=
      if c.toNat = 0x3a3 then
        [Char.ofNat (if meetsCased before && !meetsCased rest then 0x3c2 else 0x3c3)]
      else lowerChar c
    here ++ lowerFrom (c :: before) rest

/-- The text in lower case. -/
def lower (s : List Char) : List Char := lowerFrom [] s

/-! ## Upper case -/

/-- The upper-case form of a character. -/
def upperChar (c : Char) : List Char :=
  let n := c.toNat
  if 97 ≤ n && n ≤ 122 then [Char.ofNat (n - 32)]
  else if n < 0x80 then [c]
  else
    match longCapitals.find? (·.1 = n), capitalRuns.find? (·.contains n) with
    | some entry, _ => entry.2.map Char.ofNat
    | none, some r => [Char.ofNat (n + r.distance).toNat]
    | none, none => [c]

/-- The text in upper case. -/
def upper (s : List Char) : List Char := s.flatMap upperChar

/-! ## Matching without regard to case -/

/-- The character is the given lower-case Latin letter or sign, in either case; a dotless or dotted
`i`, the Kelvin sign and the long `s` count as their letters. -/
def matchesLetter (letter c : Char) : Bool :=
  c = letter || (isLatinLetter letter && c.toNat + 32 = letter.toNat) ||
    (letter = 'i' && (c.toNat = 0x130 || c.toNat = 0x131)) ||
    (letter = 'k' && c.toNat = 0x212a) || (letter = 's' && c.toNat = 0x17f)

/-- Takes a lower-case text in any case. -/
def foldedLiteral? : List Char → List Char → Option (List Char)
  | [], s => some s
  | _ :: _, [] => none
  | w :: word, c :: rest => if matchesLetter w c then foldedLiteral? word rest else none

end BranchTally.Text
