-- SUMMARY: Readers that take one piece off the front of a text, and the searches built on them.

import BranchTally.Text.Class

/-! # Reading off the front

A reader takes a text and answers what is left once its piece is gone, or `none` where the text does
not start with the piece. Every reader is greedy. The pieces that follow one another in this project
never share a character, so a longest piece is the only one that can be followed by the next, and
no reader has to give characters back.
-/

namespace BranchTally.Text

/-! ## Readers -/

/-- The text after its leading blanks. -/
def skipBlanks (s : List Char) : List Char := s.dropWhile isBlank

/-- Takes one character `c`. -/
def char? (c : Char) : List Char → Option (List Char)
  | [] => none
  | d :: rest => if d = c then some rest else none

/-- Takes a fixed text. -/
def literal? (w s : List Char) : Option (List Char) := w.isPrefixOf? s

/-- Takes the first of several fixed texts that stands at the front. -/
def oneOf? (ws : List (List Char)) (s : List Char) : Option (List Char) :=
  ws.findSome? (literal? · s)

/-- Takes a longest run of at least one character of a class. -/
def run? (p : Char → Bool) : List Char → Option (List Char)
  | [] => none
  | c :: rest => if p c then some (rest.dropWhile p) else none

/-- Takes at least one blank. -/
def blanks? (s : List Char) : Option (List Char) := run? isBlank s

/-- Takes a longest run of word characters. -/
def word? (s : List Char) : Option (List Char) := run? isWord s

/-- Takes an identifier of the scanned language. -/
def identifier? : List Char → Option (List Char)
  | [] => none
  | c :: rest => if isIdentifierStart c then some (rest.dropWhile isIdentifierPart) else none

/-- Takes leading blanks and then one character. -/
def spacedChar? (c : Char) (s : List Char) : Option (List Char) := char? c (skipBlanks s)

/-- A word cannot go on here: the text is over or its next character is no word character. -/
def atWordEnd : List Char → Bool
  | [] => true
  | c :: _ => !isWord c

/-- A word may begin after `before`: nothing stands there, or no word character. -/
def atWordStart (before : Option Char) : Bool := !before.any isWord

theorem char?_eq_some_iff {c : Char} {s rest : List Char} :
    char? c s = some rest ↔ s = c :: rest := by
  cases s with
  | nil => simp [char?]
  | cons d s =>
    simp only [char?, List.cons.injEq]
    split <;> simp_all

theorem length_dropWhile_le (p : Char → Bool) (s : List Char) :
    (s.dropWhile p).length ≤ s.length := by
  induction s with
  | nil => simp
  | cons c s ih =>
    simp only [List.dropWhile_cons]
    split
    · simp only [List.length_cons]
      omega
    · simp

/-! ## Searches -/

/-- Whether some tail of the text, the empty one included, passes the test. -/
def anyTail (p : List Char → Bool) : List Char → Bool
  | [] => p []
  | c :: rest => p (c :: rest) || anyTail p rest

/-- Whether a fixed text occurs anywhere. -/
def occurs (w s : List Char) : Bool := anyTail w.isPrefixOf s

/-- The position of the first occurrence of a fixed text. -/
def find? (w : List Char) : List Char → Option Nat
  | [] => if w.isEmpty then some 0 else none
  | c :: rest => if w.isPrefixOf (c :: rest) then some 0 else (find? w rest).map (· + 1)

/-- The position of the last occurrence of a character. -/
def lastIndexOf? (c : Char) : List Char → Option Nat
  | [] => none
  | d :: rest =>
    match lastIndexOf? c rest with
    | some i => some (i + 1)
    | none => if d = c then some 0 else none

/-- Whether two adjacent characters both pass the test. -/
def anyPair (p : Char → Bool) : List Char → Bool
  | c :: d :: rest => (p c && p d) || anyPair p (d :: rest)
  | _ => false

/-! ## Trimming -/

/-- The text without its trailing blanks. -/
def trimEnd (s : List Char) : List Char := (s.reverse.dropWhile isBlank).reverse

/-- The text without blanks at either end. -/
def trim (s : List Char) : List Char := trimEnd (skipBlanks s)

/-- The text before its first line break. -/
def firstLine (s : List Char) : List Char := s.takeWhile (· ≠ '\n')

end BranchTally.Text
