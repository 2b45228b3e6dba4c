-- SUMMARY: Finds `name = value` pairs in a text, as parameter lists and destructuring patterns hold them.

import BranchTally.Text.Front

/-! # Defaults in a text

A default is an ASCII identifier at a word boundary, an equals sign and a value. The value is a quoted
text, one of four words, a number, or else a run of characters that cannot end a parameter. Defaults
are counted from left to right without overlap.
-/

namespace BranchTally

open Text

/-! ## Forms -/

/-- Where a default is looked for: the characters besides blanks that end a bare value, and the
characters that no value begins with. -/
structure DefaultForm where
  stops : List Char
  refuses : List Char

/-- Defaults in a parameter list. -/
def DefaultForm.parameter : DefaultForm := ⟨['=', ',', ')', '}'], []⟩

/-- Defaults in a destructuring pattern, where a comparison is no default. -/
def DefaultForm.destructured : DefaultForm := ⟨['=', ',', '}'], ['=', '<', '>']⟩

/-! ## Values -/

/-- The words that are values. -/
def valueWords : List (List Char) :=
  [['t', 'r', 'u', 'e'], ['f', 'a', 'l', 's', 'e'], ['n', 'u', 'l', 'l'],
    ['u', 'n', 'd', 'e', 'f', 'i', 'n', 'e', 'd']]

/-- Takes a text between two like quotes. -/
def quotedValue? : List Char → Option (List Char)
  | [] => none
  | q :: rest =>
    if q = '"' || q = '\'' || q = '\x60' then
      match rest.dropWhile (· ≠ q) with
      | [] => none
      | _ :: tail => some tail
    else none

/-- Takes a value word that no word character follows. -/
def wordValue? (s : List Char) : Option (List Char) :=
  (oneOf? valueWords s).filter atWordEnd

/-- Takes digits, with a point and more digits where there are such. -/
def numberValue? (s : List Char) : Option (List Char) :=
  match run? isDecimal s with
  | none => none
  | some rest =>
    match rest with
    | '.' :: tail => some ((run? isDecimal tail).getD rest)
    | _ => some rest

/-- Takes a value off the front of a text. -/
def DefaultForm.value? (form : DefaultForm) (s : List Char) : Option (List Char) :=
  (quotedValue? s).or ((wordValue? s).or ((numberValue? s).or
    (run? (fun c => !form.stops.contains c && !isBlank c) s)))

/-! ## Defaults -/

/-- A word begins or ends between the two characters. -/
def isWordBoundary (before : Option Char) (next : Char) : Bool := before.any isWord != isWord next

/-- Takes a default off the front of a text that stands after the character `before`. -/
def DefaultForm.take? (form : DefaultForm) (before : Option Char) (s : List Char) :
    Option (List Char) :=
  match s with
  | [] => none
  | c :: _ =>
    if isWordBoundary before c then
      match (identifier? s).bind (spacedChar? '=') with
      | none => none
      | some rest =>
        let value := skipBlanks rest
        if value.head?.any form.refuses.contains then none else form.value? value
    else none

/-- Counts the defaults of a text; its first `skip` characters belong to a default found before. -/
def DefaultForm.countFrom (form : DefaultForm) : (skip : Nat) → Option Char → List Char → Nat
  | _, _, [] => 0
  | skip + 1, _, c :: rest => form.countFrom skip (some c) rest
  | 0, before, c :: rest =>
    match form.take? before (c :: rest) with
    | some tail => form.countFrom (rest.length - tail.length) (some c) rest + 1
    | none => form.countFrom 0 (some c) rest

/-- The number of defaults in a text. -/
def DefaultForm.count (form : DefaultForm) (s : List Char) : Nat := form.countFrom 0 none s

/-- The number of parameter defaults in a text. -/
def countDefaults (s : List Char) : Nat := DefaultForm.parameter.count s

end BranchTally
