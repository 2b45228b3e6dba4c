-- SUMMARY: Lenient checks of single values: whole numbers, truth values and texts.

import BranchTally.Json.Writer
import BranchTally.Schema.Fault
import BranchTally.Text.Front
import BranchTally.Text.Numeral

/-! # Single values

A whole number may also come as a double without a fraction, as a truth value, or as a numeral in a
text; a truth value also as a word or as zero or one. A text has to be a text.

The program names the types of its fields and leaves their checks to a library; these definitions are a
stand-in for it and follow what its documentation says of these types.
-/

namespace BranchTally.Schema

/-! ## Numerals -/

/-- Drops zeros and underscores that come before the first other digit. One zero stays before a point
and where there is nothing else. -/
def dropLeadingZeros (last : Char) : List Char → Option (List Char)
  | [] => some [last]
  | c :: rest =>
    if c = '0' || c = '_' then dropLeadingZeros c rest
    else if Text.isLatinDigit c then some (c :: rest)
    else if c = '.' then some (last :: c :: rest)
    else none

/-- The text without superfluous zeros in front; `none` if no digit begins it. -/
def withoutLeadingZeros? : List Char → Option (List Char)
  | [] => none
  | c :: rest =>
    if c = '0' then dropLeadingZeros c rest
    else if c = '-' || Text.isLatinDigit c then some (c :: rest)
    else none

/-- The text without a point that only zeros follow. -/
def withoutZeroFraction (s : List Char) : List Char :=
  match s.dropWhile (· ≠ '.') with
  | _ :: fraction => if fraction.all (· = '0') then s.takeWhile (· ≠ '.') else s
  | [] => s

/-- The text without underscores, if they stand singly between other characters. -/
def withoutUnderscores (s : List Char) : List Char :=
  if s.head? = some '_' || s.getLast? = some '_' || Text.occurs ['_', '_'] s then s
  else s.filter (· ≠ '_')

/-- The number that ASCII digits write, without a leading zero. -/
def plainNatural? (s : List Char) : Option Nat :=
  if s.isEmpty || !s.all Text.isLatinDigit || (s.head? = some '0' && 1 < s.length) then none
  else Text.natural? s

/-- The whole number that a text writes. -/
def numeral? (s : List Char) : Option Int := do
  let body ←
    match Text.trimNumeral s with
    | '+' :: '-' :: _ => none
    | '+' :: rest => some rest
    | trimmed => some trimmed
  let digits := withoutUnderscores (withoutZeroFraction (← withoutLeadingZeros? body))
  match digits with
  | '-' :: rest => (plainNatural? rest).map fun n => -(n : Int)
  | _ => (plainNatural? digits).map fun n => (n : Int)

/-! ## Checks -/

/-- A double as a whole number of sixty-four bits. -/
def wholeDouble (x : Float) : Checked Int :=
  if x.isNaN || x.isInf then fail .infinite
  else
    let p := Number.binaryParts x
    if p.mantissa * Number.twoTo p.exponent.toNat % Number.twoTo (-p.exponent).toNat ≠ 0 then fail .fraction
    else
      let n := Number.truncate x
      if n.natAbs < Number.twoTo 63 then .ok n else fail .numeralSize

/-- A whole number. -/
def integer : Json → Checked Int
  | .int n => .ok n
  | .bool b => .ok (if b then 1 else 0)
  | .float x => wholeDouble x
  | .str s =>
    match numeral? s.toList with
    | some n => .ok n
    | none => fail .numeral
  | _ => fail .wholeNumber

/-- A whole number that is not below a bound. -/
def integerFrom (bound : Int) (v : Json) : Checked Int := do
  let n ← integer v
  if n < bound then fail .tooSmall else .ok n

/-- The words for truth values. -/
def truthWords : List (String × Bool) :=
  [("0", false), ("off", false), ("f", false), ("false", false), ("n", false), ("no", false),
   ("1", true), ("on", true), ("t", true), ("true", true), ("y", true), ("yes", true)]

/-- A truth value from a number. -/
def truthOf (n : Int) : Checked Bool :=
  if n = 0 then .ok false else if n = 1 then .ok true else fail .truthWord

/-- A truth value. -/
def boolean : Json → Checked Bool
  | .bool b => .ok b
  | .int n => truthOf n
  | .float x =>
    match wholeDouble x with
    | .ok n => truthOf n
    | .error _ => fail .truthValue
  | .str s =>
    match truthWords.find? fun w => w.1 = s.map Char.toLower with
    | some w => .ok w.2
    | none => fail .truthWord
  | _ => fail .truthValue

/-- A text. -/
def text : Json → Checked String
  | .str s => .ok s
  | _ => fail .text

/-- A list whose items all pass a check. -/
def listOf {α : Type} (item : Json → Checked α) : Json → Checked (List α)
  | .arr items => all (items.mapIdx fun i v => within (toString i) (item v))
  | _ => fail .list

/-- A value or nothing. -/
def optional {α : Type} (check : Json → Checked α) : Json → Checked (Option α)
  | .null => .ok none
  | v => (check v).map some

/-- A field that has to be there. -/
def required {α : Type} (document : Json) (name : String) (check : Json → Checked α) : Checked α :=
  within name ((document.field? name).elim (fail .missing) check)

/-- A field that has a default. -/
def withDefault {α : Type} (document : Json) (name : String) (default : α) (check : Json → Checked α) :
    Checked α :=
  within name ((document.field? name).elim (.ok default) check)

end BranchTally.Schema
