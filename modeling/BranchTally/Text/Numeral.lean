-- SUMMARY: Reads whole numbers: an optional sign, then digits of any script with single underscores between.

import BranchTally.Text.Quoted

/-! # Numerals

`12`, ` -7 `, `+1_000` and digits of other scripts are numerals; an empty text, a blank after the sign
and a doubled or outer underscore are not. Numerals of any length are read: the limit that a system may
set to the number of digits is outside this reading.
-/

namespace BranchTally.Text

/-- Reads the digits after the first one; `n` is the number so far. -/
def digitsFrom? (n : Nat) : List Char → Option Nat
  | [] => some n
  | '_' :: c :: rest =>
    match decimalValue? c with
    | some d => digitsFrom? (n * 10 + d) rest
    | none => none
  | c :: rest =>
    match decimalValue? c with
    | some d => digitsFrom? (n * 10 + d) rest
    | none => none

/-- Reads a number without a sign, with any number of digits. -/
def natural? : List Char → Option Nat
  | [] => none
  | c :: rest => (decimalValue? c).bind fun d => digitsFrom? d rest

/-- The text without the blanks that may surround a numeral. -/
def trimNumeral (s : List Char) : List Char :=
  ((s.dropWhile isNumeralBlank).reverse.dropWhile isNumeralBlank).reverse

/-- Reads a numeral, with any number of digits. -/
def integer? (s : List Char) : Option Int :=
  match trimNumeral s with
  | '+' :: rest => (natural? rest).map fun n => (n : Int)
  | '-' :: rest => (natural? rest).map fun n => -(n : Int)
  | rest => (natural? rest).map fun n => (n : Int)

/-- What is said of a text that is no numeral. -/
def badNumeral (s : List Char) : String :=
  "invalid literal for int() with base 10: " ++ String.ofList (quoted s)

end BranchTally.Text
