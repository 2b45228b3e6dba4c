-- SUMMARY: Writes JSON documents in ASCII, on one line or with an indent of two.

import BranchTally.Json.Value
import BranchTally.Number.Shortest

/-! # Writing JSON

Both writers spell every character beyond printable ASCII as an escape, so what they write is ASCII
whatever the document holds. `pretty` puts every item and field on a line of its own.
-/

namespace BranchTally.Json

open Number

/-! ## Strings -/

/-- The lower-case hexadecimal digit of a value below sixteen. -/
def hexDigit (n : Nat) : Char := Char.ofNat (if n < 10 then 48 + n else 87 + n)

/-- The escape of one UTF-16 unit. -/
def unitEscape (n : Nat) : List Char :=
  ['\\', 'u', hexDigit (n / 4096 % 16), hexDigit (n / 256 % 16), hexDigit (n / 16 % 16),
    hexDigit (n % 16)]

/-- How one character is written between quotes. -/
def escapeChar (c : Char) : List Char :=
  match c with
  | '"' => ['\\', '"']
  | '\\' => ['\\', '\\']
  | '\n' => ['\\', 'n']
  | '\r' => ['\\', 'r']
  | '\t' => ['\\', 't']
  | '\x0c' => ['\\', 'f']
  | '\x08' => ['\\', 'b']
  | c =>
    let n := c.toNat
    if 32 ≤ n && n < 127 then [c]
    else if n < 0x10000 then unitEscape n
    else
      unitEscape (0xd800 + (n - 0x10000) / 0x400) ++ unitEscape (0xdc00 + (n - 0x10000) % 0x400)

/-- A string in quotes. -/
def quote (s : String) : String :=
  String.ofList ('"' :: (s.toList.flatMap escapeChar ++ ['"']))

/-! ## Numbers -/

/-- A double, in the fewest digits that read back. -/
def floatText (x : Float) : String :=
  if x.isNaN then "NaN"
  else if x.isInf then (if x > 0.0 then "Infinity" else "-Infinity")
  else String.ofList (finiteText x)

/-! ## Documents -/

/-- A value without parts. -/
def scalarText : Json → String
  | .null => "null"
  | .bool true => "true"
  | .bool false => "false"
  | .int n => toString n
  | .float x => floatText x
  | .str s => quote s
  | .arr _ => "[]"
  | .obj _ => "\x7b\x7d"

mutual

/-- The document on one line. -/
def compact : Json → String
  | .arr items => "[" ++ ",".intercalate (compactItems items) ++ "]"
  | .obj fields => "\x7b" ++ ",".intercalate (compactFields fields) ++ "\x7d"
  | v => scalarText v

/-- The items of an array, each on its own. -/
def compactItems : List Json → List String
  | [] => []
  | v :: rest => compact v :: compactItems rest

/-- The fields of an object, each with its name. -/
def compactFields : List (String × Json) → List String
  | [] => []
  | (name, v) :: rest => (quote name ++ ":" ++ compact v) :: compactFields rest

end

/-- A line break and the blanks of `depth` levels. -/
def lineBreak (depth : Nat) : String := "\n" ++ String.ofList (List.replicate (2 * depth) ' ')

/-- Parts between brackets, one a line, one level deeper than the brackets. -/
def block (depth : Nat) (opening closing : String) (parts : List String) : String :=
  opening ++ lineBreak (depth + 1) ++ ("," ++ lineBreak (depth + 1)).intercalate parts ++
    lineBreak depth ++ closing

mutual

/-- The document over several lines, its brackets at level `depth`. -/
def prettyAt (depth : Nat) : Json → String
  | .arr (v :: rest) => block depth "[" "]" (prettyItems (depth + 1) (v :: rest))
  | .obj (f :: rest) => block depth "\x7b" "\x7d" (prettyFields (depth + 1) (f :: rest))
  | v => scalarText v

/-- The items of an array at level `depth`. -/
def prettyItems (depth : Nat) : List Json → List String
  | [] => []
  | v :: rest => prettyAt depth v :: prettyItems depth rest

/-- The fields of an object at level `depth`. -/
def prettyFields (depth : Nat) : List (String × Json) → List String
  | [] => []
  | (name, v) :: rest => (quote name ++ ": " ++ prettyAt depth v) :: prettyFields depth rest

end

/-- The document over several lines, with an indent of two blanks for each level. -/
def pretty (document : Json) : String := prettyAt 0 document

end BranchTally.Json
