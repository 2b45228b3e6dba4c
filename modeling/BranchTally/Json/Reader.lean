-- SUMMARY: Reads JSON text; a fault tells what was missing and at which character.

import BranchTally.Json.Value

/-! # Reading JSON

The reader is strict about white space, control characters and leading zeros, and lenient in three
ways: `NaN` and the two infinities are numbers, a repeated name takes its last value, and half of a
surrogate pair is read as the replacement character.

A fault carries the number of characters that were left where it was noticed, so that the reader need
not count as it goes; `Json.parse` turns that into a position from the front.
-/

namespace BranchTally.Json

/-! ## Faults -/

/-- What is wrong with a JSON text. -/
inductive FaultKind where
  | byteOrderMark
  | value
  | name
  | colon
  | comma
  | extraData
  | controlCharacter
  | unterminated
  | escape
  | unicodeEscape
  deriving DecidableEq

/-- A fault, with the number of characters left from its place to the end. -/
structure Fault where
  kind : FaultKind
  left : Nat
  deriving DecidableEq

/-- A piece that was read, and the text after it. -/
abbrev Taken (α : Type) := α × List Char

/-! ## Pieces -/

/-- The white space between the tokens of JSON. -/
def isSpace (c : Char) : Bool := c = ' ' || c = '\t' || c = '\n' || c = '\r'

/-- The text after leading white space. -/
def skipSpace (s : List Char) : List Char := s.dropWhile isSpace

/-- An ASCII digit. -/
def isDigit (c : Char) : Bool := '0' ≤ c && c ≤ '9'

/-- The value of a hexadecimal digit. -/
def hexValue? (c : Char) : Option Nat :=
  if '0' ≤ c && c ≤ '9' then some (c.toNat - 48)
  else if 'a' ≤ c && c ≤ 'f' then some (c.toNat - 87)
  else if 'A' ≤ c && c ≤ 'F' then some (c.toNat - 55)
  else none

/-- The number that four hexadecimal digits write, where something follows them. -/
def hexQuad? : List Char → Option (Nat × List Char)
  | a :: b :: c :: d :: e :: rest => do
    let a ← hexValue? a
    let b ← hexValue? b
    let c ← hexValue? c
    let d ← hexValue? d
    pure (((a * 16 + b) * 16 + c) * 16 + d, e :: rest)
  | _ => none

/-- What an escape of one letter stands for. -/
def escaped? (c : Char) : Option Char :=
  match c with
  | '"' => some '"'
  | '\\' => some '\\'
  | '/' => some '/'
  | 'b' => some '\x08'
  | 'f' => some '\x0c'
  | 'n' => some '\n'
  | 'r' => some '\r'
  | 't' => some '\t'
  | _ => none

/-- The first half of a surrogate pair. -/
def isHighHalf (n : Nat) : Bool := 0xd800 ≤ n && n < 0xdc00

/-- The second half of a surrogate pair. -/
def isLowHalf (n : Nat) : Bool := 0xdc00 ≤ n && n < 0xe000

/-- The character of a code point; half a pair gives the replacement character. -/
def charOf (n : Nat) : Char :=
  if 0xd800 ≤ n && n < 0xe000 then Char.ofNat 0xfffd else Char.ofNat n

/-- Reads the code after `\u`. A pair of halves makes one character, provided that the text does not
end with the pair. -/
def unicodeEscape (s : List Char) : Except Fault (Taken Char) :=
  match hexQuad? s with
  | none => .error ⟨.unicodeEscape, s.length + 1⟩
  | some (high, rest) =>
    match isHighHalf high, rest with
    | true, '\\' :: 'u' :: tail =>
      if tail.length < 5 then .ok (charOf high, rest)
      else
        match hexQuad? tail with
        | none => .error ⟨.unicodeEscape, tail.length + 1⟩
        | some (low, rest') =>
          if isLowHalf low then
            .ok (Char.ofNat (0x10000 + (high - 0xd800) * 0x400 + (low - 0xdc00)), rest')
          else .ok (charOf high, rest)
    | _, _ => .ok (charOf high, rest)

/-- Reads the rest of a string, up to its closing quote. `start` is the number of characters left at
the opening quote. -/
def stringTail (start : Nat) : (fuel : Nat) → (done : List Char) → List Char → Except Fault (Taken String)
  | 0, _, _ => .error ⟨.unterminated, start⟩
  | _, _, [] => .error ⟨.unterminated, start⟩
  | fuel + 1, done, c :: rest =>
    if c = '"' then .ok (String.ofList done.reverse, rest)
    else if c = '\\' then
      match rest with
      | [] => .error ⟨.unterminated, start⟩
      | 'u' :: code =>
        match unicodeEscape code with
        | .error fault => .error fault
        | .ok (d, rest') => stringTail start fuel (d :: done) rest'
      | e :: rest' =>
        match escaped? e with
        | none => .error ⟨.escape, rest.length + 1⟩
        | some d => stringTail start fuel (d :: done) rest'
    else if c.toNat < 0x20 then .error ⟨.controlCharacter, rest.length + 1⟩
    else stringTail start fuel (c :: done) rest

/-- The number that decimal digits write. -/
def digitsValue (digits : List Char) : Nat :=
  digits.foldl (fun n c => n * 10 + (c.toNat - 48)) 0

/-- The double nearest to `mantissa · 10 ^ exponent`. Powers far outside the range of doubles are not
worked out. -/
def floatOf (negative : Bool) (mantissa : Nat) (exponent : Int) : Float :=
  let size : Int := (Nat.toDigits 10 mantissa).length + exponent
  let magnitude : Float :=
    if mantissa = 0 ∨ size < -400 then 0.0
    else if size > 400 then 1.0 / 0.0
    else Float.ofScientific mantissa (exponent < 0) exponent.natAbs
  if negative then -magnitude else magnitude

/-- An exponent: the mark, an optional sign and digits. -/
def exponent? (s : List Char) : Option (Int × List Char) :=
  match s with
  | c :: rest =>
    if c = 'e' || c = 'E' then
      let (negative, digits) : Bool × List Char :=
        match rest with
        | '-' :: tail => (true, tail)
        | '+' :: tail => (false, tail)
        | _ => (false, rest)
      let taken := digits.takeWhile isDigit
      if taken.isEmpty then none
      else
        let n : Int := digitsValue taken
        some (if negative then -n else n, digits.dropWhile isDigit)
    else none
  | [] => none

/-- Reads a number, or the three words that stand for one. A whole part is all that is required; a
fraction or an exponent makes the number a double. -/
def number (s : List Char) : Except Fault (Taken Json) :=
  let (negative, body) : Bool × List Char :=
    match s with
    | '-' :: rest => (true, rest)
    | _ => (false, s)
  let whole : Option (List Char × List Char) :=
    match body with
    | [] => none
    | c :: rest =>
      if c = '0' then some ([c], rest)
      else if isDigit c then some (c :: rest.takeWhile isDigit, rest.dropWhile isDigit)
      else none
  match whole with
  | none => .error ⟨.value, s.length⟩
  | some (digits, rest) =>
    let (fraction, afterFraction) : List Char × List Char :=
      match rest with
      | '.' :: d :: tail =>
        if isDigit d then (d :: tail.takeWhile isDigit, tail.dropWhile isDigit) else ([], rest)
      | _ => ([], rest)
    let sign (n : Nat) : Int := if negative then -(n : Int) else n
    match exponent? afterFraction with
    | some (e, rest') =>
      .ok (.float (floatOf negative (digitsValue (digits ++ fraction)) (e - fraction.length)), rest')
    | none =>
      if fraction.isEmpty then .ok (.int (sign (digitsValue digits)), rest)
      else
        .ok (.float (floatOf negative (digitsValue (digits ++ fraction)) (-fraction.length)),
          afterFraction)

/-- The words that stand for a value. -/
def words : List (List Char × Json) :=
  [(['n', 'u', 'l', 'l'], .null), (['t', 'r', 'u', 'e'], .bool true),
   (['f', 'a', 'l', 's', 'e'], .bool false), (['N', 'a', 'N'], .float (0.0 / 0.0)),
   (['I', 'n', 'f', 'i', 'n', 'i', 't', 'y'], .float (1.0 / 0.0)),
   (['-', 'I', 'n', 'f', 'i', 'n', 'i', 't', 'y'], .float (-1.0 / 0.0))]

/-- The value of the word at the front. -/
def word? (s : List Char) : Option (Json × List Char) :=
  words.findSome? fun w => (w.1.isPrefixOf? s).map fun rest => (w.2, rest)

/-! ## Values -/

mutual

/-- Reads one value. Each level of nesting costs two units of fuel and each further item or field one,
and each takes at least one character, so twice the length of the text is fuel enough. -/
def value : (fuel : Nat) → List Char → Except Fault (Taken Json)
  | 0, s => .error ⟨.value, s.length⟩
  | fuel + 1, s =>
    match s with
    | '"' :: rest => do
      let (text, rest') ← stringTail s.length (rest.length + 1) [] rest
      pure (.str text, rest')
    | '{' :: rest =>
      match skipSpace rest with
      | '}' :: rest' => .ok (.obj [], rest')
      | rest' => fields fuel [] rest'
    | '[' :: rest =>
      match skipSpace rest with
      | ']' :: rest' => .ok (.arr [], rest')
      | rest' => items fuel [] rest'
    | _ =>
      match word? s with
      | some found => .ok found
      | none => number s

/-- Reads the items of an array from its first or next item on. -/
def items : (fuel : Nat) → (done : List Json) → List Char → Except Fault (Taken Json)
  | 0, _, s => .error ⟨.value, s.length⟩
  | fuel + 1, done, s => do
    let (item, rest) ← value fuel s
    match skipSpace rest with
    | ']' :: rest' => .ok (.arr (item :: done).reverse, rest')
    | ',' :: rest' => items fuel (item :: done) (skipSpace rest')
    | rest' => .error ⟨.comma, rest'.length⟩

/-- Reads the fields of an object from its first or next name on. -/
def fields : (fuel : Nat) → (done : List (String × Json)) → List Char → Except Fault (Taken Json)
  | 0, _, s => .error ⟨.name, s.length⟩
  | fuel + 1, done, s =>
    match s with
    | '"' :: rest => do
      let (name, rest') ← stringTail s.length (rest.length + 1) [] rest
      match skipSpace rest' with
      | ':' :: rest'' => do
        let (item, tail) ← value fuel (skipSpace rest'')
        let done' := putField name item done
        match skipSpace tail with
        | '}' :: tail' => .ok (.obj done', tail')
        | ',' :: tail' => fields fuel done' (skipSpace tail')
        | tail' => .error ⟨.comma, tail'.length⟩
      | rest'' => .error ⟨.colon, rest''.length⟩
    | _ => .error ⟨.name, s.length⟩

end

/-- Reads a text that is one JSON document; a fault comes with its position from the front. -/
def parse (s : List Char) : Except (FaultKind × Nat) Json :=
  let place (fault : Fault) : FaultKind × Nat := (fault.kind, s.length - fault.left)
  match s with
  | '\ufeff' :: _ => .error (.byteOrderMark, 0)
  | _ =>
    match value (2 * s.length + 2) (skipSpace s) with
    | .error fault => .error (place fault)
    | .ok (document, rest) =>
      match skipSpace rest with
      | [] => .ok document
      | rest' => .error (place ⟨.extraData, rest'.length⟩)

end BranchTally.Json
