-- SUMMARY: Reads files of environment variables: names, quoted and plain values, and references.

import BranchTally.Text.Front

/-! # Environment files

A file of this kind has one variable a line. A value may stand in single or double quotes, and then
goes on over line breaks; a plain value ends with its line or before a comment. A line that does not
fit is skipped. References to other variables, such as `$` with a name in braces, are filled in
afterwards, in all values.

The program leaves these files to a library, so the settings take their reader as an `EnvReader`. The
reader given here is a stand-in for that library and follows its documentation.
-/

namespace BranchTally

namespace EnvFile

open Text

/-- A variable; a name without an equals sign has no value. -/
abbrev Binding := List Char × Option (List Char)

/-! ## Pieces -/

/-- White space within a line. -/
def isGap (c : Char) : Bool := isBlank c && c ≠ '\n'

/-- The text after white space within the line. -/
def skipGap (s : List Char) : List Char := s.dropWhile isGap

/-- The text with one line feed for every line break. -/
def unixBreaks : List Char → List Char
  | '\r' :: '\n' :: rest => '\n' :: unixBreaks rest
  | '\r' :: rest => '\n' :: unixBreaks rest
  | c :: rest => c :: unixBreaks rest
  | [] => []

/-- The text after the word that may stand before a name. -/
def skipExport (s : List Char) : List Char :=
  match literal? "export".toList s with
  | some (c :: rest) => if isGap c then skipGap rest else s
  | _ => s

/-- Takes the rest of a quoted text up to its closing quote. A backslash takes a quote after it along,
unless no other quote closes the text: then the last such quote does. -/
def closeQuote (q : Char) : (done : List Char) → (fallback : Option (List Char × List Char)) →
    List Char → Option (List Char × List Char)
  | _, fallback, [] => fallback
  | done, fallback, '\\' :: c :: rest =>
    if c = q then closeQuote q (c :: '\\' :: done) (some (('\\' :: done).reverse, rest)) rest
    else closeQuote q ('\\' :: done) fallback (c :: rest)
  | done, fallback, c :: rest =>
    if c = q then some (done.reverse, rest) else closeQuote q (c :: done) fallback rest

/-- What an escape stands for between double quotes. -/
def doubleEscape? (c : Char) : Option Char :=
  match c with
  | '\\' => some '\\'
  | '\'' => some '\''
  | '"' => some '"'
  | 'a' => some '\x07'
  | 'b' => some '\x08'
  | 'f' => some '\x0c'
  | 'n' => some '\n'
  | 'r' => some '\r'
  | 't' => some '\t'
  | 'v' => some '\x0b'
  | _ => none

/-- What an escape stands for between single quotes. -/
def singleEscape? (c : Char) : Option Char := if c = '\\' || c = '\'' then some c else none

/-- A text with its escapes taken. -/
def unescape (escape? : Char → Option Char) : List Char → List Char
  | '\\' :: c :: rest =>
    match escape? c with
    | some d => d :: unescape escape? rest
    | none => '\\' :: unescape escape? (c :: rest)
  | c :: rest => c :: unescape escape? rest
  | [] => []

/-- A plain value: what stands before a comment that white space parts from it. -/
def beforeComment (before : Option Char) : List Char → List Char
  | [] => []
  | c :: rest =>
    if c = '#' && before.any isBlank then [] else c :: beforeComment (some c) rest

/-- Takes a value, up to where the line has to end. -/
def value? (s : List Char) : Option (List Char × List Char) :=
  match s with
  | '\'' :: rest =>
    (closeQuote '\'' [] none rest).map fun p => (unescape singleEscape? p.1, p.2)
  | '"' :: rest => (closeQuote '"' [] none rest).map fun p => (unescape doubleEscape? p.1, p.2)
  | _ =>
    some (trimEnd (beforeComment none (firstLine s)), s.dropWhile (· ≠ '\n'))

/-- Takes a name. A comment has none. -/
def name? (s : List Char) : Option (Option (List Char) × List Char) :=
  match s with
  | '#' :: _ => some (none, s)
  | '\'' :: rest =>
    match rest.takeWhile (· ≠ '\''), rest.dropWhile (· ≠ '\'') with
    | c :: name, _ :: tail => some (some (c :: name), tail)
    | _, _ => none
  | _ =>
    let isPart (c : Char) : Bool := c ≠ '=' && c ≠ '#' && !isBlank c
    match s.takeWhile isPart with
    | [] => none
    | name => some (some name, s.dropWhile isPart)

/-- The text after a comment, if one stands here. -/
def skipComment (s : List Char) : List Char :=
  match skipGap s with
  | '#' :: rest => rest.dropWhile (· ≠ '\n')
  | _ => s

/-- The text after the end of the line, which has to be here. -/
def lineEnd? (s : List Char) : Option (List Char) :=
  match skipGap s with
  | [] => some []
  | c :: rest => if c = '\n' then some rest else none

/-! ## Lines -/

/-- One step of reading: a variable, if the line has one, and the text after it. `stopped` is where
a line that does not fit was left, so that the rest of it can be skipped. -/
inductive Step where
  | bound (binding : Binding) (rest : List Char)
  | nothing (rest : List Char)
  | stopped (at' : List Char)

/-- Ends a line after its value. -/
def finish (name : Option (List Char)) (value : Option (List Char)) (s : List Char) : Step :=
  let tail := skipComment s
  match lineEnd? tail, name with
  | some rest, some name => .bound (name, value) rest
  | some rest, none => .nothing rest
  | none, _ => .stopped tail

/-- Reads one line, which is not blank. -/
def readLine (s : List Char) : Step :=
  let start := skipExport s
  match name? start with
  | none => .stopped start
  | some (name, tail) =>
    match skipGap tail with
    | '=' :: rest =>
      let here := skipGap rest
      match value? here with
      | some (value, rest') => finish name (some value) rest'
      | none => .stopped here
    | tail' => finish name none tail'

/-- Skips the rest of a line. -/
def skipLine (s : List Char) : List Char := (s.dropWhile (· ≠ '\n')).drop 1

/-- Reads all lines. Each takes a character at least, so the length of the text is fuel enough. -/
def readFrom : (fuel : Nat) → List Char → List Binding
  | 0, _ => []
  | fuel + 1, s =>
    match skipBlanks s with
    | [] => []
    | line =>
      match readLine line with
      | .bound binding rest => binding :: readFrom fuel rest
      | .nothing rest => readFrom fuel rest
      | .stopped here => readFrom fuel (skipLine here)

/-- The variables of a file, as they are written. -/
def bindings (s : List Char) : List Binding :=
  let s := unixBreaks s
  readFrom (s.length + 1) s

/-! ## References -/

/-- Variables with their values, the last of equal names first. -/
abbrev Known := List (List Char × Option (List Char))

/-- The name and the default of a reference, after its dollar sign. -/
def reference? (s : List Char) : Option (List Char × List Char × List Char) :=
  match s with
  | '\x7b' :: rest =>
    let isName (c : Char) : Bool := c ≠ '\x7d' && c ≠ ':'
    let name := rest.takeWhile isName
    match rest.dropWhile isName with
    | '\x7d' :: tail => some (name, [], tail)
    | ':' :: '-' :: tail =>
      match tail.dropWhile (· ≠ '\x7d') with
      | _ :: tail' => some (name, tail.takeWhile (· ≠ '\x7d'), tail')
      | [] => none
    | _ => none
  | _ => none

/-- Fills in the references of a value. A name without a value counts as empty; the default is for
names that are not known. -/
def fillFrom (known : Known) : (fuel : Nat) → List Char → List Char
  | 0, s => s
  | _, [] => []
  | fuel + 1, c :: rest =>
    match if c = '$' then reference? rest else none with
    | some (name, default, tail) =>
      let value := match known.lookup name with
        | some v => v.getD []
        | none => default
      value ++ fillFrom known fuel tail
    | none => c :: fillFrom known fuel rest

/-- The variables with their references filled in, each from the variables before it and then from
the environment. -/
def resolve (known : Known) : List Binding → List Binding
  | [] => []
  | (name, value) :: rest =>
    let filled := value.map fun v => fillFrom known v.length v
    (name, filled) :: resolve ((name, filled) :: known) rest

end EnvFile

/-- Reads a file of variables in an environment. -/
abbrev EnvReader := (environment : List (List Char × List Char)) → List Char → List EnvFile.Binding

/-- Reads variables line by line, and fills the references in with the environment and each other. -/
def EnvFile.read : EnvReader := fun environment s =>
  resolve (environment.reverse.map fun e => (e.1, some e.2)) (bindings s)

end BranchTally
