-- SUMMARY: The control-flow keywords that open on a line, each with the parentheses of its condition.

import BranchTally.Line.Token
import BranchTally.Point

/-! # Control headers

A header is a control keyword in live code together with what its grammar requires right after it,
such as the `(` of an `if`. A keyword after a dot or a dollar sign is a name, not a keyword. Of each
keyword the first live header on the line is kept.
-/

namespace BranchTally

open Text

/-! ## Parentheses -/

/-- The position of the parenthesis that balances the ones open in the masked text at position
`pos`; string content does not count. -/
def closingParenFrom (depth : Int) (pos : Nat) : List (Char × Bool) → Option Nat
  | [] => none
  | (c, masked) :: rest =>
    if masked then closingParenFrom depth (pos + 1) rest
    else if c = '(' then closingParenFrom (depth + 1) (pos + 1) rest
    else if c = ')' then
      if depth = 1 then some pos else closingParenFrom (depth - 1) (pos + 1) rest
    else closingParenFrom depth (pos + 1) rest

/-- The position of the `)` that balances the `(` at `opening`. -/
def closingParen? (line : Line) (opening : Nat) : Option Nat :=
  closingParenFrom 0 opening ((maskedCells line).drop opening)

/-- The parentheses of a condition; without a closing one it goes on below the line. -/
structure Parens where
  opening : Nat
  closing : Option Nat
  deriving DecidableEq

/-- A control keyword with the parentheses that follow it, if its form has any. -/
structure Header where
  start : Nat
  parens : Option Parens
  deriving DecidableEq

/-! ## Keyword forms -/

/-- The text after a header, and whether the header ends with a parenthesis. -/
structure HeaderTail where
  rest : List Char
  isParen : Bool

/-- The form of a keyword: given the character before, it takes a header off the front of a text. -/
abbrev KeywordForm := Option Char → List Char → Option HeaderTail

/-- A keyword may begin after this character. -/
def mayOpenKeyword (before : Option Char) : Bool :=
  atWordStart before && before ≠ some '.' && before ≠ some '$'

/-- A keyword and its opening parenthesis. -/
def parenForm (word : List Char) : KeywordForm := fun before s =>
  if mayOpenKeyword before then
    ((literal? word s).bind (spacedChar? '(')).map (⟨·, true⟩)
  else none

/-- `if (` -/
def ifForm : KeywordForm := parenForm ['i', 'f']

/-- `while (` -/
def whileForm : KeywordForm := parenForm ['w', 'h', 'i', 'l', 'e']

/-- `switch (` -/
def switchForm : KeywordForm := parenForm ['s', 'w', 'i', 't', 'c', 'h']

/-- `else if (`, also after a dot or a dollar sign. -/
def elseIfForm : KeywordForm := fun before s =>
  if atWordStart before then
    ((((literal? ['e', 'l', 's', 'e'] s).bind blanks?).bind (literal? ['i', 'f'])).bind
      (spacedChar? '(')).map (⟨·, true⟩)
  else none

/-- `for (` and `for await (` -/
def forForm : KeywordForm := fun before s =>
  if mayOpenKeyword before then
    match literal? ['f', 'o', 'r'] s with
    | none => none
    | some rest =>
      let rest := skipBlanks rest
      let rest := (literal? ['a', 'w', 'a', 'i', 't'] rest).getD rest
      (spacedChar? '(' rest).map (⟨·, true⟩)
  else none

/-- `do {`, or `do` at the end of the line. -/
def doForm : KeywordForm := fun before s =>
  if mayOpenKeyword before then
    match literal? ['d', 'o'] s with
    | none => none
    | some rest =>
      match skipBlanks rest with
      | [] => some ⟨[], false⟩
      | c :: rest => if c = '{' then some ⟨rest, false⟩ else none
  else none

/-- `catch (` and `catch {` -/
def catchForm : KeywordForm := fun before s =>
  if mayOpenKeyword before then
    match (literal? ['c', 'a', 't', 'c', 'h'] s).map skipBlanks with
    | some (c :: rest) =>
      if c = '(' then some ⟨rest, true⟩ else if c = '{' then some ⟨rest, false⟩ else none
    | _ => none
  else none

/-! ## Headers of a line -/

/-- Where a form fits in the text that begins at `pos` after the character `before`: the start of
each header, with its opening parenthesis. -/
def headersFrom (form : KeywordForm) (before : Option Char) (pos : Nat) :
    Line → List (Nat × Option Nat)
  | [] => []
  | c :: rest =>
    match form before (c :: rest) with
    | none => headersFrom form (some c) (pos + 1) rest
    | some tail =>
      let opening := pos + rest.length - tail.rest.length
      (pos, if tail.isParen then some opening else none) :: headersFrom form (some c) (pos + 1) rest

/-- The first live header of a form at a position that is not to be skipped. -/
def header? (form : KeywordForm) (skip : Nat → Bool) (live : LiveMap) (line : Line) :
    Option Header :=
  match (headersFrom form none 0 line).find? fun h => live.isLive h.1 && !skip h.1 with
  | none => none
  | some (start, none) => some ⟨start, none⟩
  | some (start, some opening) => some ⟨start, some ⟨opening, closingParen? line opening⟩⟩

/-- The text ends with the word `else` and at least one blank. -/
def endsWithElse (s : Line) : Bool :=
  match s.reverse with
  | c :: rest =>
    isBlank c &&
      match literal? ['e', 's', 'l', 'e'] (rest.dropWhile isBlank) with
      | some above => atWordStart above.head?
      | none => false
  | [] => false

/-- `} while (` at the start of the line, the end of a `do` loop. -/
def isDoTail (line : Line) : Bool :=
  (((spacedChar? '}' line).map skipBlanks).bind fun s =>
    (literal? ['w', 'h', 'i', 'l', 'e'] s).bind (spacedChar? '(')).isSome

/-- `case` or `default:` at the start of the line. -/
def isCase (line : Line) : Bool :=
  let s := skipBlanks line
  ((literal? ['c', 'a', 's', 'e'] s).any atWordEnd) ||
    ((literal? ['d', 'e', 'f', 'a', 'u', 'l', 't'] s).bind (spacedChar? ':')).isSome

/-! ## Loop headers -/

/-- The words that begin a declaration of variables. -/
def declarators : List (List Char) := [['c', 'o', 'n', 's', 't'], ['l', 'e', 't'], ['v', 'a', 'r']]

/-- A blank, `of` or `in`, and another blank stand at the front. -/
def eachWordAt? (s : List Char) : Option Kind :=
  match blanks? s with
  | none => none
  | some s =>
    if ((literal? ['o', 'f'] s).bind blanks?).isSome then some .forOf
    else if ((literal? ['i', 'n'] s).bind blanks?).isSome then some .forIn
    else none

/-- The first such word of the text with something before it on the same line. -/
def eachWord? : List Char → Option Kind
  | [] => none
  | c :: rest => if c = '\n' then none else (eachWordAt? rest).or (eachWord? rest)

/-- The text with ever fewer of its leading blanks removed, from all of them to none. -/
def backOff : List Char → List (List Char)
  | [] => [[]]
  | c :: rest => if isBlank c then backOff rest ++ [c :: rest] else [c :: rest]

/-- The kind of a `for` loop from the text between its parentheses: a semicolon makes a counting
loop, else the first `of` or `in` decides. Blanks in front are given up one by one where there is no
such word after them, since a loop variable may be missing. -/
def forKindOf (header : List Char) : Kind :=
  if header.contains ';' then .forLoop
  else
    let declared :=
      match oneOf? declarators (skipBlanks header) with
      | some s => (backOff s).dropLast
      | none => []
    ((declared ++ backOff header).findSome? eachWord?).getD .forLoop

/-- The text between the parentheses, up to the end of the line where they stay open. -/
def Parens.inside (p : Parens) (line : Line) : Line :=
  match p.closing with
  | some closing => (line.take closing).drop (p.opening + 1)
  | none => line.drop (p.opening + 1)

/-- The kind of a `for` loop from its header. -/
def forKind (line : Line) (h : Header) : Kind :=
  match h.parens with
  | some p => forKindOf (p.inside line)
  | none => .forLoop

/-! ## All headers together -/

/-- The control constructs that open on a line. -/
structure Headers where
  ifHeader : Option Header := none
  elseIf : Option Header := none
  forHeader : Option Header := none
  forKind : Kind := .forLoop
  whileHeader : Option Header := none
  doTail : Option Header := none
  doHeader : Option Header := none
  switchHeader : Option Header := none
  isCase : Bool := false
  catchHeader : Option Header := none

namespace Headers

/-- A loop condition with `while`, of either sort. -/
def hasWhile (h : Headers) : Bool := h.whileHeader.isSome || h.doTail.isSome

/-- The short-circuit operators of the line belong to a condition. -/
def isControl (h : Headers) : Bool :=
  h.ifHeader.isSome || h.elseIf.isSome || h.forHeader.isSome || h.hasWhile ||
    h.switchHeader.isSome || h.catchHeader.isSome

/-- The headers of a line. An `if` after `else` is an `else if` only, and the `while` of a line that
ends a `do` loop opens no loop of its own. -/
def of (line : Line) : Headers :=
  let live := LiveMap.of line
  let first (form : KeywordForm) : Option Header := header? form (fun _ => false) live line
  let loop := first forForm
  let condition := first whileForm
  let closesDo := BranchTally.isDoTail line
  { ifHeader := header? ifForm (fun i => endsWithElse (line.take i)) live line
    elseIf := first elseIfForm
    forHeader := loop
    forKind := (loop.map (BranchTally.forKind line)).getD .forLoop
    whileHeader := if closesDo then none else condition
    doTail := if closesDo then condition else none
    doHeader := first doForm
    switchHeader := first switchForm
    isCase := BranchTally.isCase line
    catchHeader := first catchForm }

end Headers

end BranchTally
