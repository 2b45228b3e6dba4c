-- SUMMARY: Shapes of lines that tell a parameter list from assignments, calls and markup.

import BranchTally.Logical.Expression
import BranchTally.Parameter.Default

/-! # Shapes of lines

An equals sign is a default only inside a parameter list. The tests below recognise the lines on
which it means something else. All of them read a line without its comments.
-/

namespace BranchTally

open Text

/-- The test holds at some place of the text, given the character before that place. -/
def anyPlace (test : Option Char → List Char → Bool) (before : Option Char) : List Char → Bool
  | [] => test before []
  | c :: rest => test before (c :: rest) || anyPlace test (some c) rest

/-- An arrow. -/
def arrow : List Char := ['=', '>']

/-- The line has an arrow. -/
def hasArrow (line : Line) : Bool := occurs arrow line

/-- The position of the first arrow, unless the line begins with it. -/
def arrowPosition? (line : Line) : Option Nat := (find? arrow line).filter (0 < ·)

/-! ## Declarations and assignments -/

/-- `type Name` or `interface Name`. -/
def isTypeDefinition (line : Line) : Bool :=
  (((oneOf? [['t', 'y', 'p', 'e'], ['i', 'n', 't', 'e', 'r', 'f', 'a', 'c', 'e']]
    (skipBlanks line)).bind blanks?).bind word?).isSome

/-- `const name =` and a value that does not begin with a parenthesis. -/
def isDeclaredAssignment (line : Line) : Bool :=
  (declaredValue? line).any fun value =>
    !value.isEmpty && (skipBlanks value).head? ≠ some '('

/-- The text after a closing parenthesis goes on with an arrow. -/
def arrowAfterParens (s : Line) : Bool :=
  match s.dropWhile (· ≠ ')') with
  | [] => false
  | _ :: rest => arrow.isPrefixOf (skipBlanks rest)

/-- `const name =` and an arrow function. -/
def isArrowAssignment (line : Line) : Bool :=
  (declaredValue? line).any fun value =>
    (spacedChar? '(' value).any arrowAfterParens ||
      (!(value.takeWhile (· ≠ '=')).isEmpty && arrow.isPrefixOf (value.dropWhile (· ≠ '=')))

/-- An equals sign stands after a `(` and before any `)`. -/
def hasEqualsInParens (line : Line) : Bool :=
  anyTail (fun s =>
    match s with
    | '(' :: rest => (rest.takeWhile (· ≠ ')')).contains '='
    | _ => false) line

/-- `name = name` outside parameter lists and object literals. -/
def isRegularAssignment (line : Line) : Bool :=
  (((word? (skipBlanks line)).bind (spacedChar? '=')).bind fun s => word? (skipBlanks s)).isSome &&
    !hasEqualsInParens line && (trim line).getLast? ≠ some ',' &&
    !(line.contains '{' || line.contains '}')

/-- `object.method(` on a line without an arrow. -/
def isMethodCall (line : Line) : Bool :=
  anyPlace (fun before s =>
    before.any isWord &&
      (((char? '.' s).bind word?).bind (spacedChar? '(')).isSome) none line && !hasArrow line

/-- The pieces of a text between dots. -/
def dotPieces : List Char → List (List Char)
  | [] => [[]]
  | c :: rest =>
    if c = '.' then [] :: dotPieces rest
    else
      match dotPieces rest with
      | [] => [[c]]
      | piece :: more => (c :: piece) :: more

/-- `object.property =`. -/
def isPropertyAssignment (line : Line) : Bool :=
  let s := skipBlanks line
  let path := dotPieces (s.takeWhile fun c => isWord c || c = '.')
  2 ≤ path.length && path.all (fun piece => !piece.isEmpty) &&
    (spacedChar? '=' (s.dropWhile fun c => isWord c || c = '.')).isSome

/-- `}, [` on one line. -/
def hasDependencyArray (line : Line) : Bool :=
  anyTail (fun s =>
    (((char? '}' s).bind (spacedChar? ',')).bind (spacedChar? '[')).isSome) line

/-- `},` at the end of the line. -/
def endsWithBraceComma (line : Line) : Bool :=
  match (trimEnd line).reverse with
  | ',' :: rest => (skipBlanks rest).head? = some '}'
  | _ => false

/-- `}, [` that closes a hook callback, on one line or split over two. -/
def isDependencyArray (line : Line) (f : Focus) : Bool :=
  hasDependencyArray line ||
    match f.before with
    | above :: _ =>
      endsWithBraceComma (stripComments above) && (skipBlanks line).head? = some '['
    | [] => false

/-! ## Signatures -/

/-- `function name(`, `const name =` and the like open the line. -/
def opensNamedFunction (line : Line) : Bool :=
  let s := skipBlanks line
  let s := ((literal? ['e', 'x', 'p', 'o', 'r', 't'] s).bind blanks?).getD s
  let keywords := ['f', 'u', 'n', 'c', 't', 'i', 'o', 'n'] :: declarators
  match (((oneOf? keywords s).bind blanks?).bind word?).map skipBlanks with
  | some (c :: _) => c = '=' || c = '('
  | _ => false

/-- A `{` stands after a `(` and before any `)`, and is closed further on. -/
def hasBracesInParens (line : Line) : Bool :=
  anyTail (fun s =>
    match s with
    | '(' :: rest =>
      match rest.dropWhile fun c => c ≠ '{' && c ≠ ')' with
      | '{' :: tail => tail.contains '}'
      | _ => false
    | _ => false) line

/-- The line may be the head of a function; `isArrow` tells that it has an arrow. -/
def hasSignature (line : Line) (isArrow : Bool) : Bool :=
  opensNamedFunction line || (skipBlanks line).head? = some '(' ||
    anyTail (fun s => ((literal? arrow s).bind (spacedChar? '(')).isSome) line ||
    anyTail (fun s => (((char? '.' s).bind word?).bind (spacedChar? '(')).isSome) line ||
    hasBracesInParens line || (isArrow && line.contains '(')

/-! ## Markup -/

/-- A tag begins at the front, as `<a` or `</a`. -/
def opensTag (s : Line) : Bool :=
  match s with
  | '<' :: '/' :: c :: _ => isLatinLetter c
  | '<' :: c :: _ => isLatinLetter c
  | _ => false

/-- `<a` stands at the front. -/
def opensStartTag (s : Line) : Bool :=
  match s with
  | '<' :: c :: _ => isLatinLetter c
  | _ => false

/-- `/>` or `</a` stands at the front. -/
def closesTag (s : Line) : Bool :=
  match s with
  | '/' :: '>' :: _ => true
  | '<' :: '/' :: c :: _ => isLatinLetter c
  | _ => false

/-- The line has part of a tag. -/
def hasTag (line : Line) : Bool := anyTail (fun s => opensTag s || closesTag s) line

/-- The line has a `{` that is closed further on. -/
def hasBraces (line : Line) : Bool :=
  anyTail (fun s =>
    match s with
    | '{' :: rest => rest.contains '}'
    | _ => false) line

/-- `name=` and a quote or brace, at the start of the line or after a blank. -/
def hasAttribute (line : Line) : Bool :=
  anyPlace (fun before s =>
    before.all isBlank &&
      match ((word? s).bind (spacedChar? '=')).map skipBlanks with
      | some (c :: _) => c = '"' || c = '\'' || c = '{'
      | _ => false) none line

/-- A statement that is no markup opens the line. -/
def opensStatement (line : Line) : Bool :=
  let keywords :=
    ['f', 'u', 'n', 'c', 't', 'i', 'o', 'n'] :: declarators ++
      [['r', 'e', 't', 'u', 'r', 'n'], ['i', 'f'], ['f', 'o', 'r'], ['w', 'h', 'i', 'l', 'e']]
  keywords.any fun word => ((literal? word (skipBlanks line)).bind blanks?).isSome

/-- The nearest of these lines that settles the matter leaves a tag open. -/
def isInsideTag : List Line → Bool
  | [] => false
  | above :: rest =>
    let line := stripComments above
    if anyTail closesTag line then false
    else if anyTail opensStartTag line then true
    else if opensStatement line then false
    else isInsideTag rest

/-- How many lines above are searched for an open tag. -/
def tagLookback : Nat := 10

/-- `prop="value"` or `prop={expr}` inside a tag. -/
def isMarkupAttribute (line : Line) (f : Focus) : Bool :=
  hasAttribute line && (hasBraces line || hasTag line || isInsideTag (f.before.take tagLookback))

/-! ## Lines without defaults -/

/-- An equals sign on the line is no default of an arrow function. -/
def isNoArrowContext (line : Line) (f : Focus) : Bool :=
  isTypeDefinition line || isReturn line || isMethodCall line || isRegularAssignment line ||
    isPropertyAssignment line || hasDependencyArray line || isMarkupAttribute line f

/-- An equals sign on the line is no default of any function. -/
def isExcluded (line : Line) (f : Focus) : Bool :=
  isDeclaredAssignment line || isArrowAssignment line || isNoArrowContext line f

end BranchTally
