-- SUMMARY: Which lines hold short-circuit operators of an expression, and who owns these.

import BranchTally.Control

/-! # Operators outside conditions

The `&&` and `||` of `if`, loop, `switch` and `catch` conditions are counted with their header. All
others are found here: returns, assignments, parenthesised expressions, markup such as
`{ready && <App/>}` and bare expressions.
-/

namespace BranchTally

open Text

/-! ## Shapes of lines -/

/-- `return` and a blank open the line. -/
def isReturn (line : Line) : Bool :=
  ((literal? ['r', 'e', 't', 'u', 'r', 'n'] (skipBlanks line)).bind blanks?).isSome

/-- The text after the `=` of a declaration `const name =` that opens the line. -/
def declaredValue? (line : Line) : Option Line :=
  (((oneOf? declarators (skipBlanks line)).bind blanks?).bind word?).bind (spacedChar? '=')

/-- A declaration opens the line and has two adjacent operator characters in its value. -/
def isBooleanAssignment (line : Line) : Bool :=
  (declaredValue? line).any fun value => hasLogicalPair (firstLine (skipBlanks value))

/-- Two adjacent operator characters stand between a `(` and the next `)`. -/
def hasParenthesisedPair (line : Line) : Bool :=
  anyTail (fun s =>
    match s with
    | '(' :: rest => rest.contains ')' && hasLogicalPair (rest.takeWhile (· ≠ ')'))
    | _ => false) line

/-- Two adjacent operator characters stand after a `{` and before any `}`. -/
def hasBracedPair (line : Line) : Bool :=
  anyTail (fun s =>
    match s with
    | '{' :: rest => hasLogicalPair (rest.takeWhile (· ≠ '}'))
    | _ => false) line

/-! ## Markup -/

/-- Whether a line opens, or continues, a logical expression in the braces of markup. -/
structure Markup where
  isExpression : Bool := false
  isContinuation : Bool := false

/-- Either of the two. -/
def Markup.any (m : Markup) : Bool := m.isExpression || m.isContinuation

/-- The role of the line in view in markup. -/
def Markup.of (f : Focus) (headers : Headers) : Markup :=
  let line := stripComments f.line
  let logical := hasLogicalPair line
  let afterBrace :=
    match f.before with
    | above :: _ => (stripComments above).contains '{'
    | [] => false
  let isLoopOrIf :=
    headers.ifHeader.isSome || headers.elseIf.isSome || headers.forHeader.isSome || headers.hasWhile
  { isExpression := logical && hasBracedPair line
    isContinuation := !isLoopOrIf && afterBrace && logical && !line.contains '{' }

/-! ## Points -/

/-- The operators of a line without comments are not part of a control condition. -/
def isBooleanExpression (line : Line) (headers : Headers) (markup : Markup) : Bool :=
  !headers.isControl &&
    (isReturn line || isBooleanAssignment line || hasParenthesisedPair line || markup.any ||
      hasLogicalPair line)

/-- `=>`, or `function` and its parenthesis. -/
def opensCallback (s : Line) : Bool :=
  match s with
  | '=' :: '>' :: _ => true
  | _ =>
    ((literal? ['f', 'u', 'n', 'c', 't', 'i', 'o', 'n'] s).bind (spacedChar? '(')).isSome

/-- The position of the first callback that opens in a text. -/
def callbackStart? : Line → Option Nat
  | [] => none
  | c :: rest => if opensCallback (c :: rest) then some 0 else (callbackStart? rest).map (· + 1)

/-- The owner of an operator at a position. Where callbacks start on the line, an operator in front of
the first one belongs to the smallest function around the line that does not start there. -/
def expressionOwner (ctx : Ownership) (line : Line) (number : Int) (position default : Int) : Int :=
  if (ctx.startingOn number).isEmpty then default
  else
    match callbackStart? line with
    | none => default
    | some start =>
      if (start : Int) ≤ position then default
      else
        let hosts := ctx.boundaries.owners.filter fun f =>
          f.boundary.contains number && f.boundary.start ≠ number
        match bestBy Owner.smaller hosts with
        | some host => host.key
        | none => default

/-- The points of the operators outside conditions on the line in view. The condition of a ternary is
left to the line of its question mark. -/
def expressionPoints (ctx : Ownership) (f : Focus) (headers : Headers) (markup : Markup)
    (default : Int) : List Point :=
  let line := stripComments f.line
  if !isBooleanExpression line headers markup || isTernaryCondition f then []
  else
    Logical.all.flatMap fun op =>
      (findTokens f.line op.token).map fun (i : Nat) =>
        ⟨f.number, op.kind, expressionOwner ctx line f.number i default⟩

/-- The points of the optional chainings of a line. -/
def chainPoints (text : Line) (line owner : Int) : List Point :=
  pointsAt line .optionalChain owner <|
    (findTokens text ['?', '.']).filter fun i => isOptionalChain text[i + 1]? text[i + 2]?

end BranchTally
