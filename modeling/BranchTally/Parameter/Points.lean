-- SUMMARY: The points of default parameters and of defaults in destructuring declarations.

import BranchTally.Parameter.Extent

/-! # Points of defaults

Each default of a parameter list makes a point, as does each default of a destructuring declaration
near the start of a function. The parameters of an arrow belong to the callback that starts on their
line; the signature is looked at only where the arrow gave nothing.
-/

namespace BranchTally

open Text

/-- So many points of a default, all on one line with one owner. -/
def defaultPoints (count : Nat) (line owner : Int) : List Point :=
  List.replicate count ⟨line, .defaultParameter, owner⟩

/-! ## Arrow functions -/

/-- The number of defaults in the parameters of the first arrow of a line. -/
def arrowDefaults (line : Line) : Nat :=
  match arrowPosition? line with
  | none => 0
  | some position =>
    let beforeArrow := line.take position
    match arrowParameters? beforeArrow (declaredValue? line).isSome with
    | some span => countDefaults (span.of beforeArrow)
    | none => 0

/-- The points of the parameters of an arrow on the line in view, `line` without its comments. -/
def arrowPoints (line : Line) (f : Focus) (owner : Int) : List Point :=
  if isNoArrowContext line f then [] else defaultPoints (arrowDefaults line) f.number owner

/-- `(a = 1,` with the arrow on the next line. -/
def opensSplitArrow (line : Line) (f : Focus) : Bool :=
  let arrowNext :=
    match f.after with
    | next :: _ => hasArrow (stripComments next)
    | [] => false
  countDefaults line ≠ 0 && line.contains '(' && arrowNext && !hasArrow line

/-! ## Signatures -/

/-- `const x = cond ? 1 : 2`, which is no signature though a function starts on the line. -/
def isPlainDeclaration (line : Line) : Bool :=
  isDeclaredAssignment line && !hasArrow line && !occurs functionWord line

/-- The number of defaults on a signature line. -/
def signatureDefaults (line : Line) : Nat :=
  match arrowPosition? line with
  | none => countDefaults line
  | some position =>
    let beforeArrow := line.take position
    if (declaredValue? line).isSome then
      match lastIndexOf? '(' beforeArrow with
      | none => 0
      | some opening =>
        match balancedEnd? '(' ')' beforeArrow opening with
        | none => 0
        | some stop =>
          if stop ≤ opening + 2 then 0
          else countDefaults ((beforeArrow.take (stop - 1)).drop (opening + 1))
    else countDefaults beforeArrow

/-- The points of the signature of a function on the line in view, `line` without its comments. -/
def signaturePoints (lines : List Line) (line : Line) (f : Focus) (owner : Int)
    (boundary : Boundary) : List Point :=
  let isArrow := (arrowPosition? line).isSome
  let signature := hasSignature line isArrow
  let stop := widenedListEnd (parameterListEnd f.number boundary.start lines line) boundary.start f
    line signature
  let inList := boundary.start ≤ f.number && f.number < stop
  let onSignature := signature && f.number = boundary.start && !isPlainDeclaration line
  if isDependencyArray line f then []
  else if !(inList || isArrow || onSignature || opensSplitArrow line f) then []
  else if !inList && !onSignature && isMarkupAttribute line f then []
  else if !onSignature && isExcluded line f then []
  else defaultPoints (signatureDefaults line) f.number owner

/-- The points of the default parameters on the line in view. -/
def parameterPoints (ctx : Ownership) (lines : List Line) (f : Focus) (default : Int) :
    List Point :=
  let line := stripComments f.line
  let signature (boundary : Option Boundary) : List Point :=
    match boundary with
    | some b => signaturePoints lines line f default b
    | none => []
  if (arrowPosition? line).isSome then
    let (owner, boundary) := ctx.arrowOwner f.number default
    let points := arrowPoints line f owner
    if points.isEmpty then signature boundary else points
  else signature (ctx.boundaries.get? default)

/-! ## Destructuring -/

/-- How far below the first line of a function its destructuring defaults count. -/
def destructuringWindow : Int := 15

/-- How many lines above are searched for the start of a destructuring declaration. -/
def destructuringLookback : Nat := 10

/-- `const {` opens the line. -/
def opensDestructuring (line : Line) : Bool :=
  match (oneOf? declarators (skipBlanks line)).bind blanks? with
  | some (c :: _) => c = '{'
  | _ => false

/-- `const name =` opens the line, with no brace right after the equals sign. -/
def opensPlainDeclaration (line : Line) : Bool :=
  ((((oneOf? declarators (skipBlanks line)).bind blanks?).bind identifier?).bind
    (spacedChar? '=')).any fun value => value.head? ≠ some '{'

/-- Walks up through the lines above, the next one at distance `distance`, to the start of a
destructuring declaration that is still open. -/
def isInDestructuringFrom (f : Focus) (boundary : Boundary) (distance : Int) : List Line → Bool
  | [] => false
  | above :: rest =>
    let line := trim (stripComments above)
    if opensDestructuring line then true
    else if line.contains '}' && line.contains '=' then false
    else if line.getLast? = some ';' then false
    else if f.number - distance < boundary.start then false
    else isInDestructuringFrom f boundary (distance + 1) rest

/-- The line in view, `line` without its comments, lies inside `const { … } = obj`. -/
def isInDestructuring (line : Line) (f : Focus) (boundary : Boundary) : Bool :=
  opensDestructuring line ||
    isInDestructuringFrom f boundary 1 (f.before.take destructuringLookback)

/-- The points of the defaults of a destructuring declaration on the line in view. -/
def destructuringPoints (f : Focus) (owner : Int) (boundary : Option Boundary) : List Point :=
  match boundary with
  | none => []
  | some b =>
    let line := stripComments f.line
    let near := b.start ≤ f.number && f.number ≤ b.start + destructuringWindow
    if !near || opensPlainDeclaration line || !isInDestructuring line f b then []
    else defaultPoints (DefaultForm.destructured.count line) f.number owner

end BranchTally
