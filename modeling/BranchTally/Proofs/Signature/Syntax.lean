-- SUMMARY: Declared functions whose parameters are names with or without a number as default, printed over lines in any way.
import BranchTally.Parameter.Extent
import BranchTally.Proofs.Condition.Syntax

/-!
# Signatures

The parameters of a declared function are printed between `function name(` and `) {`. A line may be
broken after the opening parenthesis, after a comma and before the closing parenthesis, so every
parameter has its comma on its own line. A body follows that assigns nothing.
-/

namespace BranchTally

open Text

/-! ## Parameters -/

/-- A character that a numeral begins with. -/
def startsNumeral (c : Char) : Bool := isLatinDigit c || c = '.'

/-- A character of a numeral: a digit, a letter of its exponent or a separator, the point, a sign. -/
def isNumeralChar (c : Char) : Bool := isWord c || c = '.' || c = '+' || c = '-'

/-- A decimal literal. Which of its characters may follow one another does not matter here. -/
structure DecimalLiteral where
  first : Char
  rest : Line
  startsNumeral_first : startsNumeral first = true
  numeralChars : ∀ c ∈ rest, isNumeralChar c = true

/-- The literal as it is written. -/
def DecimalLiteral.text (d : DecimalLiteral) : Line := d.first :: d.rest

/-- What a parameter has behind its name: an equals sign and a number, with blanks around the sign. -/
structure ParameterDefault where
  before : Gap
  after : Gap
  literal : DecimalLiteral

/-- The default as it is written, from the blanks before its equals sign on. -/
def ParameterDefault.text (d : ParameterDefault) : Line :=
  d.before.text ++ '=' :: (d.after.text ++ d.literal.text)

/-- A parameter, with its default if it has one. -/
structure Parameter where
  name : FreeIdentifier
  default : Option ParameterDefault

/-- The text behind the name of a parameter. -/
def Parameter.defaultText (p : Parameter) : Line := (p.default.map ParameterDefault.text).getD []

/-- The parameter as it is written. -/
def Parameter.text (p : Parameter) : Line := p.name.text ++ p.defaultText

/-! ## Lines of parameters -/

/-- A parameter in its place: the blanks in front of it and, unless it is the last one, the blanks
behind it and its comma. -/
structure PrintedParameter where
  gap : Gap
  parameter : Parameter
  comma : Option Gap

/-- What is written behind the parameter. -/
def PrintedParameter.commaText (p : PrintedParameter) : Line :=
  (p.comma.map fun gap => gap.text ++ [',']).getD []

/-- The parameter as it is written. -/
def PrintedParameter.text (p : PrintedParameter) : Line :=
  p.gap.text ++ (p.parameter.text ++ p.commaText)

/-- The parameter has a default. -/
def PrintedParameter.hasDefault (p : PrintedParameter) : Bool := p.parameter.default.isSome

/-- The parameters of one line, with the blanks behind the last of them. -/
structure ParameterLine where
  parameters : List PrintedParameter
  tail : Gap

namespace ParameterLine

/-- The parameters of the line as they are written. -/
def text (line : ParameterLine) : Line :=
  line.parameters.flatMap PrintedParameter.text ++ line.tail.text

/-- How many defaults are printed on the line. -/
def defaults (line : ParameterLine) : Nat := line.parameters.countP (·.hasDefault)

@[simp]
theorem text_nil (tail : Gap) : (⟨[], tail⟩ : ParameterLine).text = tail.text := rfl

@[simp]
theorem text_cons (p : PrintedParameter) (parameters : List PrintedParameter) (tail : Gap) :
    (⟨p :: parameters, tail⟩ : ParameterLine).text =
      p.gap.text ++ (p.parameter.text ++ (p.commaText ++ (⟨parameters, tail⟩ : ParameterLine).text)) := by
  simp [text, PrintedParameter.text]

end ParameterLine

/-- Every parameter but the last has a comma behind it. -/
structure CommaSeparated (parameters : List PrintedParameter) : Prop where
  comma : ∀ p ∈ parameters.dropLast, p.comma ≠ none
  no_comma : ∀ p ∈ parameters.getLast?, p.comma = none

/-! ## Printed signatures -/

/-- The word `function`, the name and the opening parenthesis, with the blanks around them. -/
structure SignatureOpening where
  indent : Gap
  gap : Gap
  gap_ne_nil : gap.text ≠ []
  name : FreeIdentifier
  tail : Gap

/-- The opening as it is written. -/
def SignatureOpening.text (o : SignatureOpening) : Line :=
  o.indent.text ++ (functionWord ++ (o.gap.text ++ (o.name.text ++ (o.tail.text ++ ['(']))))

/-- A declared function with its parameters on the lines `above` and `last`, the closing parenthesis
being on the line `last`, and a body without equals signs behind its brace. -/
structure PrintedSignature where
  opening : SignatureOpening
  above : List ParameterLine
  last : ParameterLine
  separated : CommaSeparated ((above ++ [last]).flatMap ParameterLine.parameters)
  atMostTwenty : above.length < 20
  gap : Gap
  body : List Char
  assignsNothing : '=' ∉ body

namespace PrintedSignature

/-- The lines of the signature. -/
def parameterLines (s : PrintedSignature) : List ParameterLine := s.above ++ [s.last]

/-- The end of the last line, from the closing parenthesis to the brace. -/
def closing (s : PrintedSignature) : Line := ')' :: (s.gap.text ++ ['{'])

/-- The lines of the signature as they are printed. -/
def lines (s : PrintedSignature) : List Line :=
  (s.above.map ParameterLine.text ++ [s.last.text ++ s.closing]).modifyHead (s.opening.text ++ ·)

/-- The source that holds the function and nothing else. -/
def source (s : PrintedSignature) : List Char := joinLines s.lines ++ s.body

/-- The range from the first line of the signature to the last line of the body. -/
def boundary (s : PrintedSignature) : Boundary :=
  ⟨1, 1 + ((splitLines s.source).length - 1 : Nat), by omega⟩

/-- How many defaults are printed on the line at a place, counted from zero. -/
def defaultsAt (s : PrintedSignature) (place : Nat) : Nat :=
  (s.parameterLines.map ParameterLine.defaults).getD place 0

end PrintedSignature

end BranchTally
