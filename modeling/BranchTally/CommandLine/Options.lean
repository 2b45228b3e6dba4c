-- SUMMARY: Options and operands on a command line.

import BranchTally.Text.Front

/-! # Options

An option has a long name and takes a value, which follows as the next argument or after an equals
sign. A name may be cut short as long as it fits only one option. An argument that begins with a dash is
no option if it is a negative number or holds a blank. Two dashes end the options.
-/

namespace BranchTally

/-- An option by its long name, with the values that it takes. -/
structure OptionSpec where
  name : String
  accepts : List Char → Bool

/-- What a command takes: options, and perhaps one operand. -/
structure OptionGrammar where
  options : List OptionSpec
  operand : Bool

/-- Why arguments give no command: they ask for help, or they are misused. -/
inductive ArgumentStop where
  | help
  | misuse
  deriving DecidableEq

/-- One argument. -/
inductive Argument where
  | operand (text : List Char)
  | separator
  | option (spec : OptionSpec) (value : Option (List Char))
  | help
  | misuse

/-- The operand and the values of options, in order. -/
structure Arguments where
  operand : Option (List Char) := none
  values : List (String × List Char) := []

namespace OptionGrammar

/-- The names that ask for help. -/
def helpNames : List (List Char) := ["-h".toList, "--help".toList]

/-- A minus sign and a number, with or without a fraction; a line break may follow. -/
def isNegativeNumber (s : List Char) : Bool :=
  match s with
  | '-' :: body =>
    let fraction := body.dropWhile Text.isDecimal
    let ended (rest : List Char) : Bool := rest = [] || rest = ['\n']
    (body.head?.any Text.isDecimal && ended fraction) ||
      (match fraction with
       | '.' :: d :: rest => Text.isDecimal d && ended (rest.dropWhile Text.isDecimal)
       | _ => false)
  | _ => false

/-- An argument that begins with a dash but names no option. -/
def unnamed (s : List Char) : Argument :=
  if isNegativeNumber s || s.contains ' ' then .operand s else .misuse

/-- The option with a name and perhaps a value; help takes none. -/
def named? (g : OptionGrammar) (name : List Char) (value : Option (List Char)) : Option Argument :=
  if helpNames.contains name then some (if value.isSome then .misuse else .help)
  else (g.options.find? fun o => o.name.toList = name).map fun o => .option o value

/-- The long names that a text begins. -/
def completions (g : OptionGrammar) (start : List Char) : List (List Char) :=
  ("--help".toList :: g.options.map fun o => o.name.toList).filter start.isPrefixOf

/-- The part before the first equals sign, and the value after it. -/
def splitValue (s : List Char) : List Char × Option (List Char) :=
  match s.dropWhile (· ≠ '=') with
  | _ :: value => (s.takeWhile (· ≠ '='), some value)
  | [] => (s, none)

/-- What one argument is. -/
def classify (g : OptionGrammar) (s : List Char) : Argument :=
  let (name, value) := splitValue s
  match s with
  | '-' :: c :: _ =>
    match (g.named? s none).or (value.bind fun _ => g.named? name value) with
    | some known => known
    | none =>
      if c = '-' then
        match g.completions name with
        | [] => unnamed s
        | [full] => (g.named? full value).getD .misuse
        | _ => .misuse
      else if c = 'h' then .help
      else unnamed s
  | _ => .operand s

/-- The arguments one by one. After two dashes all are operands. -/
def arguments (g : OptionGrammar) : List (List Char) → List Argument
  | [] => []
  | s :: rest =>
    if s = ['-', '-'] then .separator :: rest.map .operand else g.classify s :: g.arguments rest

/-- Gathers arguments. The operand may have the two dashes beside it. -/
def gather (g : OptionGrammar) (got : Arguments) : List Argument → Except ArgumentStop Arguments
  | [] => .ok got
  | .help :: _ => .error .help
  | .misuse :: _ => .error .misuse
  | .option o (some v) :: rest =>
    if o.accepts v then g.gather { got with values := got.values ++ [(o.name, v)] } rest
    else .error .misuse
  | .option o none :: .operand v :: rest =>
    if o.accepts v then g.gather { got with values := got.values ++ [(o.name, v)] } rest
    else .error .misuse
  | .option _ none :: _ => .error .misuse
  | .separator :: .operand s :: rest | .operand s :: .separator :: rest | .operand s :: rest =>
    if g.operand && got.operand.isNone then g.gather { got with operand := some s } rest
    else .error .misuse
  | .separator :: _ => .error .misuse

/-- Reads arguments; the operand has to be there if there is one. -/
def read (g : OptionGrammar) (args : List (List Char)) : Except ArgumentStop Arguments := do
  let got ← g.gather {} (g.arguments args)
  if g.operand && got.operand.isNone then .error .misuse else .ok got

end OptionGrammar

namespace Arguments

/-- All values of an option. -/
def all (a : Arguments) (name : String) : List (List Char) :=
  (a.values.filter fun v => v.1 = name).map (·.2)

/-- The last value of an option. -/
def last? (a : Arguments) (name : String) : Option (List Char) := (a.all name).getLast?

end Arguments

end BranchTally
