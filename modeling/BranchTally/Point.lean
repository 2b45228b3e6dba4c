-- SUMMARY: Decision points: the sixteen constructs that are counted, and one occurrence of one.

import BranchTally.Text.Quoted

/-! # Decision points

A decision point is a construct that adds a branch, on a line, owned by a function. The owner is the
key of the function in the boundary map of the file, which need not be the line of the construct.
-/

namespace BranchTally

/-! ## Kinds -/

/-- The constructs that are counted. -/
inductive Kind where
  | ifBranch
  | elseIf
  | forLoop
  | forOf
  | forIn
  | whileLoop
  | doWhile
  | switchBranch
  | caseClause
  | catchClause
  | ternary
  | nullish
  | optionalChain
  | conj
  | disj
  | defaultParameter
  deriving DecidableEq

namespace Kind

/-- Every kind. -/
def all : List Kind :=
  [.ifBranch, .elseIf, .forLoop, .forOf, .forIn, .whileLoop, .doWhile, .switchBranch, .caseClause,
    .catchClause, .ternary, .nullish, .optionalChain, .conj, .disj, .defaultParameter]

theorem mem_all (k : Kind) : k ∈ all := by cases k <;> decide

/-- The short tag of a kind in reports. -/
def tag : Kind → String
  | .ifBranch => "if"
  | .elseIf => "else if"
  | .forLoop => "for"
  | .forOf => "for...of"
  | .forIn => "for...in"
  | .whileLoop => "while"
  | .doWhile => "do...while"
  | .switchBranch => "switch"
  | .caseClause => "case"
  | .catchClause => "catch"
  | .ternary => "ternary"
  | .nullish => "??"
  | .optionalChain => "?."
  | .conj => "&&"
  | .disj => "||"
  | .defaultParameter => "default parameter"

/-- The name of a kind for people. -/
def title : Kind → String
  | .ifBranch => "if statement"
  | .elseIf => "else if statement"
  | .forLoop => "for loop"
  | .forOf => "for...of loop"
  | .forIn => "for...in loop"
  | .whileLoop => "while loop"
  | .doWhile => "do...while loop"
  | .switchBranch => "switch statement"
  | .caseClause => "case clause"
  | .catchClause => "catch clause"
  | .ternary => "ternary operator"
  | .nullish => "nullish coalescing"
  | .optionalChain => "optional chaining"
  | .conj => "logical AND"
  | .disj => "logical OR"
  | .defaultParameter => "default parameter"

/-- The kind with a tag. -/
def ofTag? (t : String) : Option Kind := all.find? fun k => k.tag = t

/-- One line may hold several points of these kinds for one function. -/
def repeatable : Kind → Bool
  | .conj | .disj | .ternary | .defaultParameter => true
  | _ => false

/-- What is said of a tag that no kind has. -/
def unknownTag (t : String) : String :=
  let known := (all.map tag).mergeSort fun a b => a ≤ b
  let shown := known.map fun s => String.ofList (Text.quoted s.toList)
  "Invalid decision point type=" ++ String.ofList (Text.quoted t.toList) ++
    ". Expected one of [" ++ ", ".intercalate shown ++ "]"

end Kind

/-! ## Points -/

/-- A construct on a line, owned by the function with key `owner`. Its name for people is no field of its
own: every point that is made has the title of its kind as its name. -/
structure Point where
  line : Int
  kind : Kind
  owner : Int
  deriving DecidableEq

/-- The name of a point for people. -/
def Point.name (p : Point) : String := p.kind.title

end BranchTally
