-- SUMMARY: A function that the linter scored.

import BranchTally.Json.Value

/-! # Function records

The linter reports a function by file, line and node type, with a score. The name is recovered from
the source text. The node type and the column are kept as the linter gave them; all that matters of
the node type is whether it is that of an arrow function.
-/

namespace BranchTally

/-- The node type of arrow functions. -/
def arrowNodeType : String := "ArrowFunctionExpression"

/-- The node type where the linter gives none. -/
def defaultNodeType : String := "FunctionDeclaration"

/-- A node type is that of an arrow function. -/
def isArrowType : Json → Bool
  | .str s => s = arrowNodeType
  | _ => false

/-- One function that the linter scored. -/
structure FunctionRecord where
  file : String
  line : Int
  complexity : Int
  name : String := "anonymous"
  nodeType : Json := .str defaultNodeType
  column : Json := .null
  message : String := ""

/-- The function is an arrow function. -/
def FunctionRecord.isArrow (r : FunctionRecord) : Bool := isArrowType r.nodeType

end BranchTally
