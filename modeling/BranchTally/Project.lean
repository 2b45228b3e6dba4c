-- SUMMARY: A project: the directory that paths are taken from, and access to its files.

import BranchTally.File.Content
import BranchTally.File.Tree
import BranchTally.Function.Name
import BranchTally.Source

/-! # Projects

The linter names files by their place in a project. A file that cannot be read does not stop anything
here: its functions are just called unknown.
-/

namespace BranchTally

/-- The directory of a project and a reader for its files. -/
structure Project where
  root : List Char
  read : FileReader

namespace Project

/-- The path of a file of the project. -/
def path (p : Project) (file : String) : List Char := Path.join p.root file.toList

/-- The display name of the function on a line of a file. -/
def functionName (p : Project) (file : String) (line : Int) (nodeType : Json) : String :=
  match p.read (p.path file) with
  | .ok bytes => String.ofList (BranchTally.functionName (rawLines (Content.text bytes)) line nodeType)
  | .error _ => "unknown"

/-- The text of a file, whose path is resolved first. -/
def sourceText (p : Project) (file : String) : Except FileFault (List Char) :=
  (p.read (Path.resolve p.root file.toList)).map Content.text

end Project

end BranchTally
