-- SUMMARY: The paths that a command touches, so that they can be fetched before it runs.

import BranchTally.CommandLine

/-! # Reach

A command runs on a tree of files, which has to hold what the command reads. What that is follows from
its arguments and, where linter results are given, from the files that the results name.
-/

namespace BranchTally.CommandLine

/-- The paths that a command names. The directory of a report has to be there for it to be written. -/
def namedPaths (settings : Settings) : Command → List (List Char)
  | .extract file _ => [Path.tidy file]
  | .mismatches root results output _ =>
    let output := (given? output).elim settings.reportPath Path.tidy
    (given? root).toList ++ (given? results).toList ++ [settings.projectRoot, Path.parent output]
  | .serve _ _ => []

/-- The paths of the files that linter results name. -/
def resultPaths (root : List Char) (results : Json) : List (List Char) :=
  (results.parts?.getD []).filterMap fun result =>
    match result.field? "filePath" with
    | some (.str path) => some (Path.join root path.toList)
    | _ => none

/-- The paths that a command reaches through the linter results it names. -/
def reachedPaths (settings : Settings) (tree : FileTree) : Command → List (List Char)
  | .mismatches root results _ _ =>
    let home := '/' :: Path.ofNames tree.home
    let root := (given? root).elim settings.projectRoot (Path.resolve home)
    match resultsSource settings tree results with
    | .ok (.given results) => resultPaths root results
    | _ => []
  | _ => []

end BranchTally.CommandLine
