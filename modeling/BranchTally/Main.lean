-- SUMMARY: The program: fetches files, runs a command on them, and writes what has changed.

import BranchTally.CommandLine.Reach

/-! # The program

All that a command does is done on a tree of files in memory. The program fills the tree before and
carries its changes out afterwards.
-/

namespace BranchTally.Disk

/-- Fetches a file or directory, if there is one. -/
def fetch (home : List Char) (tree : FileTree) (path : List Char) : IO FileTree := do
  let here := (← IO.currentDir) / String.ofList path
  let place := Path.place home path
  if ← here.isDir then pure (tree.addDirectory place)
  else
    try pure (tree.add place (← IO.FS.readBinFile here))
    catch _ => pure tree

/-- The variables of the environment that are settings. -/
def environment : IO (List (List Char × List Char)) := do
  let values ← Settings.names.mapM fun name => do
    pure ((← IO.getEnv name).map fun value => (name.toList, value.toList))
  pure (values.filterMap id)

/-- Writes the files that are new or have changed, and removes those that are gone. -/
def carryOut (before after : FileTree) : IO Unit := do
  (before.written after).forM fun file =>
    IO.FS.writeBinFile (String.ofList ('/' :: Path.ofNames file.1)) file.2
  (before.removed after).forM fun place =>
    IO.FS.removeFile (String.ofList ('/' :: Path.ofNames place))

/-- Runs a command and answers its exit code. -/
def runCommand (settings : Settings) (home : List Char) (tree : FileTree) (command : Command) :
    IO UInt32 := do
  let tree ← (CommandLine.namedPaths settings command).foldlM (fetch home) tree
  let tree ← (CommandLine.reachedPaths settings tree command).foldlM (fetch home) tree
  let (left, result) := CommandLine.perform settings tree command
  carryOut tree left
  match result with
  | .ok outcome =>
    IO.print outcome.output
    pure outcome.code.toUInt32
  | .error _ =>
    IO.eprintln "The command could not be finished."
    pure 1

end BranchTally.Disk

/-- The program with its arguments. -/
def main (args : List String) : IO UInt32 := do
  let home := (← IO.currentDir).toString.toList
  let bare := BranchTally.FileTree.bare (BranchTally.Path.names home)
  let tree ← BranchTally.Disk.fetch home bare BranchTally.Settings.fileName
  match BranchTally.Settings.load home tree.read (.obj []) (← BranchTally.Disk.environment) with
  | .error _ =>
    IO.eprintln "The settings are not valid."
    pure 1
  | .ok settings =>
    match BranchTally.Command.read (args.map (·.toList)) with
    | .ok command => BranchTally.Disk.runCommand settings home tree command
    | .error .help => pure 0
    | .error .misuse => pure 2
