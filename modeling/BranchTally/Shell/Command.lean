-- SUMMARY: Runs a command on a file tree: a known program, or a shell with a script.

import BranchTally.Shell.Program
import BranchTally.Shell.Script

/-! # Commands

A command is a program with arguments. How it is started is up to the system, so whatever starts
commands takes a `Launcher`. The one given here is a stand-in for a system: it looks the command up
among the known programs; the shell is one of them, and calls the others. What a command writes to its
streams is lost unless a script sends it to a file.
-/

namespace BranchTally

/-- Why a command cannot be started. -/
inductive LaunchFault where
  | missing
  | denied
  | notDirectory
  deriving DecidableEq

/-- Starts a program with arguments in the working directory of a tree. -/
abbrev Launcher := FileTree → (name : List Char) → (args : List (List Char)) → Except LaunchFault Effect

/-- A script at work: the tree, the status of the last pipeline, the arguments, and whether the script
has been left. -/
structure ShellState where
  tree : FileTree
  status : Nat := 0
  arguments : List (List Char) := []
  left : Bool := false

namespace ShellState

/-! ## Words -/

/-- The fields that blanks part. -/
def blankFields (s : List Char) : List (List Char) :=
  ((s.splitBy fun a b => Text.isBlank a == Text.isBlank b).filter fun f => !f.any Text.isBlank)

/-- The fields of a parameter. The first and the last of them join what stands beside the parameter. -/
def parameterFields (sh : ShellState) (quoted : Bool) (name : List Char) : List (List Char) :=
  let value : List Char :=
    match String.ofList name with
    | "#" => (toString (sh.arguments.length - 1)).toList
    | "?" => (toString sh.status).toList
    | "*" => Program.spaced sh.arguments.tail
    | "PWD" => '/' :: Path.ofNames sh.tree.home
    | digits =>
      match Text.natural? digits.toList with
      | some n => (sh.arguments[n]?).getD []
      | none => []
  if name = ['@'] then
    if quoted then sh.arguments.tail else sh.arguments.tail.flatMap blankFields
  else if quoted then [value]
  else blankFields value

/-- Joins fields to those before them. -/
def joinFields (done fields : List (List Char)) : List (List Char) :=
  match done.reverse, fields with
  | last :: before, first :: rest => before.reverse ++ (last ++ first) :: rest
  | _, _ => done ++ fields

/-- The fields of a word. -/
def fields (sh : ShellState) (w : ScriptWord) : List (List Char) :=
  let parts := w.parts.map fun part =>
    match part with
    | .text s => [s]
    | .parameter quoted name => sh.parameterFields quoted name
  let all := parts.foldl joinFields []
  if all.isEmpty && w.quoted && !w.parts.contains (.parameter true ['@']) then [[]] else all

/-- The one path that a word gives as the target of a redirection. -/
def target (sh : ShellState) (w : ScriptWord) : List Char := Program.spaced (sh.fields w)

/-! ## Redirections -/

/-- Where output goes. -/
inductive Sink where
  | through
  | nowhere
  | file (path : List Char)
  deriving DecidableEq

/-- A command's surroundings: the tree, its input, and where its two outputs go. -/
structure Streams where
  tree : FileTree
  input : List UInt8
  output : Sink := .through
  errors : Sink := .nowhere

/-- The file that takes and gives nothing. -/
def nullFile : List Char := "/dev/null".toList

/-- Makes a stream go to a sink. -/
def Streams.direct (s : Streams) (stream : Nat) (sink : Sink) : Streams :=
  if stream = 1 then { s with output := sink }
  else if stream = 2 then { s with errors := sink }
  else s

/-- Applies one redirection. -/
def redirect (sh : ShellState) (s : Streams) (r : Redirect) : Except FileFault Streams := do
  let path := sh.target r.target
  match r.kind with
  | .copy => .ok (s.direct r.stream (if path = ['1'] then s.output else s.errors))
  | .input =>
    if path = nullFile then .ok { s with input := [] }
    else .ok { s with input := (← s.tree.read path).toList }
  | .output =>
    if path = nullFile then .ok (s.direct r.stream .nowhere)
    else .ok ({ s with tree := ← s.tree.write path ByteArray.empty }.direct r.stream (.file path))
  | .append =>
    if path = nullFile then .ok (s.direct r.stream .nowhere)
    else
      let tree ← if s.tree.isFile path then .ok s.tree else s.tree.write path ByteArray.empty
      .ok ({ s with tree }.direct r.stream (.file path))

/-- Sends output where it goes; answers what goes on through the pipeline. -/
def deliver (tree : FileTree) (sink : Sink) (output : List UInt8) : FileTree × List UInt8 :=
  match sink with
  | .through => (tree, output)
  | .nowhere => (tree, [])
  | .file path =>
    match tree.read path with
    | .ok known => ((tree.write path (known.toList ++ output).toByteArray).toOption.getD tree, [])
    | .error _ => (tree, [])

/-! ## Pipelines and lists -/

/-- The status of a program that is not known. -/
def notFound : Nat := 127

/-- The status of a redirection that fails, and of a script that is not understood. -/
def misused : Nat := 2

/-- Runs a command of a pipeline. -/
def command (sh : ShellState) (input : List UInt8) (c : SimpleCommand) : Effect :=
  match c.redirects.foldlM sh.redirect { tree := sh.tree, input } with
  | .error _ => { tree := sh.tree, status := misused }
  | .ok streams =>
    match c.words.flatMap sh.fields with
    | [] => { tree := streams.tree }
    | name :: args =>
      match Program.named? name with
      | none => { tree := streams.tree, status := notFound }
      | some program =>
        let effect := program args streams.input streams.tree
        let (tree, output) := deliver effect.tree streams.output effect.output
        { tree, output, status := effect.status }

/-- Runs the commands of a pipeline, each on the output of the one before it. -/
def pipeline (sh : ShellState) (commands : List SimpleCommand) : ShellState :=
  let effect := commands.foldl
    (fun (e : Effect) c => { sh with tree := e.tree }.command e.output c) { tree := sh.tree }
  { sh with tree := effect.tree, status := effect.status }

/-- The words that act on the shell itself: leaving it, and changing its directory. -/
def ownCommand? (sh : ShellState) (c : SimpleCommand) : Option ShellState :=
  match c.words.flatMap sh.fields with
  | name :: args =>
    match String.ofList name, args with
    | "exit", [] => some { sh with left := true }
    | "exit", code :: _ =>
      match Text.natural? code with
      | some n => some { sh with status := n % 256, left := true }
      | none => some { sh with status := misused, left := true }
    | "cd", [path] =>
      match sh.tree.find path with
      | .ok place =>
        if sh.tree.isDirectoryAt place then
          some { sh with tree := { sh.tree with home := place }, status := 0 }
        else some { sh with status := misused }
      | .error _ => some { sh with status := misused }
    | _, _ => none
  | [] => none

/-- Runs one step of a script, if its condition holds. -/
def step (sh : ShellState) (s : ScriptStep) : ShellState :=
  let runs :=
    match s.condition with
    | .always => true
    | .success => sh.status = 0
    | .failure => sh.status ≠ 0
  if sh.left || !runs then sh
  else
    match s.commands with
    | [c] => (sh.ownCommand? c).getD (sh.pipeline [c])
    | commands => sh.pipeline commands

/-- Runs a script. The working directory is the same afterwards. -/
def run (tree : FileTree) (arguments : List (List Char)) (script : List Char) : Effect :=
  match Script.parse? script with
  | none => { tree, status := misused }
  | some steps =>
    let sh := steps.foldl step { tree, arguments }
    { tree := { sh.tree with home := tree.home }, status := sh.status }

end ShellState

/-! ## Starting a command -/

/-- The shell as a program: a script as an argument or in a file. -/
def shell : Program := fun args _ tree =>
  let options := args.takeWhile fun a => a.head? = some '-' && 1 < a.length
  let rest := args.dropWhile fun a => a.head? = some '-' && 1 < a.length
  match rest with
  | [] => { tree, status := if options.any (·.contains 'c') then ShellState.misused else 0 }
  | first :: more =>
    if options.any (·.contains 'c') then
      ShellState.run tree (if more.isEmpty then ["sh".toList] else more) first
    else
      match tree.read first with
      | .ok bytes => ShellState.run tree (first :: more) (Content.text bytes)
      | .error _ => { tree, status := ShellState.misused }

/-- The directories in which programs are looked up. -/
def programDirectories : List String := ["/bin/", "/usr/bin/"]

/-- The name of a program without the directory of programs before it. -/
def programName (name : List Char) : List Char :=
  (programDirectories.findSome? fun d => d.toList.isPrefixOf? name).getD name

/-- Starts one of the known programs. A path to anything in the tree leads to no program. -/
def launch : Launcher := fun tree name args =>
  let known := programName name
  if known = "sh".toList then .ok (shell args [] tree)
  else
    match Program.named? known with
    | some program => .ok (program args [] tree)
    | none =>
      if name.contains '/' then
        match tree.find name with
        | .ok place =>
          if tree.isDirectoryAt place || tree.files.contains place then .error .denied
          else .error .missing
        | .error .notDirectory => .error .notDirectory
        | .error _ => .error .missing
      else if Path.isIdle name || name = ['.', '.'] then .error .denied
      else .error .missing

end BranchTally
