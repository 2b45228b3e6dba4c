-- SUMMARY: The programs that scripts can call, as functions on a file tree.

import BranchTally.File.Tree
import BranchTally.Text.Numeral

/-! # Programs

A program gets its arguments, an input and a file tree, and leaves a tree, an output and a status.

The programs that a linter command calls belong to the system it runs on. Those here are stand-ins for
a handful of them, as far as their manuals say what they do: programs that write, copy and remove files,
and programs that do nothing but end with a status.
-/

namespace BranchTally

/-- What a program leaves behind. -/
structure Effect where
  tree : FileTree
  output : List UInt8 := []
  status : Nat := 0

/-- A program. -/
abbrev Program := List (List Char) → List UInt8 → FileTree → Effect

namespace Program

/-! ## Text -/

/-- The bytes of a text. -/
def bytesOf (s : List Char) : List UInt8 := (Content.ofText s).toList

/-- The character that a backslash and a letter stand for. -/
def escape? (c : Char) : Option Char :=
  match c with
  | 'a' => some '\x07'
  | 'b' => some '\x08'
  | 'f' => some '\x0c'
  | 'n' => some '\n'
  | 'r' => some '\r'
  | 't' => some '\t'
  | 'v' => some '\x0b'
  | '\\' => some '\\'
  | _ => none

/-- The text with its escapes taken, and whether all of it is used: `\c` ends the output. -/
def unescape : List Char → List Char × Bool
  | '\\' :: 'c' :: _ => ([], false)
  | '\\' :: c :: rest =>
    let (more, whole) := unescape rest
    match escape? c with
    | some d => (d :: more, whole)
    | none => ('\\' :: c :: more, whole)
  | c :: rest => let (more, whole) := unescape rest; (c :: more, whole)
  | [] => ([], true)

/-- Words with blanks between them. -/
def spaced (words : List (List Char)) : List Char := [' '].intercalate words

/-- Writes its arguments and a line break; `-n` leaves the break out. -/
def echo : Program := fun args _ tree =>
  let (silent, args) : Bool × List (List Char) :=
    match args with
    | ['-', 'n'] :: rest => (true, rest)
    | _ => (false, args)
  let (text, whole) := unescape (spaced args)
  { tree, output := bytesOf (if silent || !whole then text else text ++ ['\n']) }

/-- Fills a format once: its text, and the arguments that are left. -/
def fillOnce : List Char → List (List Char) → List Char × List (List Char)
  | '%' :: '%' :: rest, args => let (more, left) := fillOnce rest args; ('%' :: more, left)
  | '%' :: c :: rest, args =>
    if ['s', 'b', 'd', 'i'].contains c then
      let word := args.headD []
      let (more, left) := fillOnce rest args.tail
      let shown :=
        if c = 's' then word
        else if c = 'b' then (unescape word).1
        else (toString ((Text.integer? word).getD 0)).toList
      (shown ++ more, left)
    else let (more, left) := fillOnce rest args; ('%' :: c :: more, left)
  | c :: rest, args => let (more, left) := fillOnce rest args; (c :: more, left)
  | [], args => ([], args)

/-- Fills a format again and again as long as it takes arguments. -/
def fill (format : List Char) : (fuel : Nat) → List (List Char) → List Char
  | 0, _ => []
  | fuel + 1, args =>
    let (text, left) := fillOnce format args
    if left.isEmpty || left.length = args.length then text else text ++ fill format fuel left

/-- Writes its arguments as a format says. -/
def printf : Program := fun args _ tree =>
  match args with
  | [] => { tree, status := 2 }
  | format :: args =>
    { tree, output := bytesOf (fill (unescape format).1 (args.length + 1) args) }

/-! ## Files -/

/-- The arguments that are no options, unless the options hold a letter that is not allowed. -/
def operands? (allowed : List Char) : List (List Char) → Option (List (List Char))
  | [] => some []
  | ['-', '-'] :: rest => some rest
  | ('-' :: c :: options) :: rest =>
    if (c :: options).all allowed.contains then operands? allowed rest else none
  | word :: rest => (operands? allowed rest).map (word :: ·)

/-- Writes the files one after the other; without files, the input. -/
def cat : Program := fun args input tree =>
  match operands? [] args with
  | none => { tree, status := 1 }
  | some [] => { tree, output := input }
  | some paths =>
    let read := paths.map fun p => if p = ['-'] then .ok input else (tree.read p).map (·.toList)
    let output := read.flatMap fun r => match r with | .ok bytes => bytes | .error _ => []
    { tree, output, status := if read.all (·.isOk) then 0 else 1 }

/-- Where a file goes that is copied or moved to a path: a directory takes it under its own name. -/
def destination (tree : FileTree) (source target : List Char) : List Char :=
  if tree.isDirectory target then target ++ '/' :: (Path.names source).getLast?.getD [] else target

/-- Copies a file. -/
def copyFile (tree : FileTree) (source target : List Char) : Except FileFault FileTree := do
  tree.write (destination tree source target) (← tree.read source)

/-- Moves a file. -/
def moveFile (tree : FileTree) (source target : List Char) : Except FileFault FileTree := do
  (← copyFile tree source target).remove source

/-- Does one thing after the other; the status tells whether all of them could be done. -/
def each (act : FileTree → List Char → Except FileFault FileTree) (tree : FileTree)
    (paths : List (List Char)) : Effect :=
  paths.foldl
    (fun e p => match act e.tree p with | .ok tree => { e with tree } | .error _ => { e with status := 1 })
    { tree }

/-- Copies or moves files to the last path. -/
def transfer (act : FileTree → List Char → List Char → Except FileFault FileTree) : Program :=
  fun args _ tree =>
    match operands? ['f', 'p', 'v'] args with
    | some (p :: q :: rest) =>
      let paths := p :: q :: rest
      let target := paths.getLast?.getD []
      if rest.isEmpty || tree.isDirectory target then
        each (fun tree source => act tree source target) tree paths.dropLast
      else { tree, status := 1 }
    | _ => { tree, status := 1 }

/-- Removes files; `-f` does not mind what is missing. -/
def rm : Program := fun args _ tree =>
  match operands? ['f', 'v'] args with
  | none => { tree, status := 1 }
  | some paths =>
    let forced := args.any fun a => a.head? = some '-' && a.contains 'f'
    each
      (fun tree p =>
        match tree.remove p with
        | .error .missing => if forced then .ok tree else .error .missing
        | removed => removed)
      tree paths

/-- Makes directories; `-p` also makes those above and does not mind what exists. -/
def mkdir : Program := fun args _ tree =>
  match operands? ['p'] args with
  | none => { tree, status := 1 }
  | some paths =>
    let parents := args.any fun a => a.head? = some '-' && a.contains 'p'
    each
      (fun tree p => do
        if parents then
          if tree.isFile p then .error .notDirectory
          else .ok (tree.addDirectory (Path.place ('/' :: Path.ofNames tree.home) p))
        else
          let place ← tree.find p
          if tree.isDirectoryAt place || tree.files.contains place then .error .directory
          else .ok (tree.addDirectory place))
      tree paths

/-- Makes empty files where none are. -/
def touch : Program := fun args _ tree =>
  match operands? [] args with
  | none => { tree, status := 1 }
  | some paths =>
    each
      (fun tree p => if tree.isFile p || tree.isDirectory p then .ok tree else tree.write p ByteArray.empty)
      tree paths

/-- What a test says. -/
def holds (tree : FileTree) : List (List Char) → Bool
  | [] => false
  | ['!'] :: rest => !holds tree rest
  | [word] => !word.isEmpty
  | [op, word] =>
    match String.ofList op with
    | "-n" => !word.isEmpty
    | "-z" => word.isEmpty
    | "-e" => tree.isFile word || tree.isDirectory word
    | "-f" => tree.isFile word
    | "-d" => tree.isDirectory word
    | "-s" => match tree.read word with | .ok bytes => 0 < bytes.size | .error _ => false
    | _ => false
  | [a, op, b] =>
    match String.ofList op with
    | "=" => a = b
    | "!=" => a ≠ b
    | "-eq" => Text.integer? a = Text.integer? b
    | "-ne" => Text.integer? a ≠ Text.integer? b
    | _ => false
  | _ => false

/-- Tests a condition. -/
def test : Program := fun args _ tree => { tree, status := if holds tree args then 0 else 1 }

/-- Does nothing and ends with a status. -/
def ending (status : Nat) : Program := fun _ _ tree => { tree, status }

/-- Writes the working directory. -/
def pwd : Program := fun _ _ tree =>
  { tree, output := bytesOf ('/' :: Path.ofNames tree.home ++ ['\n']) }

/-- The programs by name. -/
def known : List (String × Program) :=
  [(":", ending 0), ("true", ending 0), ("false", ending 1), ("echo", echo), ("printf", printf),
   ("cat", cat), ("cp", transfer copyFile), ("mv", transfer moveFile), ("rm", rm), ("mkdir", mkdir),
   ("touch", touch), ("test", test), ("[", fun args => test args.dropLast), ("pwd", pwd)]

/-- The program with a name. -/
def named? (name : List Char) : Option Program :=
  (known.find? fun entry => entry.1.toList = name).map (·.2)

end Program

end BranchTally
