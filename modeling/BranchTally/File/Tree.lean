-- SUMMARY: A tree of files with a working directory: reading, writing and removing.

import BranchTally.File.Content
import BranchTally.File.Path
import BranchTally.OrderedMap

/-! # File trees

A tree holds its directories and the content of its files, each under the names on the way from the
top. A path is followed name by name, and every name but the last has to lead to a directory, so that
`a/../b` cannot be followed where there is no `a`.
-/

namespace BranchTally

/-- Where a file or directory stands: the names on the way from the top. -/
abbrev Place := List (List Char)

/-- Why a path cannot be followed or used. -/
inductive FileFault where
  | missing
  | directory
  | notDirectory
  deriving DecidableEq

/-- Answers for a path the content of the file there. -/
abbrev FileReader := List Char → Except FileFault ByteArray

/-- Directories and files, with the directory in which paths begin. -/
structure FileTree where
  home : Place
  directories : List Place
  files : OrderedMap Place ByteArray

namespace FileTree

/-! ## Making a tree -/

/-- The directories that lead to a place, itself included. -/
def trail (place : Place) : List Place := (List.range (place.length + 1)).map place.take

/-- The tree with nothing but a working directory. -/
def bare (home : Place) : FileTree := ⟨home, trail home, .empty⟩

/-- Adds a directory and all that lead to it. -/
def addDirectory (t : FileTree) (place : Place) : FileTree :=
  { t with directories := t.directories ++ (trail place).filter fun d => !t.directories.contains d }

/-- Puts a file into the tree, with the directories that lead to it. -/
def add (t : FileTree) (place : Place) (bytes : ByteArray) : FileTree :=
  let t := t.addDirectory place.dropLast
  { t with files := t.files.insert place bytes }

/-! ## Following a path -/

/-- A directory stands here. -/
def isDirectoryAt (t : FileTree) (place : Place) : Bool := t.directories.contains place

/-- Goes on by pieces of a path. -/
def follow (t : FileTree) : Place → List (List Char) → Except FileFault Place
  | here, [] => .ok here
  | here, piece :: rest =>
    if t.isDirectoryAt here then
      t.follow (if Path.isIdle piece then here else Path.step here piece) rest
    else .error (if t.files.contains here then .notDirectory else .missing)

/-- The place of a path; whether something stands there is left open. -/
def find (t : FileTree) (path : List Char) : Except FileFault Place :=
  if path.isEmpty then .error .missing
  else t.follow (if Path.isAbsolute path then [] else t.home) (Path.pieces path)

/-- The path leads to a directory. -/
def isDirectory (t : FileTree) (path : List Char) : Bool :=
  match t.find path with
  | .ok place => t.isDirectoryAt place
  | .error _ => false

/-- The path leads to a file. -/
def isFile (t : FileTree) (path : List Char) : Bool :=
  match t.find path with
  | .ok place => t.files.contains place
  | .error _ => false

/-! ## Files -/

/-- The content of a file. -/
def read (t : FileTree) : FileReader := fun path => do
  let place ← t.find path
  match t.files.get? place with
  | some bytes => .ok bytes
  | none => .error (if t.isDirectoryAt place then .directory else .missing)

/-- Writes a file, which need not exist before; its directory has to. -/
def write (t : FileTree) (path : List Char) (bytes : ByteArray) : Except FileFault FileTree := do
  let place ← t.find path
  if t.isDirectoryAt place then .error .directory
  else .ok { t with files := t.files.insert place bytes }

/-- Removes a file. -/
def remove (t : FileTree) (path : List Char) : Except FileFault FileTree := do
  let place ← t.find path
  if t.files.contains place then .ok { t with files := t.files.erase place }
  else .error (if t.isDirectoryAt place then .directory else .missing)

/-- The files below the working directory, each with its path from there. -/
def listing (t : FileTree) : List (List Char × ByteArray) :=
  t.files.entries.filterMap fun entry =>
    (t.home.isPrefixOf? entry.1).map fun names => (Path.ofNames names, entry.2)

/-- The files that are new or have another content than before. -/
def written (before after : FileTree) : List (Place × ByteArray) :=
  after.files.entries.filter fun entry => !(before.files.get? entry.1).any (· == entry.2)

/-- The files that are gone. -/
def removed (before after : FileTree) : List Place :=
  before.files.keys.filter fun place => !after.files.contains place

end FileTree

end BranchTally
