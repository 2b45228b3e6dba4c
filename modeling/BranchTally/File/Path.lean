-- SUMMARY: Paths as texts: their names, joining, resolving, and the view from a directory.

/-! # Paths

Paths are texts with slashes. A path that begins with a slash is absolute. Empty names and single dots
mean nothing; two dots lead back to the directory above.

Files are a fixed map from such paths to contents. No name is a link to another place, so two dots undo
the name in front of them and no path runs in a circle; and no path has a zero character, which a system
would refuse.
-/

namespace BranchTally.Path

/-! ## Names -/

/-- The pieces of a path between slashes. -/
def pieces : List Char → List (List Char)
  | [] => [[]]
  | c :: rest =>
    if c = '/' then [] :: pieces rest
    else
      match pieces rest with
      | [] => [[c]]
      | piece :: more => (c :: piece) :: more

/-- A piece that stays where it is: an empty one or a single dot. -/
def isIdle (piece : List Char) : Bool := piece.isEmpty || piece = ['.']

/-- The pieces that name something. -/
def names (path : List Char) : List (List Char) := (pieces path).filter fun p => !isIdle p

/-- Names with slashes between them. -/
def ofNames (names : List (List Char)) : List Char := ['/'].intercalate names

/-- The path begins at the top. -/
def isAbsolute : List Char → Bool
  | '/' :: _ => true
  | _ => false

/-! ## Forms of a path -/

/-- The slashes that begin a path. Two of them stay two; more are one. -/
def top (path : List Char) : List Char :=
  match path with
  | '/' :: '/' :: '/' :: _ => ['/']
  | '/' :: '/' :: _ => ['/', '/']
  | '/' :: _ => ['/']
  | _ => []

/-- A path from its beginning and its names; a single dot stands for the empty path. -/
def build (start : List Char) (names : List (List Char)) : List Char :=
  match start ++ ofNames names with
  | [] => ['.']
  | path => path

/-- The path without pieces that mean nothing. -/
def tidy (path : List Char) : List Char := build (top path) (names path)

/-- The path of the directory that holds the last name of a path. -/
def parent (path : List Char) : List Char := build (top path) (names path).dropLast

/-- A path taken from a directory. An absolute one does not depend on it. -/
def join (directory path : List Char) : List Char :=
  if directory.isEmpty || isAbsolute path then tidy path else tidy (directory ++ '/' :: path)

/-- Goes on from a place by one name. -/
def step (place : List (List Char)) (name : List Char) : List (List Char) :=
  if name = ['.', '.'] then place.dropLast else place ++ [name]

/-- The names on the way from the top to a path taken from an absolute directory. -/
def place (directory path : List Char) : List (List Char) := (names (join directory path)).foldl step []

/-- The absolute path without dots that a path from an absolute directory stands for. The files are not
asked, since no name of the path is a link, so there always is one. -/
def resolve (directory path : List Char) : List Char := '/' :: ofNames (place directory path)

/-- The path as seen from a directory, if it lies below it. -/
def relativeTo (directory path : List Char) : List Char :=
  let base := (directory.reverse.dropWhile (· = '/')).reverse ++ ['/']
  (base.isPrefixOf? path).getD path

end BranchTally.Path
