-- SUMMARY: Which function owns a line, given the boundaries of all functions of the file.

import Std.Data.HashMap
import BranchTally.Boundary

/-! # Ownership

Boundaries nest, so a line may lie in several functions. It belongs to the innermost one, with two
exceptions: a control structure on a line that also opens a callback belongs to the enclosing
function, and once a nested callback has closed, the lines after it fall back to its parent. Between
boundaries of one size the later start wins, and between equal ranges the earlier entry of the map.
-/

namespace BranchTally

/-! ## The line index -/

/-- The functions around each line, in the order of the boundary map. -/
structure LineIndex where
  buckets : Std.HashMap Int (List Owner)

namespace LineIndex

/-- The functions around a line. -/
def lookup (idx : LineIndex) (line : Int) : List Owner := idx.buckets.getD line []

/-- Adds a function to one line, behind those that are there. -/
def push (idx : LineIndex) (line : Int) (owner : Owner) : LineIndex :=
  ⟨idx.buckets.insert line (idx.lookup line ++ [owner])⟩

/-- Adds a function to the `count` lines from `first` on. -/
def pushLines (idx : LineIndex) (owner : Owner) (first : Int) : (count : Nat) → LineIndex
  | 0 => idx
  | count + 1 => (idx.push first owner).pushLines owner (first + 1) count

/-- Adds a function to every line of its boundary. -/
def pushOwner (idx : LineIndex) (owner : Owner) : LineIndex :=
  idx.pushLines owner owner.boundary.start (owner.boundary.size.toNat + 1)

/-- The index of a list of functions. -/
def ofOwners (owners : List Owner) : LineIndex := owners.foldl pushOwner ⟨∅⟩

end LineIndex

/-- The boundaries of a file together with their line index. -/
structure Ownership where
  boundaries : BoundaryMap
  index : LineIndex

namespace Ownership

/-- The ownership that a boundary map gives. -/
def of (boundaries : BoundaryMap) : Ownership := ⟨boundaries, .ofOwners boundaries.owners⟩

/-- The functions around a line, in the order of the map. -/
def containing (ctx : Ownership) (line : Int) : List Owner := ctx.index.lookup line

/-- The functions of the map that start on a line. -/
def startingOn (ctx : Ownership) (line : Int) : List Owner :=
  ctx.boundaries.owners.filter fun f => f.boundary.start = line

end Ownership

/-! ## Choosing among functions -/

/-- The first element that no other one beats. -/
def bestBy {α : Type} (beats : α → α → Bool) : List α → Option α
  | [] => none
  | first :: rest => some (rest.foldl (fun best x => if beats x best then x else best) first)

namespace Owner

/-- A smaller boundary, or one of the same size that starts later. -/
def tighter (a b : Owner) : Bool :=
  a.boundary.size < b.boundary.size ||
    (a.boundary.size = b.boundary.size && b.boundary.start < a.boundary.start)

/-- An earlier start. -/
def earlier (a b : Owner) : Bool := a.boundary.start < b.boundary.start

/-- A later start. -/
def later (a b : Owner) : Bool := b.boundary.start < a.boundary.start

/-- A smaller boundary, whatever its start. -/
def smaller (a b : Owner) : Bool := a.boundary.size < b.boundary.size

/-- The function takes this one line only. -/
def isOneLiner (f : Owner) (line : Int) : Bool := f.boundary.start = line && f.boundary.stop = line

/-- The function started above the line and has not ended above it. -/
def encloses (f : Owner) (line : Int) : Bool := f.boundary.start < line && line ≤ f.boundary.stop

/-- The function starts further down than another one. -/
def startsInside (f parent : Owner) : Bool := parent.boundary.start < f.boundary.start

end Owner

/-- The functions whose boundary holds the line. -/
def validAt (functions : List Owner) (line : Int) : List Owner :=
  functions.filter fun f => f.boundary.contains line

/-- The function with the tightest boundary. -/
def tightest? (functions : List Owner) : Option Owner := bestBy Owner.tighter functions

/-- The tightest function that started strictly above the line and still holds it. -/
def immediateParent? (functions : List Owner) (line : Int) : Option Owner :=
  tightest? (functions.filter (·.encloses line))

/-! ## The innermost function -/

/-- The owner where there is little to choose from: `valid` are those of the functions in
`containing` that hold the line. -/
def simpleOwner? (containing valid : List Owner) : Option Owner :=
  match containing, valid with
  | [], _ => none
  | [f], _ => some f
  | f :: _, [] => some f
  | _, [f] => some f
  | _, _ => none

/-- The owner among the functions that opened inside `parent`: the tightest that is still running,
else `parent` or a one-liner where such functions have ended by the line. -/
def nestedOwner? (functions : List Owner) (parent : Owner) (line : Int) : Option Owner :=
  let nested := functions.filter (·.startsInside parent)
  let active := nested.filter fun f => f.boundary.start < line && line < f.boundary.stop
  let ended := nested.filter fun f => f.boundary.stop ≤ line && f.boundary.start ≤ line
  if active.isEmpty then
    if ended.isEmpty then none
    else some ((tightest? (ended.filter (·.isOneLiner line))).getD parent)
  else tightest? active

/-- The owner among two or more functions that hold the line. -/
def crowdedOwner? (valid : List Owner) (line : Int) : Option Owner :=
  match (immediateParent? valid line).or (bestBy Owner.earlier valid) with
  | none => none
  | some parent =>
    let opening := valid.filter fun f => f.startsInside parent && f.boundary.start = line
    match tightest? (opening.filter (·.isOneLiner line)) with
    | some f => some f
    | none =>
      if opening.isEmpty then
        (nestedOwner? valid parent line).or
          ((tightest? (valid.filter fun f => f.boundary.start = line)).or (tightest? valid))
      else some parent

namespace Ownership

/-- The key of the function that owns a line. -/
def innermost? (ctx : Ownership) (line : Int) : Option Int :=
  let containing := ctx.containing line
  let valid := validAt containing line
  ((simpleOwner? containing valid).or (crowdedOwner? valid line)).map (·.key)

/-! ## Control structures and callbacks -/

/-- The key of the function that owns a control structure opened on a line. Callbacks that start on
the line never own it; of the other functions around the line the one that started last above it
does. -/
def controlOwner? (ctx : Ownership) (line : Int) : Option Int :=
  let valid := validAt (ctx.containing line) line
  match bestBy Owner.earlier valid with
  | none => ctx.innermost? line
  | some outermost =>
    let isCallback (f : Owner) : Bool := f.boundary.start = line && f.startsInside outermost
    let hosts := valid.filter fun f => !isCallback f
    if !valid.any isCallback then ctx.innermost? line
    else
      match (bestBy Owner.later (hosts.filter (·.encloses line))).or
          (bestBy Owner.earlier hosts) with
      | some f => some f.key
      | none => ctx.innermost? line

/-- The tightest function other than `owner` that starts on a line. -/
def callbackOn? (ctx : Ownership) (line : Int) (owner : Option Int) : Option Owner :=
  tightest? ((validAt (ctx.containing line) line).filter fun f =>
    f.boundary.start = line && some f.key ≠ owner)

/-- The function whose arrow stands on a line: the tightest that starts there, else the given one,
which need not have a boundary. -/
def arrowOwner (ctx : Ownership) (line function : Int) : Int × Option Boundary :=
  match tightest? (ctx.startingOn line) with
  | some f => (f.key, some f.boundary)
  | none => (function, ctx.boundaries.get? function)

end Ownership

end BranchTally
