-- SUMMARY: The line ranges of functions, and the map from function keys to ranges.

import BranchTally.OrderedMap

/-! # Function boundaries

A boundary is the inclusive range of lines that a function takes. The functions of a file are known
by keys, and a boundary map gives each key its range.
-/

namespace BranchTally

/-- An inclusive range of lines that does not end before it starts. -/
structure Boundary where
  start : Int
  stop : Int
  start_le_stop : start ≤ stop
  deriving DecidableEq

namespace Boundary

/-- The boundary from `start` to `stop`, where there is one. -/
def ofRange? (start stop : Int) : Option Boundary :=
  if h : start ≤ stop then some ⟨start, stop, h⟩ else none

/-- How far the last line lies below the first. -/
def size (b : Boundary) : Int := b.stop - b.start

/-- The line lies in the range. -/
def contains (b : Boundary) (line : Int) : Bool := b.start ≤ line && line ≤ b.stop

/-- What is said of a range that ends before it starts. -/
def reversedRange (start stop : Int) : String :=
  "Invalid boundary: end=" ++ toString stop ++ " is before start=" ++ toString start

end Boundary

/-- The boundary of each function, by key. -/
abbrev BoundaryMap := OrderedMap Int Boundary

/-- A function of a boundary map. -/
structure Owner where
  key : Int
  boundary : Boundary
  deriving DecidableEq

/-- The functions of a map, in its order. -/
def BoundaryMap.owners (m : BoundaryMap) : List Owner :=
  m.entries.map fun entry => ⟨entry.1, entry.2⟩

end BranchTally
