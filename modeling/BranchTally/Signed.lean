-- SUMMARY: Questions about a place in a line or text that may be counted from the end.

import BranchTally.Parameter.Points
import BranchTally.Logical.Continuation

/-! # Signed positions

Callers may count a position from the end: `-1` is the last item. Two rules hold. An item that is not
there is an error, while a slice just has fewer items. Neighbours are found by adding to the signed
number, so the item after the last one is the first one again, while no slice wraps around.

For positions from the front every function here agrees with its plain counterpart.
-/

namespace BranchTally

open Text

/-! ## Items and slices -/

/-- An item that is not there. -/
inductive PositionError where
  | text
  | list
  deriving DecidableEq

namespace Signed

/-- The item at a signed position. -/
def item? {α : Type} (xs : List α) (i : Int) : Option α :=
  if 0 ≤ i then xs[i.toNat]?
  else if 0 ≤ i + xs.length then xs[(i + xs.length).toNat]?
  else none

/-- A signed end of a slice as a count from the front. -/
def clamp {α : Type} (xs : List α) (i : Int) : Nat :=
  if 0 ≤ i then i.toNat else (i + xs.length).toNat

/-- The items from `start` up to, but not including, `stop`. -/
def slice {α : Type} (xs : List α) (start stop : Int) : List α :=
  (xs.take (clamp xs stop)).drop (clamp xs start)

/-- The items from `start` on. -/
def sliceFrom {α : Type} (xs : List α) (start : Int) : List α := xs.drop (clamp xs start)

/-- The items in front of `stop`. -/
def sliceTo {α : Type} (xs : List α) (stop : Int) : List α := xs.take (clamp xs stop)

/-- The only item of a slice of length one. -/
def single? {α : Type} (xs : List α) (i : Int) : Option α := (slice xs i (i + 1)).head?

/-! ## Places in a line -/

/-- Some string content is open in front of a position; none is in front of the line. -/
def isInsideLiteral (line : Line) (i : Int) : Bool := BranchTally.isInsideLiteral line i.toNat

/-- The position lies inside a comment. -/
def isInsideComment (line : Line) (i : Int) : Bool :=
  0 ≤ i && BranchTally.isInsideComment line i.toNat

/-- The live positions of a token from `start` on; it must end at `stop`. -/
def findTokens (line : Line) (token : List Char) (start : Int) (stop : Option Int) : List Nat :=
  BranchTally.findTokens line token (clamp line start) (stop.map Int.toNat)

/-- The depth in front of a position. -/
def depthAt (line : Line) (i : Int) : Depth := .of (sliceTo line i)

/-- Optional chaining at a position. -/
def isOptionalChain (line : Line) (i : Int) : Bool :=
  BranchTally.isOptionalChain (single? line (i + 1)) (single? line (i + 2))

/-- A mark of `??` at a position. -/
def isNullishHalf (line : Line) (i : Int) : Except PositionError Bool :=
  let next := single? line (i + 1)
  if next = some '?' || i ≤ 0 then .ok (BranchTally.isNullishHalf none next)
  else
    match item? line (i - 1) with
    | some c => .ok (BranchTally.isNullishHalf (some c) next)
    | none => .error .text

/-- An optional marker at a position. -/
def isOptionalMarker (line : Line) (i : Int) : Except PositionError Bool :=
  if i = 0 then .ok false
  else
    match item? line (i - 1) with
    | some c => .ok (BranchTally.isOptionalMarker (some c) (line.drop (i + 1).toNat))
    | none => .error .text

/-- The cells from a signed position to the end of the line; from before the end they are followed
by those of the whole line. -/
def masked (line : Line) (start : Int) : List (Char × Bool) :=
  if 0 ≤ start then (maskedCells line).drop start.toNat
  else (maskedCells line).drop (clamp line start) ++ maskedCells line

/-- The parenthesis that balances the one at `opening`. -/
def closingParen? (line : Line) (opening : Int) : Except PositionError (Option Int) :=
  if opening < 0 ∧ opening + line.length < 0 then .error .list
  else .ok ((closingParenFrom 0 0 (masked line opening)).map fun k => opening + k)

/-! ## Matching colons -/

/-- The meaning of a question mark at a position before the end, counted from there. -/
def questionAt (line : Line) (i : Int) : Except PositionError Question :=
  match single? line (i + 1) with
  | some '.' => .ok .chain
  | some '?' => .ok (if single? line (i + 2) = some '=' then .nullishAssign else .nullish)
  | _ => do
    let marker ← isOptionalMarker line i
    .ok (if marker then .marker else .plain)

/-- The cells of the `count` positions from `start` on, which lie before the end of the line. -/
def cellsBefore (line : Line) (start : Int) : (count : Nat) → Except PositionError (List Cell)
  | 0 => .ok []
  | count + 1 =>
    match item? (maskedCells line) start with
    | none => .error .text
    | some (c, masked) => do
      let question ← if c = '?' && !masked then questionAt line start else .ok .plain
      let rest ← cellsBefore line (start + 1) count
      .ok (⟨c, masked, question⟩ :: rest)

/-- The cells that a search from a signed position meets. -/
def cellsFrom (line : Line) (start : Int) : Except PositionError (List Cell) := do
  if 0 ≤ start then .ok ((cells line).drop start.toNat)
  else
    let front ← cellsBefore line start start.natAbs
    .ok (front ++ cells line)

/-- The question mark at a position of a line has its colon. -/
def hasMatchingColon (lines : List Line) (index position : Int) : Except PositionError Bool :=
  match item? lines index with
  | none => .error .list
  | some line => do
    let rest ← cellsFrom line (position + 1)
    let below := slice lines (index + 1) (min (lines.length : Int) (index + 1 + continuationLimit))
    .ok (colonFollows (sliceTo line position) (sliceFrom line (position + 1)) rest below)

/-! ## A line in view -/

/-- A line in view by a signed index. Counted from the end it has no lines above it in the sense of
the collectors; `focus` has the lines below it by item, `sliced` by slice, and `above` is the line
one index lower. -/
structure View where
  focus : Focus
  sliced : Focus
  above : Option Line

/-- The line with an index, counted from zero, in view. -/
def view (lines : List Line) (index : Int) : Except PositionError View :=
  match item? lines index with
  | none => .error .list
  | some line =>
    if 0 ≤ index then
      let f : Focus :=
        ⟨index + 1, (lines.take index.toNat).reverse, line, lines.drop (index.toNat + 1)⟩
      .ok ⟨f, f, f.before.head?⟩
    else
      let below := slice lines (index + 1) (min (lines.length : Int) (index + 1 + continuationLimit))
      let around := if index = -1 then lines else sliceFrom lines (index + 1) ++ lines
      .ok ⟨⟨index + 1, [], line, around⟩, ⟨index + 1, [], line, below⟩, item? lines (index - 1)⟩

/-- The points of a line in view where it goes on a condition from the line with the index before. -/
def continuationPoints (ctx : Ownership) (v : View) (headers : Headers) (markup : Markup)
    (default : Int) : Except PositionError (List Point) :=
  if v.focus.number = 1 then .ok []
  else
    match v.above with
    | some above => .ok (continuationPointsBelow ctx above v.focus headers markup default)
    | none => if mayContinue v.focus headers markup then .error .list else .ok []

/-- The index of the line where the condition began that the line in view goes on. -/
def conditionStart? (v : View) : Option Int :=
  (BranchTally.conditionStart? v.focus.before).map fun distance => v.focus.number - 1 - distance

/-! ## Looking back -/

/-- Looks at `count` lines above an index, the next one at distance `distance`; `found` is the index of the
farthest line with an operator so far. -/
def lookbackFrom (lines : List Line) (index : Int) (distance : Nat) (found : Option Int) :
    (count : Nat) → Except PositionError (Option Int)
  | 0 => .ok found
  | count + 1 =>
    let place := index - distance
    if place < 0 then .ok found
    else
      match item? lines place with
      | none => .error .list
      | some above =>
        let line := trim (stripComments above)
        if stopsLookback line then .ok found
        else if isConditionStart line then .ok (some place)
        else
          lookbackFrom lines index (distance + 1) (if hasLogicalPair line then some place else found) count

/-- The index of the line where the condition began that the line with an index goes on. That line need not
be there, but the one above it has to be. -/
def lookback (lines : List Line) (index : Int) : Except PositionError (Option Int) :=
  lookbackFrom lines index 1 none lookbackLimit

end Signed

end BranchTally
