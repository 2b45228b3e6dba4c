-- SUMMARY: Nesting depth in parentheses, braces and brackets.

import BranchTally.Line.Literal

/-! # Nesting depth

The three counters move on their own and may fall below zero: a piece of code can close what an
earlier piece opened. Strings are not looked at here; a search that must not see them skips them
itself.
-/

namespace BranchTally

/-- How many brackets of each sort are open. -/
structure Depth where
  paren : Int := 0
  brace : Int := 0
  bracket : Int := 0
  deriving DecidableEq

namespace Depth

/-- The depth after one more character. -/
def step (d : Depth) (c : Char) : Depth :=
  match c with
  | '(' => { d with paren := d.paren + 1 }
  | ')' => { d with paren := d.paren - 1 }
  | '{' => { d with brace := d.brace + 1 }
  | '}' => { d with brace := d.brace - 1 }
  | '[' => { d with bracket := d.bracket + 1 }
  | ']' => { d with bracket := d.bracket - 1 }
  | _ => d

/-- The depth at the end of a text. -/
def of (text : Line) : Depth := text.foldl step {}

/-- Some counter is lower than that of `e`. -/
def below (d e : Depth) : Bool :=
  d.paren < e.paren || d.brace < e.brace || d.bracket < e.bracket

/-- Every counter is that of `e` or up to `tolerance` more. -/
def within (d e : Depth) (tolerance : Int) : Bool :=
  e.paren ≤ d.paren && d.paren ≤ e.paren + tolerance &&
    (e.brace ≤ d.brace && d.brace ≤ e.brace + tolerance) &&
    (e.bracket ≤ d.bracket && d.bracket ≤ e.bracket + tolerance)

end Depth

end BranchTally
