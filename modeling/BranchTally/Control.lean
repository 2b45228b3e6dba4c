-- SUMMARY: The points of control structures and of the operators in their conditions.

import BranchTally.Line.Header
import BranchTally.Ownership
import BranchTally.Ternary.Points

/-! # Points of control structures

Each header of a line makes one point. The `&&` and `||` between its parentheses make points of their
own, except in `for...of` and `for...in` headers. Keywords that callbacks on their line must not
capture are owned by `Ownership.controlOwner?`, the others by the default function of the line.
-/

namespace BranchTally

/-! ## Operators of a condition -/

/-- The live operators between the parentheses of a header, from left to right; a condition that goes
on below the line is read to the end of the line. -/
def conditionOperators (line : Line) (h : Header) : List (Nat × Logical) :=
  match h.parens with
  | none => []
  | some p =>
    let found := Logical.all.flatMap fun op =>
      (findTokens line op.token p.opening p.closing).map fun i => (i, op)
    found.mergeSort fun a b => a.1 ≤ b.1

/-- The points of the operators of a header, all with one owner. -/
def operatorPoints (line : Line) (h : Header) (number owner : Int) : List Point :=
  (conditionOperators line h).map fun o => ⟨number, o.2.kind, owner⟩

/-! ## Points of one header -/

/-- The owner of a control keyword on a line. -/
def controlOwner (ctx : Ownership) (number default : Int) : Int :=
  keyOr (ctx.controlOwner? number) default

/-- An `if` and its operators. Operators after an arrow inside the condition belong to the callback
that opens on the line. -/
def ifPoints (ctx : Ownership) (line : Line) (number : Int) (h : Header) (default : Int) :
    List Point :=
  let owner := controlOwner ctx number default
  let arrows :=
    match h.parens with
    | some p => findTokens line ['=', '>'] p.opening p.closing
    | none => findTokens line ['=', '>'] 0 none
  let operatorOwner (i : Nat) : Int :=
    match arrows.head? with
    | none => owner
    | some arrow =>
      match ctx.callbackOn? number (some owner) with
      | some callback => if arrow < i then callback.key else owner
      | none => owner
  ⟨number, .ifBranch, owner⟩ ::
    (conditionOperators line h).map fun o => ⟨number, o.2.kind, operatorOwner o.1⟩

/-- The point of a header, then those of its operators. -/
def headerPoints (kind : Kind) (line : Line) (number owner : Int) (h : Header) : List Point :=
  ⟨number, kind, owner⟩ :: operatorPoints line h number owner

/-- The points of all control structures that open on a line. -/
def controlPoints (ctx : Ownership) (line : Line) (number : Int) (headers : Headers)
    (default : Int) : List Point :=
  let each (header : Option Header) (points : Header → List Point) : List Point :=
    (header.map points).getD []
  let owner := controlOwner ctx number default
  each headers.ifHeader (fun h => ifPoints ctx line number h default) ++
    each headers.elseIf (headerPoints .elseIf line number default) ++
    each headers.forHeader (fun h =>
      ⟨number, headers.forKind, owner⟩ ::
        if headers.forKind = .forLoop then operatorPoints line h number owner else []) ++
    each headers.whileHeader (headerPoints .whileLoop line number owner) ++
    each headers.doHeader (fun _ => [⟨number, .doWhile, default⟩]) ++
    each headers.doTail (fun h => operatorPoints line h number default) ++
    each headers.switchHeader (headerPoints .switchBranch line number owner) ++
    (if headers.isCase then [⟨number, .caseClause, default⟩] else []) ++
    each headers.catchHeader (headerPoints .catchClause line number default)

end BranchTally
