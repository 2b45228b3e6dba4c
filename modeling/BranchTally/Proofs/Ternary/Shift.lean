-- SUMMARY: The text in front of a question mark has no say in whether its colon follows, apart from the quotes it leaves open and whether it has a brace.
import Mathlib
import BranchTally.Proofs.Literal.Walk
import BranchTally.Proofs.Ternary.Layout

/-!
# The text in front of a question mark

The search compares depths with the one at its question mark and never looks at a depth by itself, so it runs
alike when all depths are moved by the same amount. What the text in front decides is the mask, by the quotes
that it leaves open, and whether the question mark looks like one in markup.
-/

namespace BranchTally

/-! ## Moved depths -/

/-- The depth with another one added. -/
def Depth.shift (d e : Depth) : Depth :=
  ⟨d.paren + e.paren, d.brace + e.brace, d.bracket + e.bracket⟩

namespace Depth

variable (d e target : Depth)

theorem zero_shift : ({} : Depth).shift d = d := by
  simp [shift]

theorem step_shift (c : Char) : (d.shift e).step c = (d.step c).shift e := by
  unfold step
  split <;> simp only [shift, Depth.mk.injEq, true_and, and_true] <;> omega

@[simp]
theorem below_shift : (d.shift e).below (target.shift e) = d.below target := by
  simp [below, shift]

@[simp]
theorem within_shift (tolerance : Int) :
    (d.shift e).within (target.shift e) tolerance = d.within target tolerance := by
  rw [Bool.eq_iff_iff]
  simp only [within, Bool.and_eq_true, decide_eq_true_eq]
  simp only [shift]
  omega

@[simp]
theorem shift_eq_shift_iff : d.shift e = target.shift e ↔ d = target := by
  obtain ⟨paren, brace, bracket⟩ := d
  obtain ⟨paren', brace', bracket'⟩ := target
  simp [shift]

end Depth

/-! ## Moved searches -/

/-- The rule of a search at another depth. -/
def ColonRule.shift (rule : ColonRule) (e : Depth) : ColonRule :=
  { rule with target := rule.target.shift e }

/-- The same result at another depth. -/
def ColonResult.shift (e : Depth) : ColonResult → ColonResult
  | .decided found => .decided found
  | .undecided state => .undecided ⟨state.depth.shift e, state.pending⟩

namespace ColonRule

variable (rule : ColonRule) (e : Depth)

theorem target_shift : (rule.shift e).target = rule.target.shift e := rfl

theorem accepts_shift (d : Depth) : (rule.shift e).accepts (d.shift e) = rule.accepts d := by
  obtain ⟨target, inMarkup, tolerance⟩ := rule
  simp only [accepts, shift, Depth.shift_eq_shift_iff, Depth.within_shift]
  rfl

theorem stopsAt_shift (d : Depth) (pending : Nat) (c : Char) :
    (rule.shift e).stopsAt ⟨d.shift e, pending⟩ c = rule.stopsAt ⟨d, pending⟩ c := by
  obtain ⟨target, inMarkup, tolerance⟩ := rule
  simp only [stopsAt, shift, Depth.shift_eq_shift_iff]
  rfl

/-- A search that is moved comes to the same result, moved. -/
theorem search_shift (skip : Nat) (d : Depth) (pending : Nat) (cells : List Cell) :
    (rule.shift e).search skip ⟨d.shift e, pending⟩ cells =
      (rule.search skip ⟨d, pending⟩ cells).shift e := by
  induction cells generalizing skip d pending with
  | nil => cases skip <;> rfl
  | cons cell cells ih =>
    cases skip with
    | succ skip => exact ih skip d pending
    | zero =>
      simp only [search, target_shift, accepts_shift, Depth.step_shift, Depth.below_shift, stopsAt_shift]
      split_ifs with hmasked hquestion hcolon hpending haccepts hbelow hstop
      · exact ih 0 d pending
      · split
        · exact ih 0 d (pending + 1)
        · exact ih _ d pending
      · exact ih 0 d (pending - 1)
      · rfl
      · exact ih 0 d pending
      · rfl
      · rfl
      · exact ih 0 (d.step cell.char) pending

theorem searchLines_shift (d : Depth) (pending : Nat) (lines : List Line) :
    (rule.shift e).searchLines ⟨d.shift e, pending⟩ lines = rule.searchLines ⟨d, pending⟩ lines := by
  induction lines generalizing d pending with
  | nil => rfl
  | cons line lines ih =>
    rw [searchLines, searchLines, search_shift]
    cases rule.search 0 ⟨d, pending⟩ (cells line) with
    | decided found => rfl
    | undecided state => exact ih state.depth state.pending

end ColonRule

/-- The depth of the question mark does not matter: the search may set out from any. -/
theorem colonFollows_eq (before after : Line) (rest : List Cell) (below : List Line) :
    colonFollows before after rest below =
      let inMarkup := looksLikeMarkup before after
      match (ColonRule.mk {} inMarkup 0).search 0 ⟨{}, 0⟩ rest with
      | .decided found => found
      | .undecided state => (ColonRule.mk {} inMarkup (if inMarkup then 1 else 0)).searchLines state
          (below.take continuationLimit) := by
  simp only [colonFollows]
  generalize looksLikeMarkup before after = inMarkup
  generalize Depth.of before = target
  have hrule (tolerance : Int) :
      ColonRule.mk target inMarkup tolerance = (ColonRule.mk {} inMarkup tolerance).shift target := by
    rw [ColonRule.shift, Depth.zero_shift]
  have hsearch := (ColonRule.mk {} inMarkup 0).search_shift target 0 {} 0 rest
  rw [Depth.zero_shift] at hsearch
  rw [hrule, hsearch, hrule]
  cases (ColonRule.mk {} inMarkup 0).search 0 ⟨{}, 0⟩ rest with
  | decided found => rfl
  | undecided state => exact ColonRule.searchLines_shift _ target state.depth state.pending _

/-! ## Lines with the same end -/

/-- The cells behind a question mark are those of the text there, in the state that the text in front
leaves. -/
theorem drop_cells_question (front rest : Line) :
    (cells (front ++ '?' :: rest)).drop (front.length + 1) =
      cellsFrom (some '?') (rest.zip ((QuoteState.behind {} front).mask ('?' :: rest)).tail) := by
  obtain ⟨mark, marks, hmarks⟩ := List.exists_of_length_succ _
    (QuoteState.length_mask (QuoteState.behind {} front) ('?' :: rest))
  have hcells : maskedCells (front ++ '?' :: rest) =
      maskedCells front ++ ('?', mark) :: rest.zip marks := by
    rw [maskedCells, literalMask, QuoteState.mask_append (by simp), hmarks,
      List.zip_append (QuoteState.length_mask _ _).symm, List.zip_cons_cons]
    rfl
  obtain ⟨before, hdrop⟩ := drop_cellsFrom none (maskedCells front) (('?', mark) :: rest.zip marks)
  rw [length_maskedCells] at hdrop
  rw [cells, hcells, ← List.drop_drop, hdrop, hmarks]
  rfl

/-- Whether a question mark has its colon is decided by the text behind it, the quotes that are open in
front of it, and whether there is a brace in front: neither how deep it stands nor the lines above it have a
say. -/
theorem hasMatchingColon_congr_front {front front' : Line}
    (hstate : QuoteState.behind {} front = QuoteState.behind {} front')
    (hbrace : '{' ∈ front ↔ '{' ∈ front') (rest : Line) (number number' : Int)
    (above above' below : List Line) :
    hasMatchingColon ⟨number, above, front ++ '?' :: rest, below⟩ front.length =
      hasMatchingColon ⟨number', above', front' ++ '?' :: rest, below⟩ front'.length := by
  have hmarkup : looksLikeMarkup front rest = looksLikeMarkup front' rest := by
    rw [looksLikeMarkup, looksLikeMarkup, Bool.eq_iff_iff]
    simp [hbrace]
  have hafter (text : Line) : (text ++ '?' :: rest).drop (text.length + 1) = rest := by
    rw [List.drop_length_add_append]
    rfl
  simp only [hasMatchingColon, List.take_left', hafter, drop_cells_question, hstate, colonFollows_eq, hmarkup]

/-- Behind a string with brackets and inside a call, and as the condition of a declaration. -/
theorem hasMatchingColon_congr_front_brackets_in_string :
    let front := "f(g[\")(\", a ".toList
    let front' := "const v = a ".toList
    let rest := " b".toList
    let below := ["  : c;".toList]
    QuoteState.behind {} front = QuoteState.behind {} front' ∧ ('{' ∈ front ↔ '{' ∈ front') ∧
      Depth.of front ≠ Depth.of front' ∧
      hasMatchingColon ⟨1, [], front ++ '?' :: rest, below⟩ front.length = true ∧
      hasMatchingColon ⟨7, ["let a;".toList], front' ++ '?' :: rest, below⟩ front'.length = true := by
  intro front front' rest below
  have hstate : QuoteState.behind {} front = QuoteState.behind {} front' := by decide
  have hbrace : '{' ∈ front ↔ '{' ∈ front' := by decide
  have hcolon : hasMatchingColon ⟨1, [], front ++ '?' :: rest, below⟩ front.length = true := by decide
  have hsame := hasMatchingColon_congr_front hstate hbrace rest 1 7 [] ["let a;".toList] below
  exact ⟨hstate, hbrace, by decide, hcolon, hsame.symm.trans hcolon⟩

end BranchTally
