-- SUMMARY: The mask of a redacted line is the same outside the content, and so are the parentheses that are closed.
import Mathlib
import BranchTally.Proofs.Literal.Walk
import BranchTally.Proofs.ParenBalance
import BranchTally.Proofs.Redaction.Line

/-!
# The mask of a redacted line

The walk over quotes reaches the guard in the same state whatever comes behind it, and it leaves the
content in the same state where that has no quotes, braces and backslashes. Behind a comment that goes
on to the end of the line nothing is left to mask.
-/

namespace BranchTally

open Text

/-! ## The walk -/

namespace QuoteState

/-- Texts of characters that open and close nothing leave the walk in one state, whatever they are. -/
theorem mask_unquoting_append (s : QuoteState) (length : Nat) :
    ∃ t : QuoteState, ∀ hidden behind : Line, hidden.length = length →
      (∀ c ∈ hidden, isUnquoting c = true) → behind.head? ≠ some '{' →
      s.mask (hidden ++ behind) = List.replicate length s.inLiteral ++ t.mask behind := by
  induction length generalizing s with
  | zero =>
    refine ⟨s, fun hidden behind hlength _ _ => ?_⟩
    rw [List.eq_nil_of_length_eq_zero hlength]
    rfl
  | succ length ih =>
    obtain ⟨t, ht⟩ := ih { s with escaped := false }
    refine ⟨t, fun hidden behind hlength hmem hbehind => ?_⟩
    cases hidden with
    | nil => simp at hlength
    | cons c hidden =>
      have hrest := ht hidden behind (by simpa using hlength)
        (fun d hd => hmem d (List.mem_cons_of_mem _ hd)) hbehind
      have hnext : (hidden ++ behind).head? ≠ some '{' := by
        cases hidden with
        | nil => exact hbehind
        | cons d hidden =>
          have hd := hmem d (by simp)
          intro heq
          obtain rfl : d = '{' := by simpa using heq
          revert hd
          decide
      have hstep := advance_unquoting (hmem c List.mem_cons_self) s hnext
      rw [List.cons_append, mask_cons (by rw [hstep]), hstep, hrest]
      rfl

end QuoteState

/-! ## Redacted lines -/

namespace Redaction

variable (r : Redaction)

/-- The mask up to the guard and with it. -/
def edge (mark : Bool) : List Bool := literalMask r.front ++ [mark]

theorem length_edge (mark : Bool) : (r.edge mark).length = r.start := by
  simp [edge, start, literalMask, QuoteState.length_mask]

/-- The masks of the two lines differ in the content at most. -/
def SameMask : Prop := ∃ (mark : Bool) (hidden filled tail : List Bool),
  hidden.length = r.content.length ∧ filled.length = r.content.length ∧
    literalMask r.text = r.edge mark ++ (hidden ++ tail) ∧
    literalMask r.redacted = r.edge mark ++ (filled ++ tail)

/-- The mask up to the guard, and the state behind it. -/
theorem exists_literalMask_fill : ∃ (mark : Bool) (t : QuoteState),
    ∀ hidden, literalMask (r.fill hidden) = r.edge mark ++ t.mask (hidden ++ r.behind) := by
  have hbrace := ne_brace_guard r.isGuard_guard
  obtain ⟨t, ht⟩ := QuoteState.mask_append_cons hbrace r.front {}
  have hdollar : r.guard ≠ '$' := forall_isGuard (p := (· ≠ '$')) (by decide) r.isGuard_guard
  have hnext (next : Option Char) : t.advance r.guard next = t.advance r.guard none := by
    simp [QuoteState.advance, hdollar]
  have hwidth : (t.advance r.guard none).width = 1 := t.width_advance r.guard (by simp)
  refine ⟨t.inLiteral, (t.advance r.guard none).state, fun hidden => ?_⟩
  rw [literalMask, fill, ht, QuoteState.mask_cons (by rw [hnext, hwidth]), hnext, edge]
  simp [literalMask]

/-- The mask is the same where neither content nor filler can open or close a literal. -/
theorem literalMask_redacted (hcontent : ∀ c ∈ r.content, isUnquoting c = true) :
    literalMask r.redacted = literalMask r.text ∧ r.SameMask := by
  obtain ⟨mark, t, hfill⟩ := r.exists_literalMask_fill
  obtain ⟨t', ht'⟩ := t.mask_unquoting_append r.content.length
  have hbehind : r.behind.head? ≠ some '{' := fun heq =>
    ne_brace_guard (r.isGuard_behind '{' heq) rfl
  have htext : literalMask r.text = r.edge mark ++
      (List.replicate r.content.length t.inLiteral ++ t'.mask r.behind) := by
    rw [text, hfill, ht' r.content r.behind rfl hcontent hbehind]
  have hredacted : literalMask r.redacted = r.edge mark ++
      (List.replicate r.content.length t.inLiteral ++ t'.mask r.behind) := by
    have hfiller : ∀ c ∈ r.filler, isUnquoting c = true :=
      r.forall_mem_filler (by decide) (by decide)
    rw [redacted, hfill, ht' r.filler r.behind r.length_filler hfiller hbehind]
  exact ⟨hredacted.trans htext.symm, mark, _, _, _, by simp, by simp, htext, hredacted⟩

/-- The masks differ in the content at most where they agree behind it. -/
theorem sameMask_of_drop (h : (literalMask r.redacted).drop r.stop = (literalMask r.text).drop r.stop) :
    r.SameMask := by
  obtain ⟨mark, t, hfill⟩ := r.exists_literalMask_fill
  have hsplit (hidden : Line) : literalMask (r.fill hidden) = r.edge mark ++
        ((t.mask (hidden ++ r.behind)).take r.content.length ++
          (literalMask (r.fill hidden)).drop r.stop) := by
    have hstop : r.stop = (r.edge mark).length + r.content.length := by rw [length_edge, stop]
    rw [hfill, hstop, List.drop_length_add_append, List.take_append_drop]
  have htake {hidden : Line} (hhidden : hidden.length = r.content.length) :
      ((t.mask (hidden ++ r.behind)).take r.content.length).length = r.content.length := by
    rw [List.length_take, QuoteState.length_mask, List.length_append, hhidden]
    omega
  refine ⟨mark, _, _, _, htake rfl, htake r.length_filler, hsplit r.content, ?_⟩
  rw [← text, ← h]
  exact hsplit r.filler

variable {r}

theorem SameMask.getElem?_literalMask (h : r.SameMask) {i : Nat} (hi : ¬ r.Hides i) :
    (literalMask r.redacted)[i]? = (literalMask r.text)[i]? := by
  obtain ⟨mark, hidden, filled, tail, hhidden, hfilled, htext, hredacted⟩ := h
  have hedge := r.length_edge mark
  rw [htext, hredacted]
  by_cases hlt : i < r.start
  · rw [List.getElem?_append_left (by omega), List.getElem?_append_left (by omega)]
  · have hstop : r.content.length ≤ i - r.start := by
      simp only [Hides, stop, not_and] at hi
      omega
    rw [List.getElem?_append_right (by omega), List.getElem?_append_right (by omega), hedge,
      List.getElem?_append_right (by omega), List.getElem?_append_right (by omega), hhidden, hfilled,
      hedge]

/-! ## Masked characters -/

theorem SameMask.getElem?_maskedCells (h : r.SameMask) {i : Nat} (hi : ¬ r.Hides i) :
    (maskedCells r.redacted)[i]? = (maskedCells r.text)[i]? := by
  refine Option.ext fun cell => ?_
  rw [maskedCells, maskedCells, List.getElem?_zip_eq_some, List.getElem?_zip_eq_some,
    h.getElem?_literalMask hi, r.getElem?_redacted hi]

/-- The masked characters of the two lines up to the guard, in the content and behind it. -/
theorem SameMask.exists_cells (h : r.SameMask) :
    ∃ (mark : Bool) (hidden filled tail : List (Char × Bool)),
      hidden.map Prod.fst = r.content ∧ filled.map Prod.fst = r.filler ∧
        tail.map Prod.fst = r.behind ∧
        maskedCells r.text = maskedCells r.front ++ (r.guard, mark) :: (hidden ++ tail) ∧
        maskedCells r.redacted = maskedCells r.front ++ (r.guard, mark) :: (filled ++ tail) := by
  obtain ⟨mark, hidden, filled, tail, hhidden, hfilled, htext, hredacted⟩ := h
  have htail : tail.length = r.behind.length := by
    have hlength := congrArg List.length htext
    simp only [literalMask, QuoteState.length_mask, text, fill, List.length_append, List.length_cons,
      length_edge, start, hhidden] at hlength
    omega
  have hfront : r.front.length = (literalMask r.front).length :=
    (QuoteState.length_mask _ _).symm
  have hcells {chars : Line} {marks : List Bool} (hlength : marks.length = chars.length) :
      (r.front ++ r.guard :: (chars ++ r.behind)).zip (r.edge mark ++ (marks ++ tail)) =
        maskedCells r.front ++ (r.guard, mark) :: (chars.zip marks ++ r.behind.zip tail) := by
    rw [edge, List.append_assoc, List.zip_append hfront, List.singleton_append, List.zip_cons_cons,
      List.zip_append hlength.symm, maskedCells]
  refine ⟨mark, r.content.zip hidden, r.filler.zip filled, r.behind.zip tail, ?_, ?_, ?_, ?_, ?_⟩
  · rw [List.map_fst_zip (by omega)]
  · rw [List.map_fst_zip (by rw [hfilled, r.length_filler])]
  · rw [List.map_fst_zip (by omega)]
  · rw [← hcells hhidden, ← htext]
    rfl
  · rw [← hcells (hfilled.trans r.length_filler.symm), ← hredacted]
    rfl

/-- Masked texts that are equal but where both have something that does not matter. -/
abbrev SameCells (idle : Char × Bool → Prop) : List (Char × Bool) → List (Char × Bool) → Prop :=
  List.Forall₂ fun x x' => x = x' ∨ idle x ∧ idle x'

/-- What the two lines are turned into agrees where the content and the filler are idle, if it agrees
outside them. -/
theorem forall₂_of_hides {α : Type} {idle : α → Prop} {left right : List α}
    (hlength : left.length = right.length) (hshown : ∀ i, ¬ r.Hides i → (right)[i]? = (left)[i]?)
    (hleft : ∀ i x, r.Hides i → (left)[i]? = some x → idle x)
    (hright : ∀ i x, r.Hides i → (right)[i]? = some x → idle x) :
    List.Forall₂ (fun x y => x = y ∨ idle x ∧ idle y) left right := by
  refine List.forall₂_of_length_eq_of_get hlength fun i hlt hlt' => ?_
  rw [List.get_eq_getElem, List.get_eq_getElem]
  have hx := List.getElem?_eq_getElem hlt
  have hy := List.getElem?_eq_getElem hlt'
  by_cases hi : r.Hides i
  · exact Or.inr ⟨hleft i _ hi hx, hright i _ hi hy⟩
  · have hsame := hshown i hi
    rw [hx, hy] at hsame
    exact Or.inl (Option.some.inj hsame).symm

/-- The masked characters of the two lines agree where the content and the filler are idle. -/
theorem SameMask.sameCells (h : r.SameMask) {idle : Char × Bool → Prop}
    (hidle : ∀ i cell, r.Hides i → (maskedCells r.text)[i]? = some cell → idle cell)
    (hidle' : ∀ i cell, r.Hides i → (maskedCells r.redacted)[i]? = some cell → idle cell) :
    SameCells idle (maskedCells r.text) (maskedCells r.redacted) :=
  forall₂_of_hides (by rw [length_maskedCells, length_maskedCells, length_redacted])
    (fun _ => h.getElem?_maskedCells) hidle hidle'

/-- A character at a hidden position is one of the content. -/
theorem mem_of_getElem?_fill {hidden : Line} (hhidden : r.IsHidden hidden) {i : Nat} (hi : r.Hides i)
    {c : Char} (h : (r.fill hidden)[i]? = some c) : c ∈ hidden := by
  have hstart : (r.front ++ [r.guard]).length = r.start := by simp [start]
  have hlt : i - r.start < hidden.length := by
    rw [hhidden.length_eq]
    simp only [Hides, stop] at hi
    omega
  rw [fill_eq, List.getElem?_append_right (by rw [hstart]; exact hi.1), hstart,
    List.getElem?_append_left hlt] at h
  exact List.mem_of_getElem? h

theorem mem_of_hides {hidden : Line} (hhidden : r.IsHidden hidden) {i : Nat} (hi : r.Hides i)
    {cell : Char × Bool} (h : (maskedCells (r.fill hidden))[i]? = some cell) : cell.1 ∈ hidden :=
  mem_of_getElem?_fill hhidden hi ((List.getElem?_zip_eq_some).1 h).1

/-! ## Parentheses -/

/-- The cell is no parenthesis. -/
def IsNoParen (x : Char × Bool) : Prop := x.1 ≠ '(' ∧ x.1 ≠ ')'

theorem closingParenFrom_congr {cells cells' : List (Char × Bool)} (h : SameCells IsNoParen cells cells')
    (depth : Int) (pos : Nat) :
    closingParenFrom depth pos cells = closingParenFrom depth pos cells' := by
  induction h generalizing depth pos with
  | nil => rfl
  | cons hfirst _ ih =>
    rcases hfirst with rfl | ⟨hidle, hidle'⟩
    · simp only [closingParenFrom, ih]
    · simp [closingParenFrom, hidle.1, hidle.2, hidle'.1, hidle'.2, ih]

theorem closingParenFrom_append {cells : List (Char × Bool)} {depth : Int} {pos closing : Nat}
    (h : closingParenFrom depth pos cells = some closing) (rest : List (Char × Bool)) :
    closingParenFrom depth pos (cells ++ rest) = some closing := by
  induction cells generalizing depth pos with
  | nil => cases h
  | cons x cells ih =>
    rw [closingParenFrom_cons] at h
    rw [List.cons_append, closingParenFrom_cons]
    split_ifs at h ⊢
    · exact h
    · exact ih h

theorem bounds_of_closingParenFrom {cells : List (Char × Bool)} {depth : Int} {pos closing : Nat}
    (h : closingParenFrom depth pos cells = some closing) :
    pos ≤ closing ∧ ∃ masked, cells[closing - pos]? = some (')', masked) := by
  obtain ⟨n, rfl, hcloses, -⟩ := closingParenFrom_eq_some_iff.1 h
  rw [Nat.add_sub_cancel_left]
  exact ⟨Nat.le_add_right pos n, false, hcloses.1⟩

end Redaction

end BranchTally
