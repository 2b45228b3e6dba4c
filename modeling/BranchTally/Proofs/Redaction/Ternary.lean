-- SUMMARY: A redacted line has the ternaries of the line where the content has no live sign that the search for their colons reacts to.
import Mathlib
import BranchTally.Proofs.Ternary.Cells
import BranchTally.Proofs.Reading.Scan
import BranchTally.Proofs.Redaction.Parens

/-!
# Ternaries around redacted parts

The search for a colon goes through strings blindly and through comments as if they were code. It runs
alike over two texts that differ only in cells that it passes over. The depth at which it sets out is
counted without a look at strings, so brackets may not be hidden at all.
-/

namespace BranchTally

open Text

/-! ## The search for a colon -/

/-- The search passes over the cell. -/
def Cell.Idle (cell : Cell) : Prop := cell.masked = true ∨ isSearched cell.char = false

/-- Cells that are equal but where the search passes over both. -/
abbrev SameSearch : List Cell → List Cell → Prop :=
  List.Forall₂ fun cell cell' => cell = cell' ∨ cell.Idle ∧ cell'.Idle

theorem ColonRule.search_congr (rule : ColonRule) {cells cells' : List Cell} (h : SameSearch cells cells')
    (skip : Nat) {state : ColonState} (hstate : state.depth.below rule.target = false) :
    rule.search skip state cells = rule.search skip state cells' := by
  induction h generalizing skip state with
  | nil => rfl
  | @cons cell cell' _ _ hfirst _ ih =>
    cases skip with
    | succ skip => exact ih skip hstate
    | zero =>
      rcases hfirst with rfl | ⟨hidle, hidle'⟩
      · simp only [search]
        split_ifs with hmasked hquestion hcolon hpending haccepts hbelow hstop
        · exact ih 0 hstate
        · split
          · exact ih 0 hstate
          · exact ih _ hstate
        · exact ih 0 hstate
        · rfl
        · exact ih 0 hstate
        · rfl
        · rfl
        · exact ih 0 (by simpa using hbelow)
      · rw [search_of_not_isSearched hstate hidle, search_of_not_isSearched hstate hidle']
        exact ih 0 hstate

theorem ColonRule.below_of_search (rule : ColonRule) {cells : List Cell} {skip : Nat}
    {state state' : ColonState} (hstate : state.depth.below rule.target = false)
    (h : rule.search skip state cells = .undecided state') :
    state'.depth.below rule.target = false := by
  induction cells generalizing skip state with
  | nil =>
    cases skip with
    | zero => simp only [search, ColonResult.undecided.injEq] at h; exact h ▸ hstate
    | succ skip => simp only [search, ColonResult.undecided.injEq] at h; exact h ▸ hstate
  | cons cell cells ih =>
    cases skip with
    | succ skip => exact ih hstate h
    | zero =>
      simp only [search] at h
      split_ifs at h with hmasked hquestion hcolon hpending haccepts hbelow hstop
      · exact ih hstate h
      · split at h
        · exact (@ih _ ⟨state.depth, state.pending + 1⟩ hstate h)
        · exact ih hstate h
      · exact (@ih _ ⟨state.depth, state.pending - 1⟩ hstate h)
      · exact ih hstate h
      · exact ih (by simpa using hbelow) h

theorem ColonRule.searchLines_congr (rule : ColonRule) {lines lines' : List Line}
    (h : List.Forall₂ (fun l l' => SameSearch (cells l) (cells l')) lines lines') {state : ColonState}
    (hstate : state.depth.below rule.target = false) :
    rule.searchLines state lines = rule.searchLines state lines' := by
  induction h generalizing state with
  | nil => rfl
  | @cons line line' _ _ hfirst _ ih =>
    rw [searchLines, searchLines, ← rule.search_congr hfirst 0 hstate]
    cases hsearch : rule.search 0 state (cells line) with
    | decided found => rfl
    | undecided state' => exact ih (rule.below_of_search hstate hsearch)

/-! ## Lines with the same questions -/

/-- The lines agree in their question marks, in the colons these may find on them, and in how deep they
stand. -/
structure SameQuestions (l l' : Line) : Prop where
  search : SameSearch (cells l) (cells l')
  opens : ∀ i, mayOpenTernary l i = mayOpenTernary l' i
  depth : ∀ i, mayOpenTernary l i = true → Depth.of (l.take i) = Depth.of (l'.take i)
  markup : ∀ i, mayOpenTernary l i = true →
    looksLikeMarkup (l.take i) (l.drop (i + 1)) = looksLikeMarkup (l'.take i) (l'.drop (i + 1))
  length : l.length = l'.length
  question : hasLiveQuestion l = hasLiveQuestion l'
  colon : (trim l).head? = some ':' ↔ (trim l').head? = some ':'
  logical : hasLiveLogical l = hasLiveLogical l'

section

variable {f f' : Focus} (h : f.Related SameQuestions f')

include h

theorem hasMatchingColon_congr {i : Nat} (hi : mayOpenTernary f.line i = true) :
    hasMatchingColon f i = hasMatchingColon f' i := by
  have hline := h.line
  have hbelow : List.Forall₂ (fun l l' => SameSearch (cells l) (cells l'))
      (f.after.take continuationLimit) (f'.after.take continuationLimit) :=
    List.forall₂_take _ (h.after.imp fun _ _ hl => hl.search)
  have hcells := List.forall₂_drop (i + 1) hline.search
  have hself (d : Depth) : d.below d = false := d.below_self
  simp only [hasMatchingColon, colonFollows, ← hline.depth i hi, ← hline.markup i hi]
  rw [ColonRule.search_congr _ hcells 0 (hself _)]
  split
  · rfl
  · next state hsearch =>
    have hstate := ColonRule.below_of_search _ (hself (Depth.of (f.line.take i))) hsearch
    exact ColonRule.searchLines_congr _ hbelow hstate

theorem ternaryPositions_congr : ternaryPositions f = ternaryPositions f' := by
  rw [ternaryPositions, ternaryPositions, ← h.line.length]
  refine List.filter_congr fun i _ => ?_
  rw [← h.line.opens i]
  cases hi : mayOpenTernary f.line i with
  | false => rfl
  | true => rw [hasMatchingColon_congr h hi]

theorem isTernaryCondition_congr : isTernaryCondition f = isTernaryCondition f' := by
  obtain ⟨number, before, line, after⟩ := f
  obtain ⟨number', before', line', after'⟩ := f'
  have hline : SameQuestions line line' := h.line
  have hafter : List.Forall₂ SameQuestions after after' := h.after
  unfold isTernaryCondition
  cases hafter with
  | nil => rfl
  | cons hnext hrest =>
    cases hrest with
    | nil => rfl
    | cons hsecond _ =>
      simp only [hline.logical, hline.question, hnext.question, hsecond.colon]

end

/-! ## Cells of a line -/

theorem getElem?_cellsFrom_eq (before : Option Char) (line : List (Char × Bool)) (i : Nat) :
    (cellsFrom before line)[i]? = ((line)[i]?).map fun x =>
      ⟨x.1, x.2, if x.1 = '?' then .of (if i = 0 then before else ((line)[i - 1]?).map Prod.fst)
        ((line.drop (i + 1)).map Prod.fst) else .plain⟩ := by
  induction line generalizing before i with
  | nil => rfl
  | cons x line ih =>
    cases i with
    | zero => simp [cellsFrom]
    | succ i =>
      rw [cellsFrom, List.getElem?_cons_succ, ih]
      cases i <;> simp

theorem getElem?_cells (line : Line) (i : Nat) :
    (cells line)[i]? = ((maskedCells line)[i]?).map fun x =>
      ⟨x.1, x.2, if x.1 = '?' then .of (if i = 0 then none else (line)[i - 1]?) (line.drop (i + 1))
        else .plain⟩ := by
  rw [cells, getElem?_cellsFrom_eq, List.map_drop, map_fst_maskedCells, getElem?_maskedCells]

theorem Question.of_eq (before : Option Char) (rest : Line) : Question.of before rest =
    if rest.head? = some '.' then .chain
    else if rest.head? = some '?' then if (rest)[1]? = some '=' then .nullishAssign else .nullish
    else if isOptionalMarker before rest then .marker else .plain := by
  unfold Question.of
  split
  · rfl
  · rfl
  · next tail hassign =>
    have hsecond : (tail)[0]? ≠ some '=' := by
      rcases tail with _ | ⟨c, tail⟩
      · simp
      · intro heq
        exact hassign tail (by rw [show c = '=' by simpa using heq])
    rw [List.getElem?_cons_succ, if_neg (by simp), if_pos (by simp), if_neg hsecond]
  · next hdot hassign hmark =>
    rcases rest with _ | ⟨c, rest⟩
    · rfl
    · have hc : c ≠ '.' := fun e => hdot rest (by rw [e])
      have hc' : c ≠ '?' := fun e => hmark rest (by rw [e])
      simp [hc, hc']

theorem blind_question {g : Char} (hg : isGuard g = true) (before : Option Char) :
    Blind g (Question.of before) := by
  have hcolon : g ≠ ':' := forall_isGuard (p := (· ≠ ':')) (by decide) hg
  have hdot : g ≠ '.' := forall_isGuard (p := (· ≠ '.')) (by decide) hg
  have hequals : g ≠ '=' := forall_isGuard (p := (· ≠ '=')) (by decide) hg
  have hquestion : g ≠ '?' := isQuestion_guard hg
  intro s rest
  have hmarker : isOptionalMarker before (s ++ g :: rest) = isOptionalMarker before s := by
    have hread := (stopsAt_spacedChar? hg hcolon).isSome s rest
    simp only at hread
    rw [isOptionalMarker, hread, isOptionalMarker]
  rw [Question.of_eq, Question.of_eq, hmarker]
  rcases s with _ | ⟨c, _ | ⟨d, s⟩⟩ <;> simp [hdot, hequals, hquestion]

namespace Redaction

variable {r : Redaction}

/-! ## Depth -/

/-- The brackets that the depth counts. -/
def bracketChars : List Char := ['(', ')', '{', '}', '[', ']']

theorem foldl_step_of_no_bracket {hidden : Line} (h : ∀ c ∈ hidden, c ∉ bracketChars) (d : Depth) :
    hidden.foldl Depth.step d = d := by
  induction hidden generalizing d with
  | nil => rfl
  | cons c hidden ih =>
    have hc := h c List.mem_cons_self
    have hstep : d.step c = d := by
      unfold Depth.step
      split <;> simp_all [bracketChars]
    rw [List.foldl_cons, hstep, ih fun e he => h e (List.mem_cons_of_mem _ he)]

/-- What the search for a colon and the depth at which it sets out must not find in the content. -/
structure Unasked (r : Redaction) : Prop where
  brackets : ∀ c ∈ r.content, c ∉ bracketChars
  signs : (∀ i, r.Hides i → (literalMask r.text)[i]? = some true ∧
    (literalMask r.redacted)[i]? = some true) ∨ ∀ c ∈ r.content, isSearched c = false

/-- The search passes over the masked character. -/
def IsIdle (x : Char × Bool) : Prop := x.2 = true ∨ isSearched x.1 = false

theorem Unasked.isIdle (h : r.Unasked) {hidden : Line} (hhidden : r.IsHidden hidden) {i : Nat}
    {cell : Char × Bool} (hi : r.Hides i) (hcell : (maskedCells (r.fill hidden))[i]? = some cell) :
    IsIdle cell := by
  rcases h.signs with hmasked | hsearched
  · refine Or.inl ?_
    have hmask := ((List.getElem?_zip_eq_some).1 hcell).2
    rcases hhidden with rfl | rfl
    · exact Option.some.inj (hmask.symm.trans (hmasked i hi).1)
    · exact Option.some.inj (hmask.symm.trans (hmasked i hi).2)
  · exact Or.inr (hhidden.forall_mem (p := fun c => isSearched c = false) hsearched (by decide)
      (by decide) _ (mem_of_hides hhidden hi hcell))

theorem Unasked.sameCells (h : r.Unasked) (hmask : r.SameMask) :
    SameCells IsIdle (maskedCells r.text) (maskedCells r.redacted) :=
  hmask.sameCells (fun _ _ hi hcell => h.isIdle (Or.inl rfl) hi hcell)
    fun _ _ hi hcell => h.isIdle (Or.inr rfl) hi hcell

theorem hasLiveQuestion_congr {l l' : Line} (h : SameCells IsIdle (maskedCells l) (maskedCells l')) :
    hasLiveQuestion l = hasLiveQuestion l' := by
  have hidle {x : Char × Bool} (hx : IsIdle x) : (x.1 = '?' && !x.2) = false := by
    rcases hx with hx | hx
    · simp [hx]
    · have hne : x.1 ≠ '?' := by
        rintro heq
        rw [heq] at hx
        revert hx
        decide
      simp [hne]
  unfold hasLiveQuestion
  generalize maskedCells l = cells, maskedCells l' = cells' at h
  induction h with
  | nil => rfl
  | cons hfirst _ ih =>
    rcases hfirst with rfl | ⟨hx, hx'⟩
    · rw [List.any_cons, List.any_cons, ih]
    · rw [List.any_cons, List.any_cons, hidle hx, hidle hx', ih]

/-! ## Question marks -/

/-- What is no guard and not hidden stands in front of the guard or behind the next one. -/
theorem position_of_not_isGuard {i : Nat} (hi : ¬ r.Hides i) {c : Char} (hc : (r.text)[i]? = some c)
    (hguard : isGuard c = false) : i < r.front.length ∨ r.stop < i := by
  rw [text, getElem?_fill r rfl hi] at hc
  split at hc
  · next hlt =>
    refine Or.inl (Nat.not_le.1 fun hge => ?_)
    have hedge : i - r.front.length = 0 := by
      simp only [start] at hlt
      omega
    rw [List.getElem?_append_right hge, hedge] at hc
    have heq : r.guard = c := by simpa using hc
    exact Bool.false_ne_true (hguard.symm.trans (heq ▸ r.isGuard_guard))
  · next hge =>
    refine Or.inr (Nat.not_le.1 fun hle => ?_)
    have hstop : i - r.stop = 0 := by omega
    rw [hstop] at hc
    exact Bool.false_ne_true (hguard.symm.trans (r.isGuard_behind c (by rwa [List.head?_eq_getElem?])))

theorem drop_fill (hidden : Line) {i : Nat} (hi : i ≤ r.front.length) :
    (r.fill hidden).drop i = r.front.drop i ++ r.guard :: (hidden ++ r.behind) := by
  rw [fill, List.drop_append_of_le_length hi]

theorem take_fill_of_stop_lt {hidden : Line} (hhidden : r.IsHidden hidden) {i : Nat} (hi : r.stop < i) :
    (r.fill hidden).take i = (r.front ++ [r.guard]) ++ (hidden ++ r.behind.take (i - r.stop)) := by
  have hedge : (r.front ++ [r.guard]).length = r.start := by simp [start]
  have hstop : i - r.start - hidden.length = i - r.stop := by
    rw [hhidden.length_eq]
    simp only [stop]
    omega
  have hlength : hidden.length ≤ i - r.start := by
    rw [hhidden.length_eq]
    simp only [stop] at hi
    omega
  have hstart : r.start ≤ i := by
    simp only [stop] at hi
    omega
  rw [fill_eq, List.take_append, hedge, List.take_of_length_le (by omega), List.take_append,
    List.take_of_length_le hlength, hstop]

/-- A question mark that is not hidden means the same in both lines. -/
theorem question_redacted {i : Nat} (hi : ¬ r.Hides i) (hquestion : (r.text)[i]? = some '?') :
    (r.redacted)[i - 1]? = (r.text)[i - 1]? ∧ ∀ before,
      Question.of before (r.redacted.drop (i + 1)) = Question.of before (r.text.drop (i + 1)) := by
  rcases position_of_not_isGuard hi hquestion (by decide) with hlt | hlt
  · refine ⟨r.getElem?_redacted ?_, fun before => ?_⟩
    · simp only [Hides, start]
      omega
    · rw [redacted, text, drop_fill _ hlt, drop_fill _ hlt, blind_question r.isGuard_guard,
        blind_question r.isGuard_guard]
  · refine ⟨r.getElem?_redacted ?_, fun before => ?_⟩
    · simp only [Hides]
      omega
    · rw [drop_redacted (by omega)]

theorem SameMask.getElem?_cells (hmask : r.SameMask) {i : Nat} (hi : ¬ r.Hides i) :
    (cells r.redacted)[i]? = (cells r.text)[i]? := by
  rw [BranchTally.getElem?_cells, BranchTally.getElem?_cells, hmask.getElem?_maskedCells hi]
  cases hcell : (maskedCells r.text)[i]? with
  | none => rfl
  | some x =>
    have hchar := ((List.getElem?_zip_eq_some).1 hcell).1
    by_cases hquestion : x.1 = '?'
    · obtain ⟨hbefore, hafter⟩ := question_redacted hi (hquestion ▸ hchar)
      simp only [Option.map_some, hquestion, if_true, hbefore, hafter]
    · simp only [Option.map_some, hquestion, if_false]

theorem length_cells (line : Line) : (cells line).length = line.length := by
  have hfrom (before : Option Char) (line : List (Char × Bool)) :
      (cellsFrom before line).length = line.length := by
    induction line generalizing before with
    | nil => rfl
    | cons x line ih => rw [cellsFrom, List.length_cons, ih, List.length_cons]
  rw [cells, hfrom, length_maskedCells]

theorem Unasked.idle (h : r.Unasked) {hidden : Line} (hhidden : r.IsHidden hidden) {i : Nat}
    {cell : Cell} (hi : r.Hides i) (hcell : (cells (r.fill hidden))[i]? = some cell) : cell.Idle := by
  rw [getElem?_cells, Option.map_eq_some_iff] at hcell
  obtain ⟨x, hx, rfl⟩ := hcell
  exact h.isIdle hhidden hi hx

theorem Unasked.sameSearch (h : r.Unasked) (hmask : r.SameMask) :
    SameSearch (cells r.text) (cells r.redacted) :=
  forall₂_of_hides (by rw [length_cells, length_cells, r.length_redacted])
    (fun _ => hmask.getElem?_cells) (fun _ _ => h.idle (Or.inl rfl)) fun _ _ => h.idle (Or.inr rfl)

theorem mayOpenTernary_eq (line : Line) (i : Nat) : mayOpenTernary line i =
    ((((cells line)[i]?).any fun cell =>
        cell.char = '?' && !cell.masked && cell.question = .plain) &&
      !(0 < i && (line)[i - 1]? = some '?')) := by
  unfold mayOpenTernary
  cases (cells line)[i]? <;> rfl

theorem char_of_mayOpenTernary {line : Line} {i : Nat} (h : mayOpenTernary line i = true) :
    (line)[i]? = some '?' := by
  rw [mayOpenTernary_eq, Bool.and_eq_true, Option.any_eq_true] at h
  obtain ⟨⟨cell, hcell, hopen⟩, -⟩ := h
  rw [getElem?_cells, Option.map_eq_some_iff] at hcell
  obtain ⟨x, hx, rfl⟩ := hcell
  simp only [Bool.and_eq_true, decide_eq_true_eq] at hopen
  exact hopen.1.1 ▸ ((List.getElem?_zip_eq_some).1 hx).1

theorem Unasked.mayOpenTernary_of_hides (h : r.Unasked) {hidden : Line} (hhidden : r.IsHidden hidden)
    {i : Nat} (hi : r.Hides i) : mayOpenTernary (r.fill hidden) i = false := by
  rw [mayOpenTernary_eq, Bool.and_eq_false_iff, Option.any_eq_false]
  refine Or.inl fun cell hcell => ?_
  rcases h.idle hhidden hi hcell with hmasked | hsearched
  · simp [hmasked]
  · have hne : cell.char ≠ '?' := by
      intro heq
      rw [heq] at hsearched
      revert hsearched
      decide
    simp [hne]

theorem Unasked.mayOpenTernary_redacted (h : r.Unasked) (hmask : r.SameMask) (i : Nat) :
    mayOpenTernary r.text i = mayOpenTernary r.redacted i := by
  by_cases hi : r.Hides i
  · rw [text, redacted, h.mayOpenTernary_of_hides (Or.inl rfl) hi,
      h.mayOpenTernary_of_hides (Or.inr rfl) hi]
  · by_cases hquestion : (r.text)[i]? = some '?'
    · rw [mayOpenTernary_eq, mayOpenTernary_eq, hmask.getElem?_cells hi,
        (question_redacted hi hquestion).1]
    · have hnone {line : Line} (hline : (line)[i]? ≠ some '?') : mayOpenTernary line i = false :=
        Bool.eq_false_iff.2 fun hopen => hline (char_of_mayOpenTernary hopen)
      rw [hnone hquestion, hnone (r.getElem?_redacted hi ▸ hquestion)]

/-! ## Depth and markup -/

theorem Unasked.depth_take (h : r.Unasked) {i : Nat} (hi : i < r.front.length ∨ r.stop < i) :
    Depth.of (r.text.take i) = Depth.of (r.redacted.take i) := by
  rcases hi with hi | hi
  · rw [text, redacted, take_fill _ (Nat.lt_succ_of_lt hi), take_fill _ (Nat.lt_succ_of_lt hi)]
  · have hfill {hidden : Line} (hhidden : r.IsHidden hidden) : Depth.of ((r.fill hidden).take i) =
        (r.behind.take (i - r.stop)).foldl Depth.step (Depth.of (r.front ++ [r.guard])) := by
      have hnone := hhidden.forall_mem (p := (· ∉ bracketChars)) h.brackets (by decide) (by decide)
      rw [take_fill_of_stop_lt hhidden hi, Depth.of, List.foldl_append, List.foldl_append,
        foldl_step_of_no_bracket hnone]
      rfl
    rw [text, redacted, hfill (Or.inl rfl), hfill (Or.inr rfl)]

theorem Unasked.looksLikeMarkup_redacted (h : r.Unasked) {i : Nat}
    (hi : i < r.front.length ∨ r.stop < i) :
    looksLikeMarkup (r.text.take i) (r.text.drop (i + 1)) =
      looksLikeMarkup (r.redacted.take i) (r.redacted.drop (i + 1)) := by
  rcases hi with hi | hi
  · have hafter (hidden : Line) : (skipBlanks ((r.fill hidden).drop (i + 1))).head? =
        (skipBlanks (r.front.drop (i + 1)) ++ [r.guard]).head? := by
      rw [drop_fill _ hi, skipBlanks_append_guard r.isGuard_guard]
      cases skipBlanks (r.front.drop (i + 1)) <;> rfl
    simp only [looksLikeMarkup]
    rw [text, redacted, hafter, hafter, take_fill _ (Nat.lt_succ_of_lt hi),
      take_fill _ (Nat.lt_succ_of_lt hi)]
  · have hbefore {hidden : Line} (hhidden : r.IsHidden hidden) :
        ((r.fill hidden).take i).contains '{' =
          ((r.front ++ [r.guard]) ++ r.behind.take (i - r.stop)).contains '{' := by
      have hnone : '{' ∉ hidden := fun hmem =>
        hhidden.forall_mem (p := (· ∉ bracketChars)) h.brackets (by decide) (by decide) _ hmem
          (by decide)
      rw [take_fill_of_stop_lt hhidden hi]
      simp [hnone]
    simp only [looksLikeMarkup]
    rw [drop_redacted (by omega), text, redacted, hbefore (Or.inl rfl), hbefore (Or.inr rfl)]

/-- The two lines have the same question marks. -/
theorem Unasked.sameQuestions (h : r.Unasked) (hr : r.Hidden) (hmask : r.SameMask) :
    SameQuestions r.text r.redacted := by
  have hposition {i : Nat} (hi : mayOpenTernary r.text i = true) :
      i < r.front.length ∨ r.stop < i := by
    have hhides : ¬ r.Hides i := fun hhides =>
      Bool.false_ne_true ((h.mayOpenTernary_of_hides (Or.inl rfl) hhides).symm.trans hi)
    exact position_of_not_isGuard hhides (char_of_mayOpenTernary hi) (by decide)
  have hcolon (hidden : Line) : (trim (r.fill hidden)).head? =
      (skipBlanks r.front ++ [r.guard]).head? := by
    rw [fill, trim_append_guard r.isGuard_guard]
    cases skipBlanks r.front <;> rfl
  have htokens (op : Logical) : findTokens r.redacted op.token = findTokens r.text op.token :=
    hr.findTokens_redacted (by cases op <;> decide)
  exact {
    search := h.sameSearch hmask
    opens := h.mayOpenTernary_redacted hmask
    depth := fun _ hi => h.depth_take (hposition hi)
    markup := fun _ hi => h.looksLikeMarkup_redacted (hposition hi)
    length := r.length_redacted
    question := hasLiveQuestion_congr (h.sameCells hmask)
    colon := by rw [text, redacted, hcolon, hcolon]
    logical := by simp only [hasLiveLogical, htokens] }

theorem SameQuestions.refl (l : Line) : SameQuestions l l where
  search := List.forall₂_same.2 fun _ _ => Or.inl rfl
  opens _ := rfl
  depth _ _ := rfl
  markup _ _ := rfl
  length := rfl
  question := rfl
  colon := Iff.rfl
  logical := rfl

/-- The two lines have the same code. -/
theorem Hidden.sameCode (hr : r.Hidden) (hmask : r.SameMask) (hsettled : r.Settled)
    (hline : '\n' ∉ r.content) (hquiet : r.guard = '/' → skipBlanks r.front ≠ []) :
    SameCode r.text r.redacted where
  quiet := (isQuiet_redacted hquiet).symm
  headers := (hr.headers_redacted (hsettled.sameClosings hmask)
    (hsettled.sameLoop hr hmask hline)).symm
  operators op := (hr.findTokens_redacted (by cases op <;> decide)).symm
  arrows := (hr.findTokens_redacted (by decide)).symm
  nullish := (hr.findTokens_redacted (by decide)).symm
  chains number owner := (hr.chainPoints_redacted number owner).symm

end Redaction

/-! ## Sources -/

/-- Sources have the same decision points whose lines read alike and have the same code, and the same
questions unless there is no question mark at all. -/
theorem decisionPoints_of_sameQuestions {R : Line → Line → Prop} {source source' : List Char}
    (hreading : ∀ l l', R l l' → ReadAlike l l') (hcode : ∀ l l', R l l' → SameCode l l')
    (hquestions : '?' ∈ source → ∀ l l', R l l' → SameQuestions l l')
    (hnone : ∀ l l', R l l' → '?' ∉ l → '?' ∉ l')
    (h : List.Forall₂ R (splitLines source) (splitLines source')) (boundaries : BoundaryMap) :
    decisionPoints source boundaries = decisionPoints source' boundaries := by
  by_cases hsource : '?' ∈ source
  · have hunnoticed : Unnoticed R :=
      ⟨hreading, hcode, fun _ _ hf => ternaryPositions_congr (hf.imp (hquestions hsource)),
        fun _ _ hf => isTernaryCondition_congr (hf.imp (hquestions hsource))⟩
    exact decisionPoints_congr hunnoticed h boundaries
  · have hlines : ∀ line ∈ splitLines source, '?' ∉ line := fun line hline hmem =>
      hsource (mem_of_mem_splitLines hline hmem)
    have hrelated : List.Forall₂ (fun l l' => R l l' ∧ '?' ∉ l ∧ '?' ∉ l') (splitLines source)
        (splitLines source') :=
      ((List.forall₂_and_left _ _).2 ⟨hlines, h⟩).imp fun l l' hl => ⟨hl.2, hl.1, hnone l l' hl.2 hl.1⟩
    have hunnoticed : Unnoticed fun l l' => R l l' ∧ '?' ∉ l ∧ '?' ∉ l' := by
      refine ⟨fun l l' hl => hreading l l' hl.1, fun l l' hl => hcode l l' hl.1, fun f f' hf => ?_,
        fun f f' hf => ?_⟩
      · rw [ternaryPositions_of_not_mem hf.line.2.1, ternaryPositions_of_not_mem hf.line.2.2]
      · obtain ⟨hbelow, hbelow'⟩ :
            (∀ line ∈ f.after, '?' ∉ line) ∧ ∀ line ∈ f'.after, '?' ∉ line := by
          have hafter := hf.after
          generalize f.after = below, f'.after = below' at hafter
          induction hafter with
          | nil => simp
          | cons hfirst _ ih => exact ⟨List.forall_mem_cons.2 ⟨hfirst.2.1, ih.1⟩,
              List.forall_mem_cons.2 ⟨hfirst.2.2, ih.2⟩⟩
        rw [isTernaryCondition_of_not_mem hbelow, isTernaryCondition_of_not_mem hbelow']
    exact decisionPoints_congr hunnoticed hrelated boundaries

end BranchTally
