-- SUMMARY: Every collector sees its line through a window of ten lines above and twenty below, and through the first lines of a signature.
import BranchTally.Proofs.Scan

/-!
# The window of a line

A focus holds the whole text around its line, but each collector stops after a few lines of it: ten
upwards for markup and destructuring, twenty downwards for the colon of a ternary, fewer for the rest.
So a focus may be cut to these lines, and what lies in the window is told by the numbers of the lines.
-/

namespace BranchTally

/-! ## Lines by number -/

/-- The line with a number, counted from one. -/
def lineAt (lines : List Line) (number : Int) : Option Line :=
  if 1 ≤ number then lines[(number - 1).toNat]? else none

theorem split_of_mem_fociFrom {number : Int} {before lines : List Line} {f : Focus}
    (hf : f ∈ fociFrom number before lines) :
    f.before.reverse ++ f.line :: f.after = before.reverse ++ lines ∧
      f.number + before.length = number + f.before.length := by
  induction lines generalizing number before with
  | nil => simp [fociFrom] at hf
  | cons line after ih =>
    rcases List.mem_cons.1 hf with rfl | hf
    · exact ⟨rfl, rfl⟩
    · obtain ⟨hlines, hnumber⟩ := ih hf
      refine ⟨by simpa using hlines, ?_⟩
      rw [List.length_cons] at hnumber
      omega

section

variable {lines : List Line} {f : Focus}

theorem split_of_mem_foci (hf : f ∈ foci lines) :
    f.before.reverse ++ f.line :: f.after = lines ∧ f.number = f.before.length + 1 := by
  obtain ⟨hlines, hnumber⟩ := split_of_mem_fociFrom hf
  refine ⟨hlines, ?_⟩
  rw [List.length_nil] at hnumber
  omega

theorem lineAt_number (hf : f ∈ foci lines) : lineAt lines f.number = some f.line := by
  obtain ⟨hlines, hnumber⟩ := split_of_mem_foci hf
  have hindex : (f.number - 1).toNat = f.before.reverse.length := by
    rw [List.length_reverse]
    omega
  rw [lineAt, if_pos (by omega), hindex, ← hlines, List.getElem?_append_right (Nat.le_refl _)]
  simp

theorem getElem?_after (hf : f ∈ foci lines) (j : Nat) :
    f.after[j]? = lineAt lines (f.number + 1 + j) := by
  obtain ⟨hlines, hnumber⟩ := split_of_mem_foci hf
  have hindex : (f.number + 1 + j - 1).toNat = f.before.reverse.length + (j + 1) := by
    rw [List.length_reverse]
    omega
  rw [lineAt, if_pos (by omega), hindex, ← hlines, List.getElem?_append_right (Nat.le_add_right _ _),
    Nat.add_sub_cancel_left, List.getElem?_cons_succ]

theorem getElem?_before (hf : f ∈ foci lines) (j : Nat) :
    f.before[j]? = lineAt lines (f.number - 1 - j) := by
  obtain ⟨hlines, hnumber⟩ := split_of_mem_foci hf
  by_cases hj : j < f.before.length
  · have hindex : (f.number - 1 - j - 1).toNat = f.before.length - 1 - j := by omega
    have hinside : f.before.length - 1 - j < f.before.reverse.length := by
      rw [List.length_reverse]
      omega
    have hback : f.before.length - 1 - (f.before.length - 1 - j) = j := by omega
    rw [lineAt, if_pos (by omega), hindex, ← hlines, List.getElem?_append_left hinside,
      List.getElem?_reverse (by simpa using hinside), hback]
  · rw [lineAt, if_neg (by omega), List.getElem?_eq_none (Nat.le_of_not_lt hj)]

theorem exists_mem_foci_of_lineAt {number : Int} {line : Line} (h : lineAt lines number = some line) :
    ∃ f ∈ foci lines, f.number = number := by
  have hfrom : ∀ (lines : List Line) (first : Int) (before : List Line) (i : Nat), i < lines.length →
      ∃ f ∈ fociFrom first before lines, f.number = first + i := by
    intro lines
    induction lines with
    | nil => exact fun _ _ i hi => absurd hi (Nat.not_lt_zero i)
    | cons line after ih =>
      intro first before i hi
      cases i with
      | zero => exact ⟨_, List.mem_cons_self, by simp⟩
      | succ i =>
        obtain ⟨f, hf, hnumber⟩ := ih (first + 1) (line :: before) i (Nat.lt_of_succ_lt_succ hi)
        refine ⟨f, List.mem_cons_of_mem _ hf, ?_⟩
        omega
  unfold lineAt at h
  split at h
  · obtain ⟨hi, -⟩ := List.getElem?_eq_some_iff.1 h
    obtain ⟨f, hf, hnumber⟩ := hfrom lines 1 [] _ hi
    exact ⟨f, hf, by omega⟩
  · simp at h

end

/-- The signature of a function lies in the twenty-one lines from its first one on. -/
theorem signatureLines_congr {lines lines' : List Line} {first : Int}
    (h : ∀ k, first ≤ k → k ≤ first + 20 → lineAt lines k = lineAt lines' k) :
    signatureLines first lines = signatureLines first lines' := by
  apply List.ext_getElem?
  intro j
  simp only [signatureLines, signatureLimit, List.getElem?_drop, List.getElem?_take]
  split
  · next hj =>
    have hline := h ((first - 1).toNat + j + 1) (by omega) (by omega)
    have hindex : (((first - 1).toNat + j + 1 : Int) - 1).toNat = (first - 1).toNat + j := by omega
    rwa [lineAt, lineAt, if_pos (by omega), if_pos (by omega), hindex] at hline
  · rfl

theorem signaturePoints_of_signatureLines {lines lines' : List Line} {boundary : Boundary}
    (h : signatureLines boundary.start lines = signatureLines boundary.start lines') (line : Line)
    (f : Focus) (owner : Int) :
    signaturePoints lines line f owner boundary = signaturePoints lines' line f owner boundary := by
  have hend : parameterListEnd f.number boundary.start lines line =
      parameterListEnd f.number boundary.start lines' line := by
    rw [parameterListEnd, parameterListEnd, h]
  rw [signaturePoints, signaturePoints, hend]

/-! ## Cutting the view -/

/-- The line in view with the ten lines above it and the twenty below. -/
def Focus.window (f : Focus) : Focus :=
  { f with before := f.before.take 10, after := f.after.take 20 }

/-- Sources that agree on the lines of a window give the same window. -/
theorem window_congr {lines lines' : List Line} {f g : Focus} (hf : f ∈ foci lines)
    (hg : g ∈ foci lines') (hnumber : f.number = g.number)
    (h : ∀ k, f.number - 10 ≤ k → k ≤ f.number + 20 → lineAt lines k = lineAt lines' k) :
    f.window = g.window := by
  have hline : f.line = g.line := by
    have hhere := h f.number (by omega) (by omega)
    rw [lineAt_number hf, hnumber, lineAt_number hg] at hhere
    exact Option.some.inj hhere
  have hbefore : f.before.take 10 = g.before.take 10 := by
    apply List.ext_getElem?
    intro j
    rw [List.getElem?_take, List.getElem?_take]
    split
    · rw [getElem?_before hf, getElem?_before hg, ← hnumber]
      exact h _ (by omega) (by omega)
    · rfl
  have hafter : f.after.take 20 = g.after.take 20 := by
    apply List.ext_getElem?
    intro j
    rw [List.getElem?_take, List.getElem?_take]
    split
    · rw [getElem?_after hf, getElem?_after hg, ← hnumber]
      exact h _ (by omega) (by omega)
    · rfl
  simp only [Focus.window, hnumber, hline, hbefore, hafter]

section

variable (f : Focus)

@[simp] theorem window_number : f.window.number = f.number := rfl

@[simp] theorem window_line : f.window.line = f.line := rfl

@[simp] theorem window_before : f.window.before = f.before.take 10 := rfl

@[simp] theorem window_after : f.window.after = f.after.take 20 := rfl

/-! ## Ternaries -/

@[simp] theorem hasMatchingColon_window (position : Nat) :
    hasMatchingColon f.window position = hasMatchingColon f position := by
  have hbelow : (f.after.take 20).take continuationLimit = f.after.take continuationLimit := by
    rw [continuationLimit, List.take_take]
    rfl
  rw [hasMatchingColon, hasMatchingColon, colonFollows, colonFollows, window_line, window_after, hbelow]

@[simp] theorem ternaryPositions_window : ternaryPositions f.window = ternaryPositions f := by
  simp only [ternaryPositions, window_line, hasMatchingColon_window]

@[simp] theorem isTernaryCondition_window : isTernaryCondition f.window = isTernaryCondition f := by
  obtain ⟨number, before, line, after⟩ := f
  rcases after with _ | ⟨next, _ | ⟨second, rest⟩⟩ <;> rfl

theorem conditionAbovePoints_window (owner : Int) (resolve : Int → Option Int) :
    conditionAbovePoints f.window owner resolve = conditionAbovePoints f owner resolve := by
  obtain ⟨number, before, line, after⟩ := f
  rcases before with _ | ⟨above, before⟩
  · rfl
  · rcases after with _ | ⟨next, rest⟩ <;> rfl

theorem ternaryPoints_window (owner : Int) (resolve : Int → Option Int) :
    ternaryPoints f.window owner resolve = ternaryPoints f owner resolve := by
  simp only [ternaryPoints, ternaryPositions_window, conditionAbovePoints_window, window_line,
    window_number]

/-! ## Operators -/

@[simp] theorem markup_window (headers : Headers) : Markup.of f.window headers = Markup.of f headers := by
  obtain ⟨number, before, line, after⟩ := f
  rcases before with _ | ⟨above, before⟩ <;> rfl

theorem expressionPoints_window (ctx : Ownership) (headers : Headers) (markup : Markup) (owner : Int) :
    expressionPoints ctx f.window headers markup owner = expressionPoints ctx f headers markup owner := by
  simp only [expressionPoints, window_line, window_number, isTernaryCondition_window]

theorem conditionStartFrom_le {distance : Nat} {found : Option Nat} {lines : List Line} {d : Nat}
    (hfound : ∀ e, found = some e → e < distance)
    (h : conditionStartFrom distance found lines = some d) : d < distance + lines.length := by
  induction lines generalizing distance found with
  | nil => exact hfound d h
  | cons above rest ih =>
    simp only [conditionStartFrom] at h
    rw [List.length_cons]
    split at h
    · exact Nat.lt_add_right _ (hfound d h)
    · split at h
      · obtain rfl := Option.some.inj h
        omega
      · have hnext := ih (fun e he => ?_) h
        · omega
        · split at he
          · exact Option.some.inj he ▸ Nat.lt_succ_self _
          · exact Nat.lt_succ_of_lt (hfound e he)

/-- The start of a condition is at most five lines up. -/
theorem le_of_conditionStart? {before : List Line} {d : Nat} (h : conditionStart? before = some d) :
    d ≤ lookbackLimit := by
  have hlt := conditionStartFrom_le (by simp) h
  have hlength : (before.take lookbackLimit).length ≤ lookbackLimit := List.length_take_le _ _
  omega

theorem conditionStart?_window (before : List Line) :
    conditionStart? (before.take 10) = conditionStart? before := by
  rw [conditionStart?, conditionStart?, lookbackLimit, List.take_take]
  rfl

theorem continuationPoints_window (ctx : Ownership) (headers : Headers) (markup : Markup) (owner : Int) :
    continuationPoints ctx f.window headers markup owner =
      continuationPoints ctx f headers markup owner := by
  have hmay : mayContinue f.window headers markup = mayContinue f headers markup := by
    simp only [mayContinue, window_line, isTernaryCondition_window]
  have hbelow (above : Line) : continuationPointsBelow ctx above f.window headers markup owner =
      continuationPointsBelow ctx above f headers markup owner := by
    simp only [continuationPointsBelow, hmay, window_line, window_number, window_before,
      conditionStart?_window]
    cases hstart : conditionStart? f.before with
    | none => rfl
    | some d =>
      have hd := le_of_conditionStart? hstart
      have hline : (f.before.take 10)[d - 1]? = f.before[d - 1]? := by
        rw [List.getElem?_take, if_pos]
        simp only [lookbackLimit] at hd
        omega
      simp only [hline]
  rw [continuationPoints, continuationPoints, window_before]
  cases f.before with
  | nil => rfl
  | cons above before => exact hbelow above

/-! ## Defaults -/

@[simp] theorem isDependencyArray_window (line : Line) :
    isDependencyArray line f.window = isDependencyArray line f := by
  obtain ⟨number, before, text, after⟩ := f
  rcases before with _ | ⟨above, before⟩ <;> rfl

@[simp] theorem isMarkupAttribute_window (line : Line) :
    isMarkupAttribute line f.window = isMarkupAttribute line f := by
  rw [isMarkupAttribute, isMarkupAttribute, window_before, tagLookback, List.take_take]
  rfl

@[simp] theorem isNoArrowContext_window (line : Line) :
    isNoArrowContext line f.window = isNoArrowContext line f := by
  simp only [isNoArrowContext, isMarkupAttribute_window]

@[simp] theorem isExcluded_window (line : Line) : isExcluded line f.window = isExcluded line f := by
  simp only [isExcluded, isNoArrowContext_window]

@[simp] theorem opensSplitArrow_window (line : Line) :
    opensSplitArrow line f.window = opensSplitArrow line f := by
  obtain ⟨number, before, text, after⟩ := f
  rcases after with _ | ⟨next, rest⟩ <;> rfl

@[simp] theorem arrowBelow?_window : arrowBelow? f.window = arrowBelow? f := by
  rw [arrowBelow?, arrowBelow?, window_number, window_after, arrowLookahead, List.take_take]
  rfl

theorem arrowPoints_window (line : Line) (owner : Int) :
    arrowPoints line f.window owner = arrowPoints line f owner := by
  simp only [arrowPoints, isNoArrowContext_window, window_number]

theorem signaturePoints_window (lines : List Line) (line : Line) (owner : Int) (boundary : Boundary) :
    signaturePoints lines line f.window owner boundary =
      signaturePoints lines line f owner boundary := by
  have hwidened (stop : Int) (signature : Bool) :
      widenedListEnd stop boundary.start f.window line signature =
        widenedListEnd stop boundary.start f line signature := by
    rw [widenedListEnd, widenedListEnd, arrowBelow?_window, window_number]
  simp only [signaturePoints, hwidened, isDependencyArray_window, isMarkupAttribute_window,
    isExcluded_window, opensSplitArrow_window, window_number]
  rfl

theorem parameterPoints_window (ctx : Ownership) (lines : List Line) (owner : Int) :
    parameterPoints ctx lines f.window owner = parameterPoints ctx lines f owner := by
  simp only [parameterPoints, arrowPoints_window, signaturePoints_window, window_line, window_number]

theorem destructuringPoints_window (owner : Int) (boundary : Option Boundary) :
    destructuringPoints f.window owner boundary = destructuringPoints f owner boundary := by
  have hfrom (b : Boundary) (distance : Int) (above : List Line) :
      isInDestructuringFrom f.window b distance above = isInDestructuringFrom f b distance above := by
    induction above generalizing distance with
    | nil => rfl
    | cons line above ih => simp only [isInDestructuringFrom, ih, window_number]
  have hopen (line : Line) (b : Boundary) :
      isInDestructuring line f.window b = isInDestructuring line f b := by
    rw [isInDestructuring, isInDestructuring, hfrom, window_before, destructuringLookback,
      List.take_take]
    rfl
  cases boundary with
  | none => rfl
  | some b =>
    simp only [destructuringPoints, hopen, window_line, window_number]
    rfl

end

/-! ## One line -/

/-- What a line reports is seen in its window. -/
theorem scanLine_window (ctx : Ownership) (lines : List Line) (f : Focus) :
    scanLine ctx lines f.window = scanLine ctx lines f := by
  simp only [scanLine, codePoints, window_line, window_number, markup_window, ternaryPoints_window,
    expressionPoints_window, continuationPoints_window, parameterPoints_window,
    destructuringPoints_window]

end BranchTally
