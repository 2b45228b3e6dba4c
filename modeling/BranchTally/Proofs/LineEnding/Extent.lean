-- SUMMARY: The estimated boundary of a function is the same with and without carriage returns at the ends of lines.
import BranchTally.Proofs.LineEnding.Names

/-!
# Boundaries and line endings

The estimate counts braces, looks for arrows and for signs at either end of a trimmed line, and puts two
lines together where the tail of a callback may be spread over both. None of this sees a carriage return
at the end of a line.
-/

namespace BranchTally

open Text NamePattern

/-! ## One line -/

theorem braceBalance_erase (s : Line) : braceBalance (eraseReturns s) = braceBalance s := by
  rw [braceBalance, count_erase (by decide), count_erase (by decide), braceBalance]

section

variable {s : Line} (hs : Loose s)

include hs

theorem containsArrow_erase : containsArrow (eraseReturns s) = containsArrow s :=
  occurs_erase (forall_mem_of_all (by decide)) hs

omit hs in
theorem fromArrow_cons (c : Char) (s : Line) :
    fromArrow (c :: s) = if ['=', '>'].isPrefixOf (c :: s) then c :: s else fromArrow s := by
  rw [fromArrow, find?]
  split
  · rfl
  · cases hfind : find? ['=', '>'] s <;> simp [fromArrow, hfind]

theorem fromArrow_erase : fromArrow (eraseReturns s) = eraseReturns (fromArrow s) := by
  have harrow : ∀ c ∈ ['=', '>'], isBlank c = false := forall_mem_of_all (by decide)
  induction s with
  | nil => rfl
  | cons c s ih =>
    have hprefix := isPrefixOf_erase harrow hs
    by_cases hc : c = '\r'
    · subst hc
      have hnone : ['=', '>'].isPrefixOf ('\r' :: s) = false := rfl
      rw [eraseReturns_return, ih hs.tail, fromArrow_cons, hnone, if_neg Bool.false_ne_true]
    · rw [eraseReturns_cons hc] at hprefix ⊢
      rw [fromArrow_cons, fromArrow_cons, hprefix, ih hs.tail]
      split
      · rw [eraseReturns_cons hc]
      · rfl

/-- The text behind the first arrow. -/
theorem drop_fromArrow_erase :
    (fromArrow (eraseReturns s)).drop 2 = eraseReturns ((fromArrow s).drop 2) := by
  have hcases (s : Line) : fromArrow s = [] ∨ ∃ rest, fromArrow s = '=' :: '>' :: rest := by
    induction s with
    | nil => exact .inl rfl
    | cons c s ih =>
      rw [fromArrow_cons]
      split
      · next hprefix =>
        obtain ⟨rest, hrest⟩ := List.isPrefixOf_iff_prefix.1 hprefix
        exact .inr ⟨rest, hrest.symm⟩
      · exact ih
  rw [fromArrow_erase hs]
  rcases hcases s with h | ⟨rest, h⟩
  · rw [h]
    rfl
  · rw [h, eraseReturns_cons (by decide), eraseReturns_cons (by decide)]
    rfl

/-! ## Ends of expressions -/

omit hs in
theorem endsOnLine_erase (rest : Line) : endsOnLine (eraseReturns rest) = endsOnLine rest := by
  simp only [endsOnLine, getLast?_trimEnd_erase, count_erase (by decide : '(' ≠ '\r'),
    count_erase (by decide : ')' ≠ '\r'), count_erase (by decide : '{' ≠ '\r'),
    count_erase (by decide : '}' ≠ '\r')]

omit hs in
theorem closesExpression_erase (line : Line) :
    closesExpression (eraseReturns line) = closesExpression line := by
  simp only [closesExpression, head?_trim_erase]

theorem hasArrayTail_erase : hasArrayTail (eraseReturns s) = hasArrayTail s := by
  have htail : Text.Steady fun s => ((char? '}' s).bind (spacedChar? ',')).bind (spacedChar? '[') :=
    ((Text.Steady.char (by decide)).bind (.spacedChar (by decide))).bind (.spacedChar (by decide))
  exact anyTail_erase (fun _ ht => htail.isSome ht) hs

theorem hasDelayTail_erase : hasDelayTail (eraseReturns s) = hasDelayTail s := by
  have htail : Text.Steady fun s => (char? '}' s).bind (spacedChar? ',') :=
    (Text.Steady.char (by decide)).bind (.spacedChar (by decide))
  refine anyTail_erase (fun t ht => ?_) hs
  rw [htail.erase t ht]
  cases (char? '}' t).bind (spacedChar? ',') with
  | none => rfl
  | some r => simp only [Option.map_some, Option.any_some, head?_skipBlanks_erase]

end

theorem expressionEndFrom_erase (number : Int) (lines : List Line) :
    expressionEndFrom number (lines.map eraseReturns) = expressionEndFrom number lines := by
  induction lines generalizing number with
  | nil => rfl
  | cons line rest ih => simp only [List.map_cons, expressionEndFrom, closesExpression_erase, ih]

theorem expressionEnd_erase (number : Int) {line : Line} (hline : Loose line) (rest : List Line) :
    expressionEnd number (eraseReturns line) (rest.map eraseReturns) =
      expressionEnd number line rest := by
  simp only [expressionEnd, drop_fromArrow_erase hline, endsOnLine_erase, expressionEndFrom_erase]

/-! ## Ends of bodies -/

theorem firstLineFrom_erase {test : Nat → Line → Bool}
    (htest : ∀ d s, test d (eraseReturns s) = test d s) (distance : Nat) (number : Int)
    (lines : List Line) :
    firstLineFrom test distance number (lines.map eraseReturns) =
      firstLineFrom test distance number lines := by
  induction lines generalizing distance number with
  | nil => rfl
  | cons line rest ih => simp only [List.map_cons, firstLineFrom, htest, ih]

theorem callbackTail?_of_nil {line : Line} (h : line.dropWhile (· ≠ '}') = []) (number : Int)
    (rest : List Line) : callbackTail? number line rest = none := by
  simp only [callbackTail?, h]

theorem callbackTail?_of_cons {line closing : Line} {c : Char}
    (h : line.dropWhile (· ≠ '}') = c :: closing) (number : Int) (rest : List Line) :
    callbackTail? number line rest =
      if hasArrayTail (c :: closing ++ ' ' :: (rest.head?.getD [])) then
        firstLineFrom (fun _ s => s.contains ']') 0 number ((line :: rest).take tailLimit)
      else if hasDelayTail (c :: closing ++ ' ' :: (rest.head?.getD [])) then
        firstLineFrom (fun d s => s.contains ')' && (s.contains ';' || d = 1)) 0 number
          ((line :: rest).take tailLimit)
      else none := by
  simp only [callbackTail?, h]

section

variable {line : Line} (hline : Loose line) {rest : List Line} (hrest : ∀ line ∈ rest, Loose line)

include hline hrest

theorem callbackTail?_erase (number : Int) :
    callbackTail? number (eraseReturns line) (rest.map eraseReturns) =
      callbackTail? number line rest := by
  have hdrop := dropWhile_erase_of_return (p := (· ≠ '}')) (by decide) line
  cases h : line.dropWhile (· ≠ '}') with
  | nil =>
    rw [h] at hdrop
    rw [callbackTail?_of_nil hdrop, callbackTail?_of_nil h]
  | cons c closing =>
    have hnext : Loose (' ' :: (rest.head?.getD [])) := by
      refine Loose.cons (by decide) ?_
      cases rest with
      | nil => exact .nil
      | cons next rest => exact hrest next List.mem_cons_self
    have hcombined : Loose (c :: closing ++ ' ' :: (rest.head?.getD [])) :=
      (hline.suffix (h ▸ List.dropWhile_suffix _)).append hnext
        fun d hd => Option.mem_some_iff.1 hd ▸ by decide
    have hhead : (rest.map eraseReturns).head?.getD [] = eraseReturns (rest.head?.getD []) := by
      cases rest <;> rfl
    have herase : c :: eraseReturns closing ++ ' ' :: ((rest.map eraseReturns).head?.getD []) =
        eraseReturns (c :: closing ++ ' ' :: (rest.head?.getD [])) := by
      rw [hhead, eraseReturns_append, eraseReturns_cons (by decide : ' ' ≠ '\r'),
        eraseReturns_cons (by rw [head_of_dropWhile_ne h]; decide)]
    have hwindow : (eraseReturns line :: rest.map eraseReturns).take tailLimit =
        ((line :: rest).take tailLimit).map eraseReturns := by
      rw [List.map_take, List.map_cons]
    rw [h, eraseReturns_cons (by rw [head_of_dropWhile_ne h]; decide)] at hdrop
    rw [callbackTail?_of_cons hdrop, callbackTail?_of_cons h, herase, hasArrayTail_erase hcombined,
      hasDelayTail_erase hcombined, hwindow,
      firstLineFrom_erase fun _ s => contains_erase (by decide) s,
      firstLineFrom_erase fun d s => by
        rw [contains_erase (by decide), contains_erase (by decide)]]

theorem bodyEndAt_erase (number : Int) :
    bodyEndAt number (eraseReturns line) (rest.map eraseReturns) = bodyEndAt number line rest := by
  simp only [bodyEndAt, callbackTail?_erase hline hrest]

end

section

variable {lines : List Line} (h : ∀ line ∈ lines, Loose line)

include h

theorem bodyEnd?_erase (depth number : Int) :
    bodyEnd? depth number (lines.map eraseReturns) = bodyEnd? depth number lines := by
  induction lines generalizing depth number with
  | nil => rfl
  | cons line rest ih =>
    obtain ⟨hline, hrest⟩ := List.forall_mem_cons.1 h
    simp only [List.map_cons, bodyEnd?, braceBalance_erase, contains_erase (by decide : '}' ≠ '\r'),
      bodyEndAt_erase hline hrest, ih hrest]

/-! ## Arrow functions -/

theorem arrowExtent_erase (start number : Int) :
    arrowExtent start number (lines.map eraseReturns) = arrowExtent start number lines := by
  induction lines generalizing number with
  | nil => rfl
  | cons line rest ih =>
    obtain ⟨hline, hrest⟩ := List.forall_mem_cons.1 h
    simp only [List.map_cons, arrowExtent, containsArrow_erase hline, ih hrest, fromArrow_erase hline,
      contains_erase (by decide : '{' ≠ '\r'), braceBalance_erase, bodyEndAt_erase hline hrest,
      bodyEnd?_erase hrest, expressionEnd_erase number hline]
    cases rest with
    | nil => rfl
    | cons next below =>
      simp only [List.map_cons, head?_trim_erase,
        bodyEnd?_erase fun line hmem => hrest line (List.mem_cons_of_mem next hmem)]

theorem arrowStart_erase (number : Int) :
    arrowStart (lines.map eraseReturns) number = arrowStart lines number := by
  simp only [arrowStart, lineOrEmpty_erase, containsArrow_erase (loose_lineOrEmpty h _)]

end

/-! ## Declared functions -/

theorem bodyOpener?_cons (c : Char) (s : Line) : bodyOpener? (c :: s) =
    if c = ')' ∧ (s.dropWhile isReturnTypeChar).head? = some '{' then
      some (s.dropWhile isReturnTypeChar)
    else bodyOpener? s := by
  rw [bodyOpener?]
  split
  · next hc =>
    split
    · next tail h => rw [h, if_pos ⟨hc, rfl⟩]
    · next h =>
      rw [if_neg]
      rintro ⟨-, hhead⟩
      obtain ⟨tail, htail⟩ := List.head?_eq_some_iff.1 hhead
      exact h tail htail
  · next hc => rw [if_neg fun h => hc h.1]

/-- Carriage returns may stand between the parameters and the body. -/
theorem bodyOpener?_erase (s : Line) :
    bodyOpener? (eraseReturns s) = (bodyOpener? s).map eraseReturns := by
  have hreturn : isReturnTypeChar '\r' = true := by decide
  induction s with
  | nil => rfl
  | cons c s ih =>
    by_cases hc : c = '\r'
    · subst hc
      rw [eraseReturns_return, ih, bodyOpener?_cons, if_neg fun h => absurd h.1 (by decide)]
    · have hhead : (eraseReturns (s.dropWhile isReturnTypeChar)).head? =
          (s.dropWhile isReturnTypeChar).head? := by
        refine head?_erase fun d hd heq => ?_
        have hnot := List.head?_dropWhile_not isReturnTypeChar s
        rw [hd] at hnot
        simp [heq, hreturn] at hnot
      rw [eraseReturns_cons hc, bodyOpener?_cons, bodyOpener?_cons, dropWhile_erase_of_return hreturn,
        hhead, ih]
      split <;> rfl

section

variable {lines : List Line} (h : ∀ line ∈ lines, Loose line)

include h

theorem declarationEnd?_erase (number : Int) :
    declarationEnd? number (lines.map eraseReturns) = declarationEnd? number lines := by
  induction lines generalizing number with
  | nil => rfl
  | cons line rest ih =>
    obtain ⟨hline, hrest⟩ := List.forall_mem_cons.1 h
    simp only [List.map_cons, declarationEnd?, bodyOpener?_erase, containsArrow_erase hline,
      contains_erase (by decide : '{' ≠ '\r'), expressionEnd_erase number hline, ih hrest]
    cases bodyOpener? line with
    | none => rfl
    | some opener =>
      simp only [Option.map_some, braceBalance_erase, bodyEndAt_erase hline hrest, bodyEnd?_erase hrest]

theorem declarationFrom?_erase (name : List Char) (number : Int) :
    declarationFrom? name number (lines.map eraseReturns) = declarationFrom? name number lines := by
  induction lines generalizing number with
  | nil => rfl
  | cons line above ih =>
    obtain ⟨hline, habove⟩ := List.forall_mem_cons.1 h
    have hdeclares : declaresName name (eraseReturns line) = declaresName name line := by
      rw [Bool.eq_iff_iff, declaresName, declaresName, List.any_eq_true, List.any_eq_true]
      refine exists_congr fun p => and_congr_right fun hp => ?_
      rw [firstName?_erase (steadyWord_of_mem_declarationPatterns p hp) hline]
    simp only [List.map_cons, declarationFrom?, hdeclares, ih habove]

theorem declarationStart_erase (number : Int) (name : List Char) :
    declarationStart (lines.map eraseReturns) number name = declarationStart lines number name := by
  have habove (count limit : Nat) : ∀ line ∈ (lines.take count).reverse.take limit, Loose line :=
    fun line hline => h line (List.mem_of_mem_take (List.mem_reverse.1 (List.mem_of_mem_take hline)))
  simp only [declarationStart, List.length_map, ← List.map_take, ← List.map_reverse,
    declarationFrom?_erase (habove _ _)]

/-! ## Boundaries -/

omit h in
theorem linesFrom?_erase (number : Int) :
    linesFrom? (lines.map eraseReturns) number = (linesFrom? lines number).map (·.map eraseReturns) := by
  simp only [linesFrom?, List.length_map, ← List.map_drop, ← List.map_append]
  split
  · rfl
  · split <;> rfl

theorem loose_of_linesFrom? {number : Int} {below : List Line}
    (hbelow : linesFrom? lines number = some below) : ∀ line ∈ below, Loose line := by
  rw [linesFrom?] at hbelow
  split at hbelow
  · cases hbelow
    exact fun line hline => h line (List.mem_of_mem_drop hline)
  · split at hbelow
    · cases hbelow
      intro line hline
      exact h line ((List.mem_append.1 hline).elim List.mem_of_mem_drop id)
    · simp at hbelow

/-- A boundary does not depend on carriage returns in front of blanks or at the end of lines. -/
theorem functionBoundary?_erase (r : FunctionRecord) :
    functionBoundary? (lines.map eraseReturns) r = functionBoundary? lines r := by
  simp only [functionBoundary?, arrowStart_erase h, declarationStart_erase h, linesFrom?_erase,
    List.length_map, Option.map_map]
  split
  · apply Option.map_congr
    intro below hbelow
    simp only [Function.comp_apply, arrowExtent_erase (loose_of_linesFrom? h hbelow)]
  · apply Option.map_congr
    intro below hbelow
    simp only [Function.comp_apply, declarationEnd?_erase (loose_of_linesFrom? h hbelow)]

theorem functionBoundaries?_erase (records : List FunctionRecord) :
    functionBoundaries? (lines.map eraseReturns) records = functionBoundaries? lines records := by
  simp only [functionBoundaries?, functionBoundary?_erase h]

end

end BranchTally
