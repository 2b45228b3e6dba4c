-- SUMMARY: Replacing what strings say leaves the decision points of a source unchanged under conditions on what they say; in general it does not.
import Mathlib
import BranchTally.Proofs.Redaction.Shape
import BranchTally.Proofs.Redaction.Strip

/-!
# What strings say does not matter

The content of a string is replaced letter by letter, its quotes stay. The collectors that read live
code see no difference. Those that read lines without comments know nothing about strings, and the
search for colons counts the brackets in them, so for these the content must have nothing they look for.
-/

namespace BranchTally

open Text

/-! ## Strings -/

namespace Quotation

/-- What makes the content of a string irrelevant: it is string content, searches find nothing in it, it
stands apart from defaults, has no `//`, and settles no loop header that reaches over it. -/
structure Unread (t : Quotation) : Prop where
  masked : ∀ i < t.content.length, (literalMask t.line)[t.redaction.start + i]? = some true
  inert : t.Inert
  apart : t.Apart
  slashes : t.content.IsChain fun a b => ¬ (a = '/' ∧ b = '/')
  loops : t.redaction.ClosedInFront ∨ (Headers.of t.line).forHeader = none ∨
    eachWord? (t.quote :: t.content) = none

variable {t : Quotation}

theorem quote_noMark : t.quote ≠ '/' ∧ t.quote ≠ '*' :=
  ⟨ne_quote (by decide) (by decide), ne_quote (by decide) (by decide)⟩

theorem Inert.sameTail (h : t.Inert) : SameTail t.quote (t.content ++ t.quote :: t.back)
    (t.redaction.filler ++ t.quote :: t.back) := by
  have hstar {said : Line} (hsaid : t.Says said) : '*' ∉ t.quote :: said := by
    rw [List.mem_cons, not_or]
    exact ⟨quote_noMark.2.symm, h.not_mem hsaid (by decide)⟩
  have hbreak {said : Line} (hsaid : t.Says said) : '\n' ∉ t.quote :: said := by
    rw [List.mem_cons, not_or]
    exact ⟨(ne_quote (by decide) (by decide)).symm, h.not_mem hsaid (by decide)⟩
  have hcloses {said : Line} (hsaid : t.Says said) :
      closesBlock (t.quote :: (said ++ t.quote :: t.back)) = closesBlock (t.quote :: t.back) :=
    closesBlock_append_of_not_mem (hstar hsaid) (hbreak hsaid) _
  have hends {said : Line} (hsaid : t.Says said) :
      isLineTail (t.quote :: (said ++ t.quote :: t.back)) = isLineTail (t.quote :: t.back) :=
    isLineTail_append_of_not_mem (hbreak hsaid) _
  have hfilter {said : Line} (hsaid : t.Says said) :
      (t.quote :: (said ++ t.quote :: t.back)).filter (· = '\n') =
        (t.quote :: t.back).filter (· = '\n') := by
    have hnone : (t.quote :: said).filter (· = '\n') = [] :=
      List.filter_eq_nil_iff.2 fun c hc heq => hbreak hsaid (of_decide_eq_true heq ▸ hc)
    rw [← List.cons_append, List.filter_append, hnone, List.nil_append]
  exact ⟨quote_noMark, (hcloses said_content).trans (hcloses said_filler).symm,
    (hends said_content).trans (hends said_filler).symm,
    (hfilter said_content).trans (hfilter said_filler).symm⟩

namespace Unread

variable (h : t.Unread)

include h

/-- Without comments the line and the line with the content replaced differ in the content at most. -/
theorem stripComments : Requoted (stripComments t.line) (BranchTally.stripComments t.redacted) := by
  have hslashes {said : Line} (hsaid : t.Says said) :
      said.IsChain fun a b => ¬ (a = '/' ∧ b = '/') := by
    rcases hsaid with rfl | rfl
    · exact h.slashes
    · exact List.isChain_replicate_of_rel _ (by decide)
  have hcode {said : Line} (hsaid : t.Says said) : stripCommentsFrom false (t.quoted said) =
      t.quote :: (said ++ t.quote :: BranchTally.stripComments t.back) := by
    rw [quoted, stripCommentsFrom_code fun hc => absurd hc quote_noMark.1,
      stripCommentsFrom_code_append quote_noMark (h.inert.not_mem hsaid (by decide)) (hslashes hsaid)]
    rfl
  have hblock {said : Line} (hsaid : t.Says said) :
      stripCommentsFrom true (t.quoted said) = stripCommentsFrom true (t.quote :: t.back) := by
    refine stripCommentsFrom_inside_append (u := t.quote :: said) ?_ _
    rw [List.mem_cons, not_or]
    exact ⟨quote_noMark.2.symm, h.inert.not_mem hsaid (by decide)⟩
  rcases h.inert.sameTail.stripAlike false t.front with heq | ⟨left, state, hleft, heq, heq'⟩
  · have hsame : BranchTally.stripComments t.line = BranchTally.stripComments t.redacted := heq
    exact hsame ▸ .same _
  · have hline : BranchTally.stripComments t.line =
        left ++ stripCommentsFrom state (t.quoted t.content) := heq
    have hredacted : BranchTally.stripComments t.redacted =
        left ++ stripCommentsFrom state (t.quoted t.redaction.filler) := heq'
    cases state with
    | true =>
      rw [hline, hredacted, hblock said_content, hblock said_filler]
      exact .same _
    | false =>
      rw [hline, hredacted, hcode said_content, hcode said_filler]
      exact .of_subset h.inert h.apart hleft (stripComments_sublist t.back).subset

theorem readAlike : ReadAlike t.line t.redacted := h.stripComments.sameShape

theorem literalMask_redacted : literalMask t.redacted = literalMask t.line ∧ t.redaction.SameMask := by
  refine t.redaction.literalMask_redacted fun c hc => ?_
  have hne (x : Char) (hx : isInert x = false) : c ≠ x := ne_of_isInert hx (h.inert.chars c hc)
  simp [isUnquoting, isQuoting, hne '\\' (by decide), hne '\'' (by decide), hne '"' (by decide),
    hne '\x60' (by decide), hne '{' (by decide), hne '}' (by decide)]

/-- What is hidden is string content in both lines. -/
theorem masked_of_hides {i : Nat} (hi : t.redaction.Hides i) :
    (literalMask t.line)[i]? = some true ∧ (literalMask t.redacted)[i]? = some true := by
  obtain ⟨hstart, hstop⟩ := hi
  have hmasked := h.masked (i - t.redaction.start) (by
    have hlength : t.redaction.stop = t.redaction.start + t.content.length := rfl
    omega)
  rw [Nat.add_sub_cancel' hstart] at hmasked
  exact ⟨hmasked, h.literalMask_redacted.1 ▸ hmasked⟩

theorem commentSpans_redacted : commentSpans t.redacted = commentSpans t.line := by
  obtain ⟨mark, hidden, filled, tail, hhidden, hfilled, -, hline, hredacted⟩ :=
    h.literalMask_redacted.2.exists_cells
  have hquiet {texts : List (Char × Bool)} {said line : Line} (hsaid : t.Says said)
      (htexts : texts.map Prod.fst = said)
      (hcells : maskedCells line = maskedCells t.front ++ (t.quote, mark) :: (texts ++ tail))
      (hmask : ∀ i, t.redaction.Hides i → (literalMask line)[i]? = some true) :
      ∀ x ∈ texts, x.2 = true ∧ x.1 ≠ '*' := by
    intro x hx
    obtain ⟨k, hk, hcell⟩ := List.getElem_of_mem hx
    have hlength : texts.length = t.content.length := by
      rw [← List.length_map Prod.fst, htexts]
      exact hsaid.length_eq
    have hindex : (maskedCells line)[t.redaction.start + k]? = some x := by
      have hstart : (maskedCells t.front ++ [(t.quote, mark)]).length = t.redaction.start := by
        rw [List.length_append, length_maskedCells]
        rfl
      rw [hcells, List.append_cons, ← hstart, List.getElem?_append_right (Nat.le_add_right _ _),
        Nat.add_sub_cancel_left, List.getElem?_append_left hk, List.getElem?_eq_getElem hk, hcell]
    have hmarked := hmask (t.redaction.start + k) ⟨Nat.le_add_right _ _, by
      have hstop : t.redaction.stop = t.redaction.start + t.content.length := rfl
      omega⟩
    refine ⟨Option.some.inj (((List.getElem?_zip_eq_some).1 hindex).2.symm.trans hmarked), ?_⟩
    rintro hstar
    exact h.inert.not_mem hsaid (by decide : isInert '*' = false)
      (htexts ▸ hstar ▸ List.mem_map_of_mem hx)
  have hlength : hidden.length = filled.length := by
    rw [← List.length_map Prod.fst, hhidden, ← List.length_map Prod.fst, hfilled]
    exact t.redaction.length_filler.symm
  have htexts := hquiet said_content hhidden hline fun i hi => (h.masked_of_hides hi).1
  have hfiller := hquiet said_filler hfilled hredacted fun i hi => (h.masked_of_hides hi).2
  have hcells : commentSpansFrom 0 none 0 (maskedCells t.redaction.redacted) =
      commentSpansFrom 0 none 0 (maskedCells t.redaction.text) := by
    rw [hline, hredacted]
    refine commentSpansFrom_append_congr quote_noMark (by simp [hlength]) (fun skip opened pos => ?_) _ _ _ _
    rw [commentSpansFrom_masked_append htexts, commentSpansFrom_masked_append hfiller, hlength]
  exact hcells

/-- Nothing of the string is live in either line. -/
theorem hidden : t.redaction.Hidden := by
  have hlive : LiveMap.of t.redacted = LiveMap.of t.line := by
    rw [LiveMap.of, LiveMap.of, h.literalMask_redacted.1, h.commentSpans_redacted]
  refine ⟨fun i => congrArg (LiveMap.isLive · i) hlive, Or.inl fun i hi => ?_⟩
  have hmasked := (h.masked_of_hides hi).1
  have hmask : (LiveMap.of t.redaction.text).mask = literalMask t.line := rfl
  rw [LiveMap.isLive, hmask, hmasked]
  rfl

theorem settled : t.redaction.Settled := by
  have hnone {c : Char} (hc : isInert c = false) : c ∉ t.redaction.content :=
    h.inert.not_mem said_content hc
  exact h.loops.imp_right fun hloops => ⟨hnone (by decide), hnone (by decide),
    hloops.imp_right fun hwords => ⟨hnone (by decide), hwords⟩⟩

theorem sameCode : SameCode t.line t.redacted :=
  h.hidden.sameCode h.literalMask_redacted.2 h.settled (h.inert.not_mem said_content (by decide))
    fun hslash => absurd hslash quote_noMark.1

theorem sameQuestions (hbrackets : ∀ c ∈ t.content, c ≠ '[' ∧ c ≠ ']') :
    SameQuestions t.line t.redacted := by
  have hunasked : t.redaction.Unasked := by
    refine ⟨fun c hc hmem => ?_, Or.inl fun i hi => h.masked_of_hides hi⟩
    have hne (x : Char) (hx : isInert x = false) : c ≠ x := ne_of_isInert hx (h.inert.chars c hc)
    simp [Redaction.bracketChars, hne '(' (by decide), hne ')' (by decide), hne '{' (by decide),
      hne '}' (by decide), hbrackets c hc] at hmem
  exact hunasked.sameQuestions h.hidden h.literalMask_redacted.2

end Unread

end Quotation

/-! ## Sources -/

/-- The second line is the first or has the content of a string replaced that is not read. Where there
are `questions`, the content has no square brackets. -/
inductive Reworded (questions : Prop) : Line → Line → Prop
  | same (l : Line) : Reworded questions l l
  | string (t : Quotation) (h : t.Unread)
      (hbrackets : questions → ∀ c ∈ t.content, c ≠ '[' ∧ c ≠ ']') :
      Reworded questions t.line t.redacted

namespace Reworded

variable {questions : Prop} {l l' : Line} (h : Reworded questions l l')

include h

theorem readAlike : ReadAlike l l' := by
  cases h with
  | same => exact SameShape.refl _
  | string t h => exact h.readAlike

theorem sameCode : SameCode l l' := by
  cases h with
  | same => exact SameCode.refl l
  | string t h => exact h.sameCode

theorem sameQuestions (hquestions : questions) : SameQuestions l l' := by
  cases h with
  | same => exact Redaction.SameQuestions.refl l
  | string t h hbrackets => exact h.sameQuestions (hbrackets hquestions)

theorem not_mem {a : Char} (hx : 'x' ≠ a) (ha : a ∉ l) : a ∉ l' := by
  cases h with
  | same => exact ha
  | string t =>
    have hfiller : a ∉ t.redaction.filler := fun hmem => hx (List.eq_of_mem_replicate hmem).symm
    rw [t.line_eq, Quotation.quoted] at ha
    rw [t.redacted_eq, Quotation.quoted]
    simp only [List.mem_append, List.mem_cons, not_or] at ha ⊢
    exact ⟨ha.1, ha.2.1, hfiller, ha.2.2.2⟩

end Reworded

/-- String contents do not matter where they are not read: replacing them leaves the decision points of
the source unchanged. -/
theorem decisionPoints_of_reworded {source reworded : List Char}
    (h : List.Forall₂ (Reworded ('?' ∈ source)) (splitLines source) (splitLines reworded))
    (boundaries : BoundaryMap) : decisionPoints reworded boundaries = decisionPoints source boundaries :=
  (decisionPoints_of_sameQuestions (fun _ _ => Reworded.readAlike) (fun _ _ => Reworded.sameCode)
    (fun hquestions _ _ hl => hl.sameQuestions hquestions) (fun _ _ hl => hl.not_mem (by decide)) h
    boundaries).symm

theorem decisionPoints_of_reworded_operators :
    let source := "const y = a && b ? \"yes: c?.d, see ./e\" : z;\nit('x ?? y', () => v || w);".toList
    let reworded := "const y = a && b ? \"xxxxxxxxxxxxxxxxxx\" : z;\nit('xxxxxx', () => v || w);".toList
    List.Forall₂ (Reworded ('?' ∈ source)) (splitLines source) (splitLines reworded) ∧
      ∀ boundaries, decisionPoints reworded boundaries = decisionPoints source boundaries := by
  intro source reworded
  let choice : Quotation :=
    ⟨"const y = a && b ? ".toList, '"', "yes: c?.d, see ./e".toList, " : z;".toList, Or.inr rfl⟩
  let call : Quotation := ⟨"it(".toList, '\'', "x ?? y".toList, ", () => v || w);".toList, Or.inl rfl⟩
  have hlines : splitLines source = [choice.line, call.line] := by decide
  have hreworded : splitLines reworded = [choice.redacted, call.redacted] := by decide
  have hchoice : choice.Unread :=
    ⟨by decide, ⟨forall_mem_of_all (by decide), by decide⟩, Or.inr (Or.inr (by decide)), by decide,
      Or.inr (Or.inl (by decide))⟩
  have hcall : call.Unread :=
    ⟨by decide, ⟨forall_mem_of_all (by decide), by decide⟩, Or.inr (Or.inl (by decide)), by decide,
      Or.inr (Or.inl (by decide))⟩
  have hchoice' : ∀ c ∈ choice.content, c ≠ '[' ∧ c ≠ ']' := forall_mem_of_all (by decide)
  have hcall' : ∀ c ∈ call.content, c ≠ '[' ∧ c ≠ ']' := forall_mem_of_all (by decide)
  have h : List.Forall₂ (Reworded ('?' ∈ source)) (splitLines source) (splitLines reworded) := by
    rw [hlines, hreworded]
    exact .cons (.string choice hchoice fun _ => hchoice')
      (.cons (.string call hcall fun _ => hcall') .nil)
  exact ⟨h, decisionPoints_of_reworded h⟩

/-- What a string says on a line with an arrow is read as a default. -/
theorem decisionPoints_ne_of_default_in_string :
    let t : Quotation := ⟨"it(".toList, '"', "x = 1".toList, ", () => \x7b".toList, Or.inr rfl⟩
    let m := BoundaryMap.single 1 ⟨1, 1, by decide⟩
    splitLines t.line = [t.line] ∧ splitLines t.redacted = [t.redacted] ∧
      (LiveMap.of t.line).isLive t.front.length = true ∧
      (∀ i < t.content.length, (literalMask t.line)[t.redaction.start + i]? = some true) ∧
      t.content.all isUnquoting = true ∧ decisionPoints t.redacted m ≠ decisionPoints t.line m := by
  intro t m
  have hlines : splitLines t.line = [t.line] := by decide
  have hredacted : splitLines t.redacted = [t.redacted] := by decide
  have hcounted := (@decisionPoints_single_line 1 ⟨1, 1, by decide⟩ _ _ hlines (by decide)
    (by decide)).length_eq
  have hnone := (@decisionPoints_single_line 1 ⟨1, 1, by decide⟩ _ _ hredacted (by decide)
    (by decide)).length_eq
  refine ⟨hlines, hredacted, by decide, by decide, by decide, fun heq => ?_⟩
  rw [← heq, hnone] at hcounted
  revert hcounted
  decide +kernel

end BranchTally
