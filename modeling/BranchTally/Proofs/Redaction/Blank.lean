-- SUMMARY: Blanking comments leaves the decision points of a source unchanged under conditions on what the comments say; in general it does not.
import Mathlib
import BranchTally.Proofs.Redaction.Comment

/-!
# Comments do not matter

What a comment says is blanked, its marks stay. The decision points are the same if the collectors that
read comments find nothing in it: the search for the colons of ternaries, the search for closing
parentheses and the kind of a loop.
-/

namespace BranchTally

open Text

/-! ## Comments -/

/-- A comment: the line in front of it, what it says and, for a block comment, the line behind it. -/
structure Comment where
  front : Line
  content : Line
  back : Option Line

namespace Comment

variable (c : Comment)

/-- The second character of the mark that opens the comment. -/
def sign : Char := if c.back.isSome then '*' else '/'

/-- The line from the end of the content on. -/
def closing : Line :=
  match c.back with
  | some back => '*' :: '/' :: back
  | none => []

/-- The content is replaced by blanks. -/
def redaction : Redaction where
  front := c.front ++ ['/']
  guard := c.sign
  content := c.content
  filler := List.replicate c.content.length ' '
  behind := c.closing
  isGuard_guard := by
    unfold sign
    split <;> decide
  isGuard_behind := by
    unfold closing
    split
    · simp only [List.head?_cons, Option.mem_def, Option.some.injEq]
      rintro _ rfl
      decide
    · simp
  isFiller_filler d hd := by
    rw [List.eq_of_mem_replicate hd]
    decide
  length_filler := List.length_replicate

/-- The line as it is. -/
def line : Line := c.redaction.text

/-- The line with the content blanked. -/
def blanked : Line := c.redaction.redacted

/-- What makes the content of a comment irrelevant on lines without question marks: the comment is
reported as one and no string in front of it holds a `/*`; the content does not close a block, leaves
the quotes behind it alone and settles no condition that reaches over it. -/
structure Blankable : Prop where
  sameLine : '\n' ∉ c.line
  reported : ∃ span ∈ commentSpans c.line, span.start = c.front.length
  strings : HidesNoBlock (maskedCells c.front)
  block : c.back.isSome → c.content.IsChain fun a b => ¬ (a = '*' ∧ b = '/')
  quotes : (literalMask c.blanked).drop c.redaction.stop = (literalMask c.line).drop c.redaction.stop
  settled : c.redaction.Settled

end Comment

/-! ## Inside a block -/

theorem commentSpansFrom_block {content behind : List (Char × Bool)} {start pos : Nat} {a b : Bool}
    (h : (content.map Prod.fst).IsChain fun a b => ¬ (a = '*' ∧ b = '/')) :
    commentSpansFrom 0 (some start) pos (content ++ ('*', a) :: ('/', b) :: behind) =
      ⟨start, pos + content.length + 2⟩ ::
        commentSpansFrom 0 none (pos + content.length + 2) behind := by
  induction content generalizing pos with
  | nil => simp [commentSpansFrom]
  | cons x content ih =>
    have hnot : ¬ (x.1 = '*' ∧
        ((content ++ ('*', a) :: ('/', b) :: behind).head?.any fun y => y.1 = '/') = true) := by
      rintro ⟨hx, hnext⟩
      cases content with
      | nil => simp at hnext
      | cons y content =>
        exact (List.isChain_cons_cons.1 h).1 ⟨hx, by simpa using hnext⟩
    have hrest := @ih (pos + 1) h.tail
    rw [List.cons_append, commentSpansFrom, if_neg (by simpa using hnot), hrest]
    simp only [List.length_cons, Nat.add_right_comm pos 1, Nat.add_assoc pos content.length]

theorem stripCommentsFrom_blockContent {content back : Line}
    (h : content.IsChain fun a b => ¬ (a = '*' ∧ b = '/')) (hline : '\n' ∉ content) :
    closesBlock (content ++ '*' :: '/' :: back) = true ∧
      stripCommentsFrom true (content ++ '*' :: '/' :: back) = stripCommentsFrom false back := by
  induction content with
  | nil => exact ⟨rfl, rfl⟩
  | cons c content ih =>
    obtain ⟨hc, hcontent⟩ := not_or.1 (List.mem_cons.not.1 hline)
    have hnot : c = '*' → (content ++ '*' :: '/' :: back).head? ≠ some '/' := by
      intro hstar hnext
      cases content with
      | nil => simp at hnext
      | cons d content => exact (List.isChain_cons_cons.1 h).1 ⟨hstar, by simpa using hnext⟩
    obtain ⟨hcloses, hstrip⟩ := ih h.tail hcontent
    rw [List.cons_append, closesBlock_cons (Ne.symm hc), hcloses, Bool.or_true,
      stripCommentsFrom_inside hnot, hstrip]
    exact ⟨rfl, rfl⟩

/-! ## The two lines -/

theorem exists_maskedCells_concat {g : Char} (hg : g ≠ '{') (front : Line) :
    ∃ mark, maskedCells (front ++ [g]) = maskedCells front ++ [(g, mark)] := by
  obtain ⟨t, ht⟩ := QuoteState.mask_append_cons hg front {}
  have hlast : t.mask [g] = [t.inLiteral] := QuoteState.mask_cons (t.width_advance g (by simp))
  refine ⟨t.inLiteral, ?_⟩
  rw [maskedCells, literalMask, ht, hlast, List.zip_append (QuoteState.length_mask _ _).symm]
  rfl

namespace Comment

variable {c : Comment}

/-- One of the two texts that may stand in the comment. -/
theorem fill_redaction (hidden : Line) :
    c.redaction.fill hidden = c.front ++ '/' :: c.sign :: (hidden ++ c.closing) := by
  simp [Redaction.fill, redaction]

theorem line_eq : c.line = c.front ++ '/' :: c.sign :: (c.content ++ c.closing) :=
  fill_redaction c.content

theorem blanked_eq : c.blanked = c.front ++ '/' :: c.sign :: (c.redaction.filler ++ c.closing) :=
  fill_redaction c.redaction.filler

theorem not_mem_filler {a : Char} (hblank : ' ' ≠ a) : a ∉ c.redaction.filler :=
  fun h => hblank (List.eq_of_mem_replicate h).symm

/-- No character but the blank is new. -/
theorem not_mem_blanked {a : Char} (hblank : ' ' ≠ a) (ha : a ∉ c.line) : a ∉ c.blanked := by
  rw [line_eq] at ha
  rw [blanked_eq]
  simp only [List.mem_append, List.mem_cons, not_or] at ha ⊢
  exact ⟨ha.1, ha.2.1, ha.2.2.1, not_mem_filler hblank, ha.2.2.2.2⟩

/-- The spans from a comment on do not depend on what it says. -/
theorem commentSpansFrom_comment {tail : List (Char × Bool)} (htail : tail.map Prod.fst = c.closing)
    (pos length : Nat) (mark : Bool) : ∃ (stop : Nat) (more : List Span), pos + 2 + length ≤ stop ∧
      ∀ hidden : List (Char × Bool), hidden.length = length →
        (c.back.isSome → (hidden.map Prod.fst).IsChain fun a b => ¬ (a = '*' ∧ b = '/')) →
        commentSpansFrom 0 none pos (('/', false) :: (c.sign, mark) :: (hidden ++ tail)) =
          ⟨pos, stop⟩ :: more := by
  cases hback : c.back with
  | none =>
    have hnil : tail = [] := by simpa [closing, hback] using htail
    refine ⟨pos + 2 + length, [], Nat.le_refl _, fun hidden hlength _ => ?_⟩
    simp [commentSpansFrom, sign, hback, hnil, hlength]
    omega
  | some back =>
    rw [closing, hback] at htail
    obtain ⟨⟨star, a⟩, tail, rfl⟩ := List.exists_cons_of_ne_nil
      (fun hnil : tail = [] => by simp [hnil] at htail)
    obtain ⟨⟨slash, b⟩, tail, rfl⟩ := List.exists_cons_of_ne_nil
      (fun hnil : tail = [] => by simp [hnil] at htail)
    simp only [List.map_cons, List.cons.injEq] at htail
    obtain ⟨rfl, rfl, -⟩ := htail
    refine ⟨pos + 2 + length + 2, commentSpansFrom 0 none (pos + 2 + length + 2) tail, by omega,
      fun hidden hlength hchain => ?_⟩
    have hinside : commentSpansFrom 0 none pos
        (('/', false) :: (c.sign, mark) :: (hidden ++ ('*', a) :: ('/', b) :: tail)) =
        commentSpansFrom 0 (some pos) (pos + 2) (hidden ++ ('*', a) :: ('/', b) :: tail) := by
      simp [commentSpansFrom, sign, hback]
    rw [hinside, commentSpansFrom_block (hchain (by simp)), hlength]

namespace Blankable

variable (h : c.Blankable)

include h

theorem sameMask : c.redaction.SameMask := c.redaction.sameMask_of_drop h.quotes

/-- The masked characters up to the comment, in it and behind it. -/
theorem exists_cells : ∃ (slash mark : Bool) (hidden filled tail : List (Char × Bool)),
    hidden.map Prod.fst = c.content ∧ filled.map Prod.fst = c.redaction.filler ∧
      tail.map Prod.fst = c.closing ∧
      maskedCells c.line =
        maskedCells c.front ++ ('/', slash) :: (c.sign, mark) :: (hidden ++ tail) ∧
      maskedCells c.blanked =
        maskedCells c.front ++ ('/', slash) :: (c.sign, mark) :: (filled ++ tail) := by
  obtain ⟨mark, hidden, filled, tail, hhidden, hfilled, htail, hline, hblanked⟩ :=
    h.sameMask.exists_cells
  obtain ⟨slash, hslash⟩ := exists_maskedCells_concat (by decide : '/' ≠ '{') c.front
  have hfront : maskedCells c.redaction.front = maskedCells c.front ++ [('/', slash)] := hslash
  refine ⟨slash, mark, hidden, filled, tail, hhidden, hfilled, htail, ?_, ?_⟩
  · rw [line, hline, hfront, List.append_assoc]
    rfl
  · rw [blanked, hblanked, hfront, List.append_assoc]
    rfl

/-- The comments of the line before and after, and one around what is blanked. -/
theorem commentSpans_blanked : commentSpans c.blanked = commentSpans c.line ∧
    ∃ span ∈ commentSpans c.line, ∀ i, c.redaction.Hides i → span.contains i = true := by
  obtain ⟨slash, mark, hidden, filled, tail, hhidden, hfilled, htail, hline, hblanked⟩ := h.exists_cells
  have hreported := h.reported
  have hstart : ∃ span ∈ commentSpansFrom 0 none 0
      (maskedCells c.front ++ ('/', slash) :: (c.sign, mark) :: (hidden ++ tail)),
      span.start = 0 + (maskedCells c.front).length := by
    rwa [commentSpans, hline, ← length_maskedCells, ← Nat.zero_add (List.length _)] at hreported
  have hhead : (('/', slash) :: (c.sign, mark) :: (hidden ++ tail)).head? =
      (('/', slash) :: (c.sign, mark) :: (filled ++ tail)).head? := rfl
  obtain ⟨above, habove, habove', hfirst⟩ :=
    commentSpansFrom_append hhead (fun _ hopened => absurd hopened (by simp)) hstart
  obtain ⟨-, rfl⟩ := cell_of_commentSpansFrom hfirst
  obtain ⟨stop, more, hstop, hspans⟩ :=
    commentSpansFrom_comment htail (0 + (maskedCells c.front).length) c.content.length mark
  have hblanks : c.back.isSome → (filled.map Prod.fst).IsChain fun a b => ¬ (a = '*' ∧ b = '/') := by
    intro _
    rw [hfilled]
    exact List.isChain_replicate_of_rel _ (by decide)
  have hfill : filled.length = c.content.length := by
    rw [← List.length_map Prod.fst, hfilled]
    exact c.redaction.length_filler
  have htext := hspans hidden (by rw [← hhidden, List.length_map]) fun hb => hhidden ▸ h.block hb
  have hblank := hspans filled hfill hblanks
  have hlines : commentSpans c.line = above ++ ⟨0 + (maskedCells c.front).length, stop⟩ :: more := by
    rw [commentSpans, hline, habove, htext]
  refine ⟨?_, ⟨_, stop⟩, hlines ▸ List.mem_append_right _ List.mem_cons_self, fun i hi => ?_⟩
  · rw [hlines, commentSpans, hblanked, habove', hblank]
  · have hedge : c.redaction.front.length = c.front.length + 1 := by simp [redaction]
    have hbounds : c.front.length + 2 ≤ i ∧ i < c.front.length + 2 + c.content.length := by
      simp only [Redaction.Hides, Redaction.stop, Redaction.start, hedge] at hi
      exact hi
    rw [length_maskedCells] at hstop ⊢
    simp only [Span.contains, Bool.and_eq_true, decide_eq_true_eq]
    omega

/-- Nothing of the comment is live before or after. -/
theorem hidden : c.redaction.Hidden := by
  obtain ⟨hspans, span, hspan, hcovers⟩ := h.commentSpans_blanked
  have hdead {line : Line} (hline : commentSpans line = commentSpans c.line) (i : Nat)
      (hi : c.redaction.Hides i) : (LiveMap.of line).isLive i = false := by
    have hcovered : (commentSpans line).any (·.contains i) = true :=
      List.any_eq_true.2 ⟨span, hline ▸ hspan, hcovers i hi⟩
    simp [LiveMap.isLive, LiveMap.of, hcovered]
  refine ⟨fun i => ?_, Or.inl (hdead rfl)⟩
  by_cases hi : c.redaction.Hides i
  · exact (hdead hspans i hi).trans (hdead rfl i hi).symm
  · have hmask := h.sameMask.getElem?_literalMask hi
    have hcomments : commentSpans c.redaction.redacted = commentSpans c.redaction.text := hspans
    rw [LiveMap.isLive, LiveMap.isLive, LiveMap.of, LiveMap.of, hmask, hcomments]

theorem sameLine_content : '\n' ∉ c.content :=
  fun hbreak => h.sameLine (by simp [line_eq, hbreak])

theorem stripComments_comment : stripComments ('/' :: c.sign :: (c.content ++ c.closing)) =
    stripComments ('/' :: c.sign :: (c.redaction.filler ++ c.closing)) := by
  unfold stripComments
  cases hback : c.back with
  | none =>
    have hnone {text : Line} (htext : '\n' ∉ text) : stripCommentsFrom false
        ('/' :: c.sign :: (text ++ c.closing)) = [] := by
      refine stripCommentsFrom_line (by simp [sign, hback]) ?_
      simpa [sign, closing, hback] using htext
    rw [hnone h.sameLine_content, hnone (not_mem_filler (by decide))]
  | some back =>
    have hback' {text : Line} (htext : '\n' ∉ text)
        (hchain : text.IsChain fun a b => ¬ (a = '*' ∧ b = '/')) : stripCommentsFrom false
          ('/' :: c.sign :: (text ++ c.closing)) = stripCommentsFrom false back := by
      obtain ⟨hcloses, hstrip⟩ := @stripCommentsFrom_blockContent text back hchain htext
      have hsign : c.sign = '*' := by simp [sign, hback]
      have hclosing : c.closing = '*' :: '/' :: back := by simp [closing, hback]
      rw [hsign, hclosing, stripCommentsFrom_block hcloses, hstrip]
    rw [hback' h.sameLine_content (h.block (by simp [hback])), hback' (not_mem_filler (by decide))
      (List.isChain_replicate_of_rel _ (by decide))]

/-- Without comments the two lines are the same. -/
theorem stripComments_blanked : stripComments c.line = stripComments c.blanked := by
  obtain ⟨slash, mark, hidden, filled, tail, hhidden, hfilled, htail, hline, hblanked⟩ := h.exists_cells
  have hchars {texts : List (Char × Bool)} {text : Line} (htexts : texts.map Prod.fst = text) :
      (('/', slash) :: (c.sign, mark) :: (texts ++ tail)).map Prod.fst =
        '/' :: c.sign :: (text ++ c.closing) := by
    rw [List.map_cons, List.map_cons, List.map_append, htexts, htail]
  have hsame : '\n' ∉ '/' :: c.sign :: (c.content ++ c.closing) := fun hbreak =>
    h.sameLine (line_eq ▸ List.mem_append_right _ hbreak)
  have hsame' : '\n' ∉ '/' :: c.sign :: (c.redaction.filler ++ c.closing) := by
    have hnone : '\n' ∉ c.redaction.filler := not_mem_filler (by decide)
    simp only [List.mem_cons, List.mem_append, not_or] at hsame ⊢
    exact ⟨hsame.1, hsame.2.1, hnone, hsame.2.2.2⟩
  have hreported : ReportedBehind (('/', slash) :: (c.sign, mark) :: (hidden ++ tail)) none 0
      (maskedCells c.front) := by
    refine ⟨fun _ hopened => absurd hopened (by simp), fun x hx => ?_, h.strings, ?_⟩
    · have hmem : x.1 ∈ c.front := (List.of_mem_zip hx).1
      exact fun hbreak => h.sameLine (line_eq ▸ List.mem_append_left _ (hbreak ▸ hmem))
    · have hreported := h.reported
      rwa [commentSpans, hline, ← length_maskedCells, ← Nat.zero_add (List.length _)]
        at hreported
  have hhead : (('/', slash) :: (c.sign, mark) :: (hidden ++ tail)).head? =
      (('/', slash) :: (c.sign, mark) :: (filled ++ tail)).head? := rfl
  have hstrip := hreported.stripCommentsFrom_congr hhead rfl (by rwa [hchars hhidden])
    (by rwa [hchars hfilled]) (by rw [hchars hhidden, hchars hfilled]; exact h.stripComments_comment)
  rw [hchars hhidden, hchars hfilled, map_fst_maskedCells, ← line_eq, ← blanked_eq] at hstrip
  exact hstrip

theorem readAlike : ReadAlike c.line c.blanked := by
  rw [ReadAlike, h.stripComments_blanked]
  exact SameShape.refl _

theorem sameCode : SameCode c.line c.blanked := by
  refine h.hidden.sameCode h.sameMask h.settled h.sameLine_content fun _ => ?_
  have hslash : skipBlanks c.redaction.front = skipBlanks c.front ++ ['/'] :=
    skipBlanks_append_guard (by decide) c.front []
  rw [hslash]
  exact List.append_ne_nil_of_right_ne_nil _ (List.cons_ne_nil _ _)

theorem sameQuestions (hsearched : ∀ a ∈ c.content, isSearched a = false) :
    SameQuestions c.line c.blanked := by
  have hbrackets : ∀ a, isSearched a = false → a ∉ Redaction.bracketChars := by
    intro a ha hmem
    have hall : ∀ b ∈ Redaction.bracketChars, isSearched b = true := forall_mem_of_all (by decide)
    exact Bool.false_ne_true (ha.symm.trans (hall a hmem))
  have hunasked : c.redaction.Unasked :=
    ⟨fun a ha => hbrackets a (hsearched a ha), Or.inr hsearched⟩
  exact hunasked.sameQuestions h.hidden h.sameMask

end Blankable

end Comment

/-! ## Sources -/

/-- The second line is the first or has the content of a comment blanked. Where there are `questions`,
the content has nothing that the search for a colon reacts to. -/
inductive Blanks (questions : Prop) : Line → Line → Prop
  | same (l : Line) : Blanks questions l l
  | comment (c : Comment) (h : c.Blankable)
      (hsearched : questions → ∀ a ∈ c.content, isSearched a = false) :
      Blanks questions c.line c.blanked

namespace Blanks

variable {questions : Prop} {l l' : Line}

theorem readAlike (h : Blanks questions l l') : ReadAlike l l' := by
  cases h with
  | same => exact SameShape.refl _
  | comment c h => exact h.readAlike

theorem sameCode (h : Blanks questions l l') : SameCode l l' := by
  cases h with
  | same => exact SameCode.refl l
  | comment c h => exact h.sameCode

theorem sameQuestions (h : Blanks questions l l') (hquestions : questions) : SameQuestions l l' := by
  cases h with
  | same => exact Redaction.SameQuestions.refl l
  | comment c h hsearched => exact h.sameQuestions (hsearched hquestions)

theorem not_mem (h : Blanks questions l l') {a : Char} (hblank : ' ' ≠ a) (ha : a ∉ l) : a ∉ l' := by
  cases h with
  | same => exact ha
  | comment c h => exact Comment.not_mem_blanked hblank ha

end Blanks

/-- Comments do not matter where their content is blankable: blanking them leaves the decision points
of the source unchanged. -/
theorem decisionPoints_of_blanks {source blanked : List Char}
    (h : List.Forall₂ (Blanks ('?' ∈ source)) (splitLines source) (splitLines blanked))
    (boundaries : BoundaryMap) : decisionPoints blanked boundaries = decisionPoints source boundaries := by
  exact (decisionPoints_of_sameQuestions (fun _ _ => Blanks.readAlike) (fun _ _ => Blanks.sameCode)
    (fun hquestions _ _ hl => hl.sameQuestions hquestions) (fun _ _ hl => hl.not_mem (by decide)) h
    boundaries).symm

theorem decisionPoints_of_blanks_operators :
    let source := "const y = a && b; // a && b = c\nreturn /* x || y */ z ?? y;".toList
    let blanked := "const y = a && b; //           \nreturn /*        */ z ?? y;".toList
    List.Forall₂ (Blanks ('?' ∈ source)) (splitLines source) (splitLines blanked) ∧
      ∀ boundaries, decisionPoints blanked boundaries = decisionPoints source boundaries := by
  intro source blanked
  let tail : Comment := ⟨"const y = a && b; ".toList, " a && b = c".toList, none⟩
  let block : Comment := ⟨"return ".toList, " x || y ".toList, some " z ?? y;".toList⟩
  have hlines : splitLines source = [tail.line, block.line] := by decide
  have hblanked : splitLines blanked = [tail.blanked, block.blanked] := by decide
  have htail : tail.Blankable :=
    ⟨by decide, by decide, by unfold HidesNoBlock; decide, by decide, by decide,
      Or.inr ⟨by decide, by decide, Or.inl (by decide)⟩⟩
  have hblock : block.Blankable :=
    ⟨by decide, by decide, by unfold HidesNoBlock; decide,
      by decide, by decide,
      Or.inr ⟨by decide, by decide, Or.inl (by decide)⟩⟩
  have htail' : ∀ a ∈ tail.content, isSearched a = false := forall_mem_of_all (by decide)
  have hblock' : ∀ a ∈ block.content, isSearched a = false := forall_mem_of_all (by decide)
  have h : List.Forall₂ (Blanks ('?' ∈ source)) (splitLines source) (splitLines blanked) := by
    rw [hlines, hblanked]
    exact .cons (.comment tail htail fun _ => htail')
      (.cons (.comment block hblock fun _ => hblock') .nil)
  exact ⟨h, decisionPoints_of_blanks h⟩

/-- A ternary in a comment is counted. -/
theorem decisionPoints_ne_of_ternary_in_comment :
    let c : Comment := ⟨"foo(); ".toList, " a ? b : c".toList, none⟩
    let m := BoundaryMap.single 1 ⟨1, 1, by decide⟩
    splitLines c.line = [c.line] ∧ splitLines c.blanked = [c.blanked] ∧
      (∃ span ∈ commentSpans c.line, span.start = c.front.length) ∧
      decisionPoints c.blanked m ≠ decisionPoints c.line m := by
  intro c m
  have hlines : splitLines c.line = [c.line] := by decide
  have hblanked : splitLines c.blanked = [c.blanked] := by decide
  have hcounted := (@decisionPoints_single_line 1 ⟨1, 1, by decide⟩ _ _ hlines (by decide)
    (by decide)).length_eq
  have hnone := (@decisionPoints_single_line 1 ⟨1, 1, by decide⟩ _ _ hblanked (by decide)
    (by decide)).length_eq
  refine ⟨hlines, hblanked, by decide, fun heq => ?_⟩
  rw [← heq, hnone] at hcounted
  revert hcounted
  decide +kernel

end BranchTally
