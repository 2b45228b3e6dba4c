-- SUMMARY: Searches come out the same, and so do the operators of a line, whatever an inert quotation on it says.
import Mathlib
import BranchTally.Proofs.Signature.Shape
import BranchTally.Proofs.Redaction.Header
import BranchTally.Proofs.Redaction.Inert
import BranchTally.Proofs.Redaction.Tests

/-!
# Quotations

The tests of a line without comments know nothing about strings. They come out the same whatever a
string says as long as it has no brackets, operators and the like and not the word `function`.
-/

namespace BranchTally

open Text

/-- A part of a line between two like quotes. -/
structure Quotation where
  front : Line
  quote : Char
  content : Line
  back : Line
  isQuote : quote = '\'' ∨ quote = '"'

namespace Quotation

variable (t : Quotation)

/-- The content is replaced by the letter `x`. -/
def redaction : Redaction where
  front := t.front
  guard := t.quote
  content := t.content
  filler := List.replicate t.content.length 'x'
  behind := t.quote :: t.back
  isGuard_guard := by rcases t.isQuote with h | h <;> rw [h] <;> decide
  isGuard_behind c hc := by
    obtain rfl := Option.some.inj hc
    rcases t.isQuote with h | h <;> rw [h] <;> decide
  isFiller_filler c hc := by
    rw [List.eq_of_mem_replicate hc]
    decide
  length_filler := List.length_replicate

/-- The line as it is. -/
def line : Line := t.redaction.text

/-- The line with the content replaced. -/
def redacted : Line := t.redaction.redacted

/-- The line from the opening quote on where some text is quoted. -/
def quoted (said : Line) : Line := t.quote :: (said ++ t.quote :: t.back)

theorem line_eq : t.line = t.front ++ t.quoted t.content := rfl

theorem redacted_eq : t.redacted = t.front ++ t.quoted t.redaction.filler := rfl

/-- No search stops in the content, and the word `function` is not part of it. -/
structure Inert : Prop where
  chars : ∀ c ∈ t.content, isInert c = true
  function : occurs functionWord t.content = false

/-- The text is one of the two that may be quoted. -/
abbrev Says (said : Line) : Prop := t.redaction.IsHidden said

variable {t}

theorem said_content : t.Says t.content := Or.inl rfl

theorem said_filler : t.Says t.redaction.filler := Or.inr rfl

theorem isGuard_quote : isGuard t.quote = true := t.redaction.isGuard_guard

theorem ne_quote {c : Char} (hsingle : '\'' ≠ c) (hdouble : '"' ≠ c) : t.quote ≠ c := by
  rcases t.isQuote with h | h
  · exact h ▸ hsingle
  · exact h ▸ hdouble

/-- A test that does not look behind the quote is the same for both lines. -/
theorem blind {α : Type} {test : Line → α} (h : Blind t.quote test) : test t.line = test t.redacted :=
  (h _ _).trans (h _ _).symm

theorem exists_declaredValue? : ∃ value : Option Line,
    declaredValue? t.line = value.map (· ++ t.quoted t.content) ∧
      declaredValue? t.redacted = value.map (· ++ t.quoted t.redaction.filler) :=
  ⟨declaredValue? t.front, stopsAt_declaredValue? isGuard_quote _ _,
    stopsAt_declaredValue? isGuard_quote _ _⟩

namespace Inert

variable (h : t.Inert)

include h

theorem isInert_of_said {said : Line} (hsaid : t.Says said) : ∀ c ∈ said, isInert c = true :=
  hsaid.forall_mem h.chars (by decide) (by decide)

theorem not_mem {said : Line} (hsaid : t.Says said) {c : Char} (hc : isInert c = false) : c ∉ said :=
  fun hmem => Bool.false_ne_true (hc.symm.trans (h.isInert_of_said hsaid c hmem))

theorem sameText_append (k : Line) :
    SameText (k ++ t.quoted t.content) (k ++ t.quoted t.redaction.filler) := by
  have hsaid : SameText t.content t.redaction.filler := sameText_of_isInert t.redaction.length_filler.symm
    (h.isInert_of_said (Or.inl rfl)) (h.isInert_of_said (Or.inr rfl))
  exact List.rel_append (SameText.refl k)
    (.cons (Or.inl rfl) (List.rel_append hsaid (SameText.refl (t.quote :: t.back))))

theorem sameText : SameText t.line t.redacted := h.sameText_append t.front

/-! ## Searches -/

/-- A search by a test that needs a bracket or the like finds nothing in the content. -/
theorem anyTail {test : Line → Bool} (htest : Blind t.quote test)
    (hneeds : ∀ s, test s = true → ∃ c ∈ s, isInert c = false) :
    anyTail test t.line = Text.anyTail test t.redacted := by
  have hnone {said : Line} (hsaid : t.Says said) : Text.anyTail test said = false := by
    refine anyTail_eq_false fun s hs => ?_
    rw [Bool.eq_false_iff]
    intro htrue
    obtain ⟨c, hc, hinert⟩ := hneeds s htrue
    exact h.not_mem hsaid hinert (hs.subset hc)
  have hfill (said : Line) : Text.anyTail test (t.redaction.fill said) =
      (Text.anyTail test t.front || (Text.anyTail test said || Text.anyTail test t.back)) := by
    rw [← htest.anyTail, ← htest.anyTail]
    rfl
  rw [line, Redaction.text, hfill, redacted, Redaction.redacted, hfill, hnone (Or.inl rfl),
    hnone (Or.inr rfl)]

theorem anyPlace {test : Option Char → Line → Bool} (htest : ∀ before, Blind t.quote (test before))
    (hneeds : ∀ before s, test before s = true → ∃ c ∈ s, isInert c = false) :
    anyPlace test none t.line = BranchTally.anyPlace test none t.redacted := by
  have hnone {said : Line} (hsaid : t.Says said) (before : Option Char) :
      BranchTally.anyPlace test before said = false := by
    refine anyPlace_eq_false (fun before s hs => ?_) before
    rw [Bool.eq_false_iff]
    intro htrue
    obtain ⟨c, hc, hinert⟩ := hneeds before s htrue
    exact h.not_mem hsaid hinert (hs.subset hc)
  have hfill (said : Line) : BranchTally.anyPlace test none (t.redaction.fill said) =
      (BranchTally.anyPlace test none t.front || (BranchTally.anyPlace test (some t.quote) said ||
        BranchTally.anyPlace test (some t.quote) t.back)) := by
    rw [← Blind.anyPlace htest, ← Blind.anyPlace htest]
    rfl
  rw [line, Redaction.text, hfill, redacted, Redaction.redacted, hfill, hnone (Or.inl rfl),
    hnone (Or.inr rfl)]

/-! ## Operators -/

theorem isBooleanAssignment : isBooleanAssignment t.line = BranchTally.isBooleanAssignment t.redacted := by
  obtain ⟨value, hline, hredacted⟩ := t.exists_declaredValue?
  rw [BranchTally.isBooleanAssignment, BranchTally.isBooleanAssignment, hline, hredacted]
  cases value with
  | none => rfl
  | some value =>
    have hskip (said : Line) :
        skipBlanks (value ++ t.quoted said) = skipBlanks value ++ t.quoted said :=
      skipBlanks_append_guard isGuard_quote _ _
    have hfirst : SameText (firstLine (skipBlanks value ++ t.quoted t.content))
        (firstLine (skipBlanks value ++ t.quoted t.redaction.filler)) :=
      (h.sameText_append _).takeWhile_ne (by decide)
    simpa only [Option.map_some, Option.any_some, hskip] using hfirst.hasLogicalPair

theorem hasElseIf : hasElseIf t.line = BranchTally.hasElseIf t.redacted := by
  have hform : elseIfForm ∈ keywordForms := by simp [keywordForms]
  have hstops := elseIfForm_stopsAt t.redaction.isGuard_guard
  obtain ⟨found, -, hfound⟩ := headersFrom_append_guard hstops none 0 t.front
  have hsaid {said : Line} (hquoted : t.Says said) : headersFrom elseIfForm none 0 (t.redaction.fill said) =
      found ++ headersFrom elseIfForm none (0 + t.front.length + 1 + t.content.length)
        t.redaction.behind := by
    have hhidden (i : Nat) (before : Option Char) :
        elseIfForm before (said.drop i ++ t.redaction.behind) = none := by
      rw [Option.eq_none_iff_forall_ne_some]
      intro tail htail
      have hseen := hstops.bracket before (said.drop i) t.back (Option.isSome_iff_exists.2 ⟨tail, htail⟩)
      rcases hseen with hmem | hmem
      · exact h.not_mem hquoted (by decide) (List.mem_of_mem_drop hmem)
      · exact h.not_mem hquoted (by decide) (List.mem_of_mem_drop hmem)
    have hrest := Redaction.filter_headersFrom_hidden hform (fun _ => true) (0 + t.front.length + 1)
      (fun i _ => Or.inr (hhidden i)) (some t.quote)
    simp only [List.filter_true, hquoted.length_eq] at hrest
    exact (hfound _).trans (congrArg (found ++ ·) hrest)
  have hline := hsaid (Or.inl rfl)
  have hredacted := hsaid (Or.inr rfl)
  rw [BranchTally.hasElseIf, BranchTally.hasElseIf, line, Redaction.text, hline, redacted,
    Redaction.redacted, hredacted]

theorem sameOperators : SameOperators t.line t.redacted where
  pair := h.sameText.hasLogicalPair
  braced := h.sameText.hasBracedPair
  parenthesised := h.sameText.hasParenthesisedPair
  brace := h.sameText.contains (by decide)
  endBrace := h.sameText.contains (by decide)
  semicolon := h.sameText.contains (by decide)
  returns := blind (blind_isReturn isGuard_quote)
  booleanAssignment := h.isBooleanAssignment
  conditionStart := by
    have hopens {word : List Char} (hword : ∀ c ∈ word, isWord c = true) :
        opensWith word t.line = opensWith word t.redacted :=
      blind (blind_opensWith isGuard_quote hword)
    have hif : ∀ c ∈ ['i', 'f'], isWord c = true := forall_mem_of_all (by decide)
    have hwhile : ∀ c ∈ ['w', 'h', 'i', 'l', 'e'], isWord c = true := forall_mem_of_all (by decide)
    have hfor : ∀ c ∈ ['f', 'o', 'r'], isWord c = true := forall_mem_of_all (by decide)
    simp only [isConditionStart, h.hasElseIf, hopens hif, hopens hwhile, hopens hfor]

end Inert

end Quotation

end BranchTally
