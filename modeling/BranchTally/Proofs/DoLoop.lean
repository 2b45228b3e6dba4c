-- SUMMARY: A printed do loop is always reported once as such, and its tail passes for a while loop unless a line break stands before the closing brace.
import Mathlib
import BranchTally.Proofs.CommentSpans
import BranchTally.Proofs.Header
import BranchTally.Proofs.HeaderLines
import BranchTally.Proofs.Keyword
import BranchTally.Proofs.PlainLine

/-!
# `do` loops

A `do` loop is counted at its `do`. Its tail has a `while` of its own, which is told from the header of a
`while` loop by the text in front of it on its line: the closing brace must be the first thing there. So
the loop counts once where the brace opens a line, and twice where code stands in front of the brace.
-/

namespace BranchTally

open Text

/-! ## Printed loops -/

/-- What stands in front of the body of a `do` loop. -/
def doOpening : Line := ['d', 'o', ' ', '{']

/-- What stands behind the body of a `do` loop that goes on while the name holds. -/
def doClosing (condition : Identifier) : Line :=
  ['}', ' ', 'w', 'h', 'i', 'l', 'e', ' ', '('] ++ (condition.text ++ [')', ';'])

/-- A `do` loop as it is printed: the text between its braces, with all its blanks and line breaks, and
the name that its tail tests. The body has no strings, comments and loops with `do` or `while`, and no
line of it begins with a star, as no statement does. -/
structure DoLoop where
  body : Line
  condition : Identifier
  unquoted : ∀ c ∈ body, isQuote c = false
  uncommented : Uncommented body
  noDo : hasKeyword ['d', 'o'] none body = false
  noWhile : hasKeyword ['w', 'h', 'i', 'l', 'e'] none body = false
  noStar : ∀ line ∈ rawLines body, (skipBlanks line).head? ≠ some '*'

/-- The loop as it is printed. -/
def DoLoop.text (loop : DoLoop) : Line := doOpening ++ (loop.body ++ doClosing loop.condition)

/-- The closing brace is the first thing on its line. -/
def DoLoop.ClosesOnNewLine (loop : DoLoop) : Prop :=
  ∃ front gap, loop.body = front ++ '\n' :: gap ∧ ∀ c ∈ gap, isBlank c = true

/-- Some function holds all lines of the source. -/
def BoundaryMap.Covers (m : BoundaryMap) (source : List Char) : Prop :=
  ∃ f ∈ m.owners, f.boundary.start ≤ 1 ∧ (splitLines source).length ≤ f.boundary.stop

/-! ## The tail of a loop -/

section

variable {condition : Identifier} {x : Line}

theorem not_isQuote_of_mem_doClosing : ∀ c ∈ doClosing condition, isQuote c = false := by
  have hfront : ∀ c ∈ ['}', ' ', 'w', 'h', 'i', 'l', 'e', ' ', '('], isQuote c = false :=
    forall_mem_of_all (by decide)
  have hback : ∀ c ∈ [')', ';'], isQuote c = false := forall_mem_of_all (by decide)
  intro c hc
  rw [doClosing, List.mem_append, List.mem_append] at hc
  rcases hc with hc | hc | hc
  · exact hfront c hc
  · have hne (d : Char) (hd : isNameChar d = false) : c ≠ d :=
      ne_of_isNameChar (condition.nameChars c hc) hd
    simp [isQuote, hne '\'' (by decide), hne '"' (by decide), hne '\x60' (by decide)]
  · exact hback c hc

theorem not_mem_doClosing {c : Char} (hname : isNameChar c = false)
    (hc : c ∉ ['}', ' ', 'w', 'h', 'i', 'l', 'e', ' ', '('] ++ [')', ';']) :
    c ∉ doClosing condition := by
  rw [doClosing, List.mem_append, List.mem_append]
  rintro (h | h | h)
  · exact hc (List.mem_append_left _ h)
  · exact condition.not_mem hname h
  · exact hc (List.mem_append_right _ h)

/-- The tail of a loop has no `do`. -/
theorem headersFrom_doForm_doClosing (before : Option Char) (pos : Nat) :
    headersFrom doForm before pos (doClosing condition) = [] := by
  have hname := @hasKeyword_name_append ['d', 'o'] (some '(') condition ')' (by decide) (by decide)
    [';', ' ']
  refine doForm_reads.headersFrom_eq_nil (by decide : endsKeyword ' ' = true) ?_ pos
  rw [doClosing, List.append_assoc, List.append_assoc]
  simpa [hasKeyword, opensKeyword, literal?, List.isPrefixOf?] using hname

/-- The tail of a loop has a `while`. -/
theorem exists_headersFrom_whileForm_doClosing (before : Option Char) (pos : Nat) :
    ∃ parens more, headersFrom whileForm before pos (doClosing condition) =
      (pos + 2, parens) :: more := by
  have hbrace (rest : Line) : whileForm before ('}' :: rest) = none := by
    simp [whileForm, parenForm, literal?, List.isPrefixOf?]
  rw [doClosing, List.cons_append, headersFrom, hbrace]
  exact ⟨_, _, rfl⟩

/-- No `while` is read behind the brace in a text that has none and goes on with the tail of a loop. -/
theorem literal?_while_append_doClosing
    (hx : hasKeyword ['w', 'h', 'i', 'l', 'e'] none (skipBlanks x) = false) :
    (literal? ['w', 'h', 'i', 'l', 'e'] (skipBlanks (x ++ doClosing condition))).bind
      (spacedChar? '(') = none := by
  cases hskip : skipBlanks x with
  | nil =>
    rw [skipBlanks_append (blank_of_skipBlanks_eq_nil hskip)]
    rfl
  | cons c rest =>
    rw [skipBlanks_append_of_eq_cons hskip]
    rw [hskip, hasKeyword, Bool.or_eq_false_iff] at hx
    rw [Option.eq_none_iff_forall_ne_some]
    intro tail htail
    have hform : whileForm none (c :: rest ++ doClosing condition) = some ⟨tail, true⟩ := by
      have hnone : mayOpenKeyword none = true := by decide
      rw [whileForm, parenForm, if_pos hnone, htail]
      rfl
    have hopens := whileForm_reads hform (by decide : endsKeyword ' ' = true)
    obtain ⟨more, hmore⟩ : ∃ more, doClosing condition = '}' :: more := ⟨_, rfl⟩
    have hcut := @opensKeyword_append_cons ['w', 'h', 'i', 'l', 'e'] none '}' (by decide) (by decide)
      (c :: rest) (more ++ [' '])
    rw [List.append_assoc, hmore] at hopens
    exact Bool.false_ne_true (hx.1.symm.trans (hcut.symm.trans hopens))

/-- The text in front of the tail of a loop is blank where the tail opens its line. -/
theorem isDoTail_append_doClosing (hx : hasKeyword ['w', 'h', 'i', 'l', 'e'] none x = false) :
    isDoTail (x ++ doClosing condition) = true ↔ ∀ c ∈ x, isBlank c = true := by
  constructor
  · intro h
    cases hskip : skipBlanks x with
    | nil => exact blank_of_skipBlanks_eq_nil hskip
    | cons c rest =>
      rw [isDoTail, spacedChar?, skipBlanks_append_of_eq_cons hskip, List.cons_append, char?] at h
      split at h
      · next hbrace =>
        have hrest : hasKeyword ['w', 'h', 'i', 'l', 'e'] none (skipBlanks rest) = false := by
          obtain ⟨gap, hgap, -⟩ := exists_blanks_append x
          obtain ⟨gap', hgap', hblank⟩ := exists_blanks_append rest
          rw [hgap, hskip] at hx
          have hbehind := hasKeyword_of_append_cons hx
          rw [hbrace, hgap'] at hbehind
          exact hasKeyword_of_blanks_append hblank (by decide) hbehind
        simp [literal?_while_append_doClosing hrest] at h
      · simp at h
  · intro hblank
    rw [isDoTail, spacedChar?, skipBlanks_append hblank]
    rfl

/-! ## Headers of the lines -/

/-- The tail of a loop opens a `while` loop where code stands in front of it. -/
theorem opens_whileLoop_append_doClosing
    (hquotes : ∀ c ∈ x ++ doClosing condition, isQuote c = false)
    (hcomments : Uncommented (x ++ doClosing condition))
    (hx : hasKeyword ['w', 'h', 'i', 'l', 'e'] none x = false) :
    (Headers.of (x ++ doClosing condition)).opens .whileLoop = true ↔ ¬ ∀ c ∈ x, isBlank c = true := by
  have hopens : (Headers.of (x ++ doClosing condition)).opens .whileLoop =
      (if isDoTail (x ++ doClosing condition) then none else header? whileForm (fun _ => false)
        (LiveMap.of (x ++ doClosing condition)) (x ++ doClosing condition)).isSome := rfl
  rw [hopens, ← isDoTail_append_doClosing hx]
  cases htail : isDoTail (x ++ doClosing condition) with
  | true => simp
  | false =>
    obtain ⟨rest, hrest⟩ : ∃ rest, doClosing condition = '}' :: rest := ⟨_, rfl⟩
    obtain ⟨parens, more, hmore⟩ :=
      @exists_headersFrom_whileForm_doClosing condition (x.getLast?.or none) (0 + x.length)
    have hheaders := whileForm_reads.headersFrom_append_cons
      (by decide : '}' ∉ ['w', 'h', 'i', 'l', 'e']) (by decide) hx 0 rest
    have hmem : (0 + x.length + 2, parens) ∈ headersFrom whileForm none 0 (x ++ doClosing condition) := by
      rw [hrest, hheaders, ← hrest, hmore]
      exact List.mem_cons_self
    have hlive : (LiveMap.of (x ++ doClosing condition)).isLive (0 + x.length + 2) = true := by
      refine isLive_of_unquoted hquotes hcomments ?_
      rw [List.length_append, doClosing, List.length_append]
      simp only [List.length_cons, List.length_nil]
      omega
    simpa using isSome_header?_of_mem hmem hlive

theorem opens_doWhile_doOpening_append (hquotes : ∀ c ∈ doOpening ++ x, isQuote c = false)
    (hcomments : Uncommented (doOpening ++ x)) :
    (Headers.of (doOpening ++ x)).opens .doWhile = true := by
  have hmem : (0, none) ∈ headersFrom doForm none 0 (doOpening ++ x) := List.mem_cons_self
  exact isSome_header?_of_mem hmem (isLive_of_unquoted hquotes hcomments (Nat.succ_pos _))

theorem opens_doWhile_of_headersFrom_eq_nil (h : headersFrom doForm none 0 x = []) :
    (Headers.of x).opens .doWhile = false := by
  change (header? doForm (fun _ => false) (LiveMap.of x) x).isSome = false
  rw [header?_of_nil h]
  rfl

theorem opens_whileLoop_of_headersFrom_eq_nil (h : headersFrom whileForm none 0 x = []) :
    (Headers.of x).opens .whileLoop = false := by
  change (if isDoTail x then none else header? whileForm (fun _ => false) (LiveMap.of x) x).isSome = false
  rw [header?_of_nil h, ite_self]
  rfl

/-- The tail of a loop opens no `do` loop, behind text without one. -/
theorem opens_doWhile_append_doClosing (hx : hasKeyword ['d', 'o'] none x = false) :
    (Headers.of (x ++ doClosing condition)).opens .doWhile = false := by
  obtain ⟨rest, hrest⟩ : ∃ rest, doClosing condition = '}' :: rest := ⟨_, rfl⟩
  have hheaders := doForm_reads.headersFrom_append_cons (by decide : '}' ∉ ['d', 'o']) (by decide) hx 0 rest
  rw [← hrest, headersFrom_doForm_doClosing] at hheaders
  exact opens_doWhile_of_headersFrom_eq_nil hheaders

theorem hasKeyword_while_doOpening_append (text : Line) :
    hasKeyword ['w', 'h', 'i', 'l', 'e'] none (doOpening ++ text) =
      hasKeyword ['w', 'h', 'i', 'l', 'e'] none text := by
  have hbrace : hasKeyword ['w', 'h', 'i', 'l', 'e'] (some '{') text =
      hasKeyword ['w', 'h', 'i', 'l', 'e'] none text := hasKeyword_congr (by decide) text
  rw [← hbrace]
  simp [doOpening, hasKeyword, opensKeyword, literal?, List.isPrefixOf?]

end

/-! ## The lines of a loop -/

namespace DoLoop

variable (loop : DoLoop)

theorem not_isQuote_of_mem_text : ∀ c ∈ loop.text, isQuote c = false := by
  have hopening : ∀ c ∈ doOpening, isQuote c = false := forall_mem_of_all (by decide)
  intro c hc
  rcases List.mem_append.1 hc with hc | hc
  · exact hopening c hc
  · rcases List.mem_append.1 hc with hc | hc
    · exact loop.unquoted c hc
    · exact not_isQuote_of_mem_doClosing c hc

theorem uncommented_text : Uncommented loop.text := by
  have hslash : '/' ∉ doClosing loop.condition := not_mem_doClosing (by decide) (by decide)
  have hclosing : ∀ c ∈ (doClosing loop.condition).head?, c ≠ '/' ∧ c ≠ '*' := by
    intro c hc
    obtain rfl : '}' = c := Option.some.inj hc
    decide
  have hbody := loop.uncommented.append (uncommented_of_not_mem hslash) hclosing
  -- in front of the body stands a brace
  refine List.isChain_append.2 ⟨by decide, hbody, fun c hc d _ hsign => ?_⟩
  obtain rfl : '{' = c := Option.some.inj hc
  exact absurd hsign.1 (by decide)

/-- No line of the loop has quotes or comments. -/
theorem live_of_mem_splitLines {line : Line} (h : line ∈ splitLines loop.text) :
    (∀ c ∈ line, isQuote c = false) ∧ Uncommented line :=
  have hpart := infix_of_mem_splitLines h
  ⟨fun c hc => loop.not_isQuote_of_mem_text c (hpart.subset hc),
    List.IsChain.infix loop.uncommented_text hpart⟩

/-- The lines of the loop: those of its body, the first with the opening of the loop in front and the
last with its tail behind. -/
theorem exists_splitLines_text : ∃ (front : List Line) (last : Line),
    loop.body = front.flatMap (· ++ ['\n']) ++ last ∧ '\n' ∉ last ∧ (∀ line ∈ front, '\n' ∉ line) ∧
      splitLines loop.text = (front.map dropReturns ++ [last ++ doClosing loop.condition]).modifyHead
        (doOpening ++ ·) := by
  obtain ⟨front, last, hfront, hlast, hbody⟩ := exists_lines loop.body
  refine ⟨front, last, hbody, hlast, hfront, ?_⟩
  have hclosing : '\n' ∉ last ++ doClosing loop.condition :=
    fun h => (List.mem_append.1 h).elim hlast (not_mem_doClosing (by decide) (by decide))
  have hend (text : Line) : dropReturns (text ++ doClosing loop.condition) =
      text ++ doClosing loop.condition :=
    dropReturns_of_getLast? (by
      rw [doClosing, ← List.append_assoc, ← List.append_assoc, List.getLast?_append]
      simp)
  have hopening : dropReturns doOpening = doOpening := by decide
  have htext : loop.text = doOpening ++ (front.flatMap (· ++ ['\n']) ++
      (last ++ doClosing loop.condition)) := by
    rw [text, hbody, List.append_assoc]
  rw [htext, splitLines_append (forall_mem_of_all (by decide)), splitLines,
    rawLines_flatMap_append hfront hclosing, List.map_append, List.map_singleton, hend]

/-- The closing brace opens its line where the last line of the body is blank. -/
theorem closesOnNewLine_iff {front : List Line} {last : Line}
    (hbody : loop.body = front.flatMap (· ++ ['\n']) ++ last) (hlast : '\n' ∉ last) :
    loop.ClosesOnNewLine ↔ front ≠ [] ∧ ∀ c ∈ last, isBlank c = true := by
  constructor
  · rintro ⟨text, gap, htext, hgap⟩
    rw [hbody, List.append_cons] at htext
    rcases List.append_eq_append_iff.1 htext with ⟨more, hmore, rfl⟩ | ⟨more, hmore, rfl⟩
    · -- the last line would hold the line break
      have hnone : more = [] := by
        cases hend : more.getLast? with
        | none => exact List.getLast?_eq_none_iff.1 hend
        | some c =>
          have hbreak := congrArg List.getLast? hmore
          rw [List.getLast?_append, List.getLast?_append, hend] at hbreak
          obtain rfl : '\n' = c := Option.some.inj hbreak
          exact absurd (List.mem_append_left _ (List.mem_of_getLast? hend)) hlast
      refine ⟨?_, fun c hc => hgap c (by simpa [hnone] using hc)⟩
      rintro rfl
      simp [hnone] at hmore
    · refine ⟨?_, fun c hc => hgap c (List.mem_append_right _ hc)⟩
      rintro rfl
      simp at hmore
  · rintro ⟨hfront, hblank⟩
    obtain ⟨above, line, rfl⟩ := List.eq_nil_or_concat front |>.resolve_left hfront
    exact ⟨above.flatMap (· ++ ['\n']) ++ line, last, by simp [hbody], hblank⟩

/-- On the first line the loop opens, and on no other one. -/
theorem exists_first_line : ∃ x below, splitLines loop.text = (doOpening ++ x) :: below ∧
    ∀ other ∈ below, (Headers.of other).opens .doWhile = false := by
  obtain ⟨front, last, hbody, hlast, hfront, hlines⟩ := loop.exists_splitLines_text
  obtain ⟨hbreaks, hkeyword⟩ := hasKeyword_lines (hbody ▸ loop.noDo)
  cases front with
  | nil => exact ⟨last ++ doClosing loop.condition, [], hlines, by simp⟩
  | cons first mid =>
    refine ⟨dropReturns first, mid.map dropReturns ++ [last ++ doClosing loop.condition], hlines, ?_⟩
    intro other hother
    rcases List.mem_append.1 hother with hother | hother
    · obtain ⟨raw, hraw, rfl⟩ := List.mem_map.1 hother
      obtain ⟨c, hc, hnone⟩ := hasKeyword_dropReturns (hbreaks raw (List.mem_cons_of_mem _ hraw))
      exact opens_doWhile_of_headersFrom_eq_nil (doForm_reads.headersFrom_eq_nil hc hnone 0)
    · obtain rfl := List.mem_singleton.1 hother
      exact opens_doWhile_append_doClosing hkeyword

/-- On the last line the loop closes, and no line above has a `while`. -/
theorem exists_last_line : ∃ above x, splitLines loop.text = above ++ [x ++ doClosing loop.condition] ∧
    (∀ other ∈ above, (Headers.of other).opens .whileLoop = false) ∧
    hasKeyword ['w', 'h', 'i', 'l', 'e'] none x = false ∧ (skipBlanks x).head? ≠ some '*' ∧
    ((∀ c ∈ x, isBlank c = true) ↔ loop.ClosesOnNewLine) := by
  obtain ⟨front, last, hbody, hlast, hfront, hlines⟩ := loop.exists_splitLines_text
  obtain ⟨hbreaks, hkeyword⟩ := hasKeyword_lines (hbody ▸ loop.noWhile)
  have hcloses := loop.closesOnNewLine_iff hbody hlast
  cases front with
  | nil =>
    have hopening : ¬ ∀ c ∈ doOpening ++ last, isBlank c = true :=
      fun h => Bool.false_ne_true (h 'd' List.mem_cons_self)
    refine ⟨[], doOpening ++ last, ?_, by simp, ?_, ?_, ?_⟩
    · rw [hlines]
      simp
    · rwa [hasKeyword_while_doOpening_append]
    · rw [doOpening, List.cons_append, skipBlanks_cons_of_not_isBlank (by decide)]
      simp
    · rw [hcloses]
      exact iff_of_false hopening fun h => h.1 rfl
  | cons first mid =>
    refine ⟨(doOpening ++ dropReturns first) :: mid.map dropReturns, last, hlines, ?_, hkeyword, ?_, ?_⟩
    · intro other hother
      rcases List.mem_cons.1 hother with rfl | hother
      · obtain ⟨c, hc, hnone⟩ := hasKeyword_dropReturns (hbreaks first List.mem_cons_self)
        rw [← hasKeyword_while_doOpening_append, ← List.append_assoc] at hnone
        exact opens_whileLoop_of_headersFrom_eq_nil (whileForm_reads.headersFrom_eq_nil hc hnone 0)
      · obtain ⟨raw, hraw, rfl⟩ := List.mem_map.1 hother
        obtain ⟨c, hc, hnone⟩ := hasKeyword_dropReturns (hbreaks raw (List.mem_cons_of_mem _ hraw))
        exact opens_whileLoop_of_headersFrom_eq_nil (whileForm_reads.headersFrom_eq_nil hc hnone 0)
    · have hmem : last ∈ rawLines loop.body := by
        rw [hbody, rawLines_flatMap_append hfront hlast]
        exact List.mem_append_right _ List.mem_cons_self
      exact loop.noStar last hmem
    · rw [hcloses]
      simp

end DoLoop

/-! ## How often a loop is counted -/

theorem BoundaryMap.Covers.innermost? {m : BoundaryMap} {source : List Char} (hm : m.Covers source)
    {number : Int} (hfirst : 1 ≤ number) (hlast : number ≤ (splitLines source).length) :
    ((Ownership.of m).innermost? number).isSome = true := by
  obtain ⟨f, hf, hstart, hstop⟩ := hm
  have hcontains : f.boundary.contains number = true := by
    simp only [Boundary.contains, Bool.and_eq_true, decide_eq_true_eq]
    omega
  exact (Ownership.innermost?_isSome_iff m number).2 ⟨f, hf, hcontains⟩

namespace DoLoop

variable (loop : DoLoop) {m : BoundaryMap}

theorem linesOf_doWhile (hm : m.Covers loop.text) :
    linesOf .doWhile (decisionPoints loop.text m) = [1] := by
  obtain ⟨x, below, hlines, hbelow⟩ := loop.exists_first_line
  have hmem : doOpening ++ x ∈ splitLines loop.text := hlines ▸ List.mem_cons_self
  obtain ⟨hquotes, hcomments⟩ := loop.live_of_mem_splitLines hmem
  have hopens := opens_doWhile_doOpening_append hquotes hcomments
  have hcode : isQuiet (doOpening ++ x) = false :=
    isQuiet_of_head (skipBlanks_cons_of_not_isBlank (by decide) _) (by decide) (by decide)
  have hinside := hm.innermost? (Int.le_refl 1) (by rw [hlines, List.length_cons]; omega)
  have hfirst : splitLines loop.text = [] ++ (doOpening ++ x) :: below := hlines
  have hnumber : (1 : Int) + ([] : List Line).length = 1 := rfl
  rw [linesOf_decisionPoints_of_line m rfl hfirst (by simp) hbelow, hnumber, hcode, hinside, hopens]
  rfl

theorem linesOf_whileLoop (hm : m.Covers loop.text) :
    (loop.ClosesOnNewLine → linesOf .whileLoop (decisionPoints loop.text m) = []) ∧
      (¬ loop.ClosesOnNewLine →
        linesOf .whileLoop (decisionPoints loop.text m) = [((splitLines loop.text).length : Int)]) := by
  obtain ⟨above, x, hlines, habove, hkeyword, hstar, hblank⟩ := loop.exists_last_line
  have hmem : x ++ doClosing loop.condition ∈ splitLines loop.text :=
    hlines ▸ List.mem_append_right _ List.mem_cons_self
  obtain ⟨hquotes, hcomments⟩ := loop.live_of_mem_splitLines hmem
  have hopens := opens_whileLoop_append_doClosing hquotes hcomments hkeyword
  have hreport := @linesOf_decisionPoints_of_line .whileLoop (x ++ doClosing loop.condition) loop.text m
    rfl above [] hlines habove (by simp)
  rw [hblank] at hopens
  constructor
  · intro hcloses
    have hsilent := Bool.eq_false_iff.2 fun h => hopens.1 h hcloses
    rw [hreport, hsilent, Bool.and_false, if_neg Bool.false_ne_true]
  · intro hcloses
    have hlength : (1 : Int) + above.length = (splitLines loop.text).length := by
      rw [hlines, List.length_append, List.length_singleton]
      omega
    have hinside := hm.innermost? (by omega : (1 : Int) ≤ 1 + above.length) (Int.le_of_eq hlength)
    have hcode : isQuiet (x ++ doClosing loop.condition) = false := by
      cases hskip : skipBlanks x with
      | nil => exact absurd (hblank.1 (blank_of_skipBlanks_eq_nil hskip)) hcloses
      | cons c rest =>
        refine isQuiet_of_uncommented (skipBlanks_append_of_eq_cons hskip _) hcomments ?_
        rintro rfl
        exact hstar (by rw [hskip]; rfl)
    rw [hreport, hcode, hinside, hopens.2 hcloses, hlength]
    rfl

/-- A `do` loop inside a function is reported at its `do`, once. Its tail is not reported where the
closing brace is the first thing on its line, and passes for a `while` loop on that line otherwise. -/
theorem counted_once_iff_closesOnNewLine (hm : m.Covers loop.text) :
    linesOf .doWhile (decisionPoints loop.text m) = [1] ∧
      (linesOf .whileLoop (decisionPoints loop.text m) = [] ↔ loop.ClosesOnNewLine) ∧
      (¬ loop.ClosesOnNewLine →
        linesOf .whileLoop (decisionPoints loop.text m) = [((splitLines loop.text).length : Int)]) := by
  obtain ⟨hsilent, hreported⟩ := loop.linesOf_whileLoop hm
  refine ⟨loop.linesOf_doWhile hm, ⟨fun hnone => ?_, hsilent⟩, hreported⟩
  by_contra hcloses
  rw [hreported hcloses] at hnone
  exact List.cons_ne_nil _ _ hnone

/-- A loop over three lines. -/
theorem counted_once_iff_closesOnNewLine_three_lines :
    ∃ loop : DoLoop, loop.text = "do \x7b\n  x();\n\x7d while (c);".toList ∧
      let m := BoundaryMap.single 1 ⟨1, 3, by decide⟩
      m.Covers loop.text ∧ loop.ClosesOnNewLine ∧
        linesOf .doWhile (decisionPoints loop.text m) = [1] ∧
        linesOf .whileLoop (decisionPoints loop.text m) = [] := by
  let loop : DoLoop :=
    { body := ['\n', ' ', ' ', 'x', '(', ')', ';', '\n']
      condition := ⟨['c'], by decide, forall_mem_of_all (by decide)⟩
      unquoted := forall_mem_of_all (by decide)
      uncommented := by decide
      noDo := by decide
      noWhile := by decide
      noStar := by decide }
  have hcovers : (BoundaryMap.single 1 ⟨1, 3, by decide⟩).Covers loop.text :=
    ⟨_, List.mem_cons_self, by decide, by decide⟩
  have hcloses : loop.ClosesOnNewLine := 
    ⟨['\n', ' ', ' ', 'x', '(', ')', ';'], [], rfl, by simp⟩
  obtain ⟨hdo, hwhile, -⟩ := counted_once_iff_closesOnNewLine loop hcovers
  exact ⟨loop, by decide, hcovers, hcloses, hdo, hwhile.2 hcloses⟩

/-- A loop on one line is reported as a `while` loop too. -/
theorem counted_twice_on_one_line :
    ∃ loop : DoLoop, loop.text = "do \x7b x(); \x7d while (c);".toList ∧
      let m := BoundaryMap.single 1 ⟨1, 1, by decide⟩
      m.Covers loop.text ∧ linesOf .doWhile (decisionPoints loop.text m) = [1] ∧
        linesOf .whileLoop (decisionPoints loop.text m) = [1] := by
  let loop : DoLoop :=
    { body := [' ', 'x', '(', ')', ';', ' ']
      condition := ⟨['c'], by decide, forall_mem_of_all (by decide)⟩
      unquoted := forall_mem_of_all (by decide)
      uncommented := by decide
      noDo := by decide
      noWhile := by decide
      noStar := by decide }
  have hcovers : (BoundaryMap.single 1 ⟨1, 1, by decide⟩).Covers loop.text :=
    ⟨_, List.mem_cons_self, by decide, by decide⟩
  have hcloses : ¬ loop.ClosesOnNewLine := by
    rintro ⟨front, gap, hbody, -⟩
    have hbreak : '\n' ∈ loop.body := hbody ▸ List.mem_append_right _ List.mem_cons_self
    revert hbreak
    decide
  exact ⟨loop, by decide, hcovers, loop.linesOf_doWhile hcovers, (loop.linesOf_whileLoop hcovers).2 hcloses⟩

end DoLoop

end BranchTally
