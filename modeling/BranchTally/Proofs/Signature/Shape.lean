-- SUMMARY: No test that excludes defaults takes a line of printed parameters for something else, save the one for plain assignments.
import BranchTally.Parameter.Points
import BranchTally.Proofs.Signature.Defaults

/-!
# Shapes of signature lines

A line of a printed signature begins with `function` or with the name of a parameter. After such a
name comes an equals sign, a comma, a parenthesis or the end of the line, and behind every equals sign
a number.
-/

namespace BranchTally

open Text

/-! ## Absent characters -/

theorem anyPlace_eq_false {test : Option Char → List Char → Bool} {s : List Char}
    (h : ∀ before t, t <:+ s → test before t = false) (before : Option Char) :
    anyPlace test before s = false := by
  induction s generalizing before with
  | nil => exact h before [] (List.suffix_refl _)
  | cons c s ih =>
    rw [anyPlace, h before _ (List.suffix_refl _), Bool.false_or]
    exact ih (fun b t ht => h b t (ht.trans (List.suffix_cons _ _))) (some c)

theorem hasDependencyArray_of_not_mem {line : Line} (h : '}' ∉ line) :
    hasDependencyArray line = false := by
  refine anyTail_eq_false fun t ht => ?_
  have hnone : char? '}' t = none := by
    rw [Option.eq_none_iff_forall_ne_some]
    intro rest hrest
    rw [char?_eq_some_iff] at hrest
    exact h (ht.subset (hrest ▸ List.mem_cons_self))
  simp [hnone]

theorem Parameter.not_mem_text (p : Parameter) {c : Char} (hname : isNameChar c = false)
    (hblank : isBlank c = false) (hstart : startsNumeral c = false)
    (hnumeral : isNumeralChar c = false) (hequals : c ≠ '=') : c ∉ p.text := by
  intro hmem
  rcases List.mem_append.1 hmem with hmem | hmem
  · exact p.name.not_mem hname hmem
  · cases hdefault : p.default with
    | none => simp [defaultText, hdefault] at hmem
    | some d =>
      simp only [defaultText, hdefault, Option.map_some, Option.getD_some, ParameterDefault.text,
        List.mem_append, List.mem_cons] at hmem
      rcases hmem with hmem | rfl | hmem | hmem
      · exact d.before.not_mem hblank hmem
      · exact hequals rfl
      · exact d.after.not_mem hblank hmem
      · exact d.literal.not_mem hstart hnumeral hmem

/-- A character of a parameter line. -/
def isParameterChar (c : Char) : Bool :=
  isNameChar c || isBlank c || startsNumeral c || isNumeralChar c || c = '=' || c = ','

theorem ParameterLine.not_mem_text (line : ParameterLine) {c : Char} (hc : isParameterChar c = false) :
    c ∉ line.text := by
  simp only [isParameterChar, Bool.or_eq_false_iff, decide_eq_false_iff_not] at hc
  obtain ⟨⟨⟨⟨⟨hname, hblank⟩, hstart⟩, hnumeral⟩, hequals⟩, hcomma⟩ := hc
  intro hmem
  rcases List.mem_append.1 hmem with hmem | hmem
  · obtain ⟨p, -, hmem⟩ := List.mem_flatMap.1 hmem
    rcases List.mem_append.1 hmem with hmem | hmem
    · exact p.gap.not_mem hblank hmem
    · rcases List.mem_append.1 hmem with hmem | hmem
      · exact p.parameter.not_mem_text hname hblank hstart hnumeral hequals hmem
      · cases hp : p.comma with
        | none => simp [PrintedParameter.commaText, hp] at hmem
        | some g =>
          simp only [PrintedParameter.commaText, hp, Option.map_some, Option.getD_some,
            List.mem_append, List.mem_singleton] at hmem
          rcases hmem with hmem | rfl
          · exact g.not_mem hblank hmem
          · exact hcomma rfl
  · exact line.tail.not_mem hblank hmem

/-- A character that only the opening of a signature has. -/
theorem SignatureOpening.not_mem_text (o : SignatureOpening) {c : Char}
    (hname : isNameChar c = false) (hblank : isBlank c = false) (hparen : c ≠ '(') :
    c ∉ o.text := by
  have hword : ∀ d ∈ functionWord, isNameChar d = true := forall_mem_of_all (by decide)
  simp only [text, List.mem_append, List.mem_singleton]
  rintro (hmem | hmem | hmem | hmem | hmem | rfl)
  · exact o.indent.not_mem hblank hmem
  · exact Bool.false_ne_true (hname.symm.trans (hword c hmem))
  · exact o.gap.not_mem hblank hmem
  · exact o.name.not_mem hname hmem
  · exact o.tail.not_mem hblank hmem
  · exact hparen rfl

/-! ## Behind equals signs -/

/-- Behind every equals sign of the text comes a number. -/
def EqualsLeadToNumbers (s : Line) : Prop :=
  ∀ u v, s = u ++ '=' :: v → ∃ c, (skipBlanks v).head? = some c ∧ startsNumeral c = true

namespace EqualsLeadToNumbers

theorem append {u s : Line} (hu : '=' ∉ u) (hs : EqualsLeadToNumbers s) :
    EqualsLeadToNumbers (u ++ s) := by
  intro v w h
  rcases List.append_eq_append_iff.1 h with ⟨x, rfl, hs'⟩ | ⟨x, rfl, hx⟩
  · exact hs x w hs'
  · cases x with
    | nil => exact hs [] w hx.symm
    | cons c x =>
      obtain ⟨rfl, -⟩ := List.cons.inj hx
      exact absurd (by simp) hu

theorem of_not_mem {s : Line} (h : '=' ∉ s) : EqualsLeadToNumbers s := by
  rintro u v rfl
  exact absurd (by simp) h

theorem defaultText {p : Parameter} {s : Line} (hs : EqualsLeadToNumbers s) :
    EqualsLeadToNumbers (p.defaultText ++ s) := by
  cases hdefault : p.default with
  | none => simpa [Parameter.defaultText, hdefault] using hs
  | some d =>
    have htext : p.defaultText ++ s =
        d.before.text ++ '=' :: (d.after.text ++ (d.literal.text ++ s)) := by
      simp [Parameter.defaultText, hdefault, ParameterDefault.text]
    rw [htext]
    refine append (d.before.not_mem (by decide)) fun u v h => ?_
    cases u with
    | nil =>
      obtain ⟨-, rfl⟩ := List.cons.inj h
      refine ⟨d.literal.first, ?_, d.literal.startsNumeral_first⟩
      have hblank : isBlank d.literal.first = false := by
        rw [Bool.eq_false_iff]
        intro hb
        have hstart := d.literal.startsNumeral_first
        simp only [startsNumeral, Bool.or_eq_true, decide_eq_true_eq] at hstart
        rcases hstart with hdigit | hpoint
        · have hword := isWord_of_isDecimal (isDecimal_of_isLatinDigit hdigit)
          exact Bool.false_ne_true ((isWord_of_isBlank hb).symm.trans hword)
        · rw [hpoint] at hb
          exact absurd hb (by decide)
      rw [skipBlanks_append d.after.blank, DecimalLiteral.text, List.cons_append,
        skipBlanks_cons_of_not_isBlank hblank]
      rfl
    | cons c u =>
      obtain ⟨-, h⟩ := List.cons.inj h
      have hafter : EqualsLeadToNumbers (d.after.text ++ (d.literal.text ++ s)) :=
        append (d.after.not_mem (by decide)) (append (d.literal.not_mem (by decide) (by decide)) hs)
      exact hafter u v h

theorem text (line : ParameterLine) {s : Line} (hs : EqualsLeadToNumbers s) :
    EqualsLeadToNumbers (line.text ++ s) := by
  obtain ⟨parameters, tail⟩ := line
  induction parameters with
  | nil => exact append (tail.not_mem (by decide)) hs
  | cons p parameters ih =>
    rw [ParameterLine.text_cons, Parameter.text, List.append_assoc, List.append_assoc,
      List.append_assoc, List.append_assoc]
    refine append (p.gap.not_mem (by decide)) (append (p.parameter.name.not_mem (by decide)) ?_)
    refine defaultText (append ?_ ih)
    cases hcomma : p.comma with
    | none => simp [PrintedParameter.commaText, hcomma]
    | some g =>
      simp [PrintedParameter.commaText, hcomma, g.not_mem (by decide : isBlank '=' = false)]

theorem openingText (o : SignatureOpening) {s : Line} (hs : EqualsLeadToNumbers s) :
    EqualsLeadToNumbers (o.text ++ s) :=
  append (o.not_mem_text (by decide) (by decide) (by decide)) hs

/-- No equals sign begins an arrow. -/
theorem hasArrow_eq_false {line : Line} (h : EqualsLeadToNumbers line) : hasArrow line = false := by
  refine anyTail_eq_false fun t ht => ?_
  rw [Bool.eq_false_iff]
  intro hprefix
  obtain ⟨rest, rfl⟩ := List.isPrefixOf_iff_prefix.1 hprefix
  obtain ⟨u, hu⟩ := ht
  obtain ⟨c, hc, hstart⟩ := h u ('>' :: rest) hu.symm
  rw [skipBlanks_cons_of_not_isBlank (by decide)] at hc
  obtain rfl : '>' = c := Option.some.inj hc
  exact absurd hstart (by decide)

/-- No equals sign leads to a quote or a brace, as that of an attribute does. -/
theorem hasAttribute_eq_false {line : Line} (h : EqualsLeadToNumbers line) :
    hasAttribute line = false := by
  refine anyPlace_eq_false (fun before t ht => ?_) none
  cases hrest : (word? t).bind (spacedChar? '=') with
  | none => simp
  | some rest =>
    obtain ⟨behind, hword, hequals⟩ := Option.bind_eq_some_iff.1 hrest
    have hsuffix : '=' :: rest <:+ line :=
      ((suffix_of_spacedChar? hequals).trans (suffix_of_word? hword)).trans ht
    obtain ⟨u, hu⟩ := hsuffix
    obtain ⟨c, hc, hstart⟩ := h u rest hu.symm
    have hne (d : Char) (hd : startsNumeral d = false) : c ≠ d := by
      rintro rfl
      exact Bool.false_ne_true (hd.symm.trans hstart)
    obtain ⟨more, hmore⟩ := List.head?_eq_some_iff.1 hc
    simp [hmore, hne '"' (by decide), hne '\'' (by decide), hne '{' (by decide)]

end EqualsLeadToNumbers

/-! ## The first name of a line -/

/-- The text goes on after the name of a parameter. -/
def FollowsName (s : Line) : Prop := ∀ c ∈ (skipBlanks s).head?, c = '=' ∨ c = ',' ∨ c = ')'

namespace FollowsName

variable {name : FreeIdentifier} {s : Line}

theorem not_isNameChar (h : FollowsName s) : ∀ c ∈ s.head?, isNameChar c = false := by
  intro c hc
  cases hblank : isBlank c with
  | true => exact isNameChar_of_isBlank hblank
  | false =>
    obtain ⟨rest, rfl⟩ := List.head?_eq_some_iff.1 hc
    have hhead := h c (by rw [skipBlanks_cons_of_not_isBlank hblank]; rfl)
    rcases hhead with rfl | rfl | rfl <;> decide

theorem word?_eq_none (h : FollowsName s) : word? (skipBlanks s) = none := by
  cases hs : skipBlanks s with
  | nil => rfl
  | cons c rest =>
    have hword : isWord c = false := by
      rcases h c (by rw [hs]; rfl) with rfl | rfl | rfl <;> decide
    simp [word?, run?, hword]

theorem takeWhile_eq_nil (h : FollowsName s) :
    s.takeWhile (fun c => isWord c || c = '.') = [] := by
  cases s with
  | nil => rfl
  | cons c s =>
    have hname := h.not_isNameChar c rfl
    have hpoint : c ≠ '.' := by
      rintro rfl
      have hhead := h '.' (by rw [skipBlanks_cons_of_not_isBlank (by decide)]; rfl)
      exact absurd hhead (by decide)
    simp only [isNameChar, Bool.or_eq_false_iff] at hname
    simp [hname.1, hpoint]

/-- A word that is read off the name with blanks behind it is the whole name. -/
theorem eq_of_blanks? (h : FollowsName s) {word rest behind : Line}
    (hword : ∀ c ∈ word, isNameChar c = true)
    (hliteral : literal? word (name.text ++ s) = some rest) (hblanks : blanks? rest = some behind) :
    name.text = word ∧ behind = skipBlanks s := by
  obtain ⟨more, hname, rfl⟩ :=
    append_eq_of_head h.not_isNameChar hword (literal?_eq_some_iff.1 hliteral)
  cases more with
  | nil => exact ⟨by simpa using hname, eq_skipBlanks_of_blanks? hblanks⟩
  | cons c more =>
    have hc := isBlank_of_isNameChar (name.nameChars c (by simp [hname]))
    simp [blanks?, run?, hc] at hblanks

theorem eq_skipBlanks_of_oneOf? (h : FollowsName s) {words : List Line} {behind : Line}
    (hwords : words.all (fun word => word.all isNameChar) = true)
    (hbehind : (oneOf? words (name.text ++ s)).bind blanks? = some behind) :
    behind = skipBlanks s := by
  obtain ⟨rest, honeOf, hblanks⟩ := Option.bind_eq_some_iff.1 hbehind
  obtain ⟨word, hmem, hliteral⟩ := List.exists_of_findSome?_eq_some honeOf
  have hword : ∀ c ∈ word, isNameChar c = true :=
    List.all_eq_true.1 (List.all_eq_true.1 hwords word hmem)
  exact (h.eq_of_blanks? hword hliteral hblanks).2

/-- No two words open the text. -/
theorem oneOf?_word?_eq_none (h : FollowsName s) (gap : Gap) {words : List Line}
    (hwords : words.all (fun word => word.all isNameChar) = true) :
    ((oneOf? words (skipBlanks (gap.text ++ (name.text ++ s)))).bind blanks?).bind word? = none := by
  rw [skipBlanks_append gap.blank, name.skipBlanks_append, Option.bind_eq_none_iff]
  intro behind hbehind
  rw [h.eq_skipBlanks_of_oneOf? hwords hbehind, h.word?_eq_none]

theorem opensDestructuring_eq_false (h : FollowsName s) (gap : Gap) :
    opensDestructuring (gap.text ++ (name.text ++ s)) = false := by
  unfold opensDestructuring
  rw [skipBlanks_append gap.blank, name.skipBlanks_append]
  split
  · next c rest hbehind =>
    have hskip := h.eq_skipBlanks_of_oneOf? (by decide) hbehind
    rcases h c (by rw [← hskip]; rfl) with rfl | rfl | rfl <;> rfl
  · rfl

end FollowsName

/-! ## Lines that begin with a parameter -/

theorem length_dotPieces_of_not_mem {s : Line} (h : '.' ∉ s) : (dotPieces s).length = 1 := by
  induction s with
  | nil => rfl
  | cons c s ih =>
    have hc : c ≠ '.' := fun e => h (e ▸ List.mem_cons_self)
    have hs := ih fun m => h (List.mem_cons_of_mem _ m)
    rw [dotPieces, if_neg hc]
    split
    · rfl
    · next piece more hpieces => simpa [hpieces] using hs

theorem isMethodCall_eq_false {line : Line} (h : ∀ t, '.' :: t <:+ line → '(' ∉ t) :
    isMethodCall line = false := by
  rw [isMethodCall, anyPlace_eq_false, Bool.false_and]
  intro before t ht
  cases hrest : ((char? '.' t).bind word?).bind (spacedChar? '(') with
  | none => simp
  | some rest =>
    obtain ⟨behind, hbehind, hparen⟩ := Option.bind_eq_some_iff.1 hrest
    obtain ⟨tail, hpoint, hword⟩ := Option.bind_eq_some_iff.1 hbehind
    obtain rfl := char?_eq_some_iff.1 hpoint
    have hsuffix := (suffix_of_spacedChar? hparen).trans (suffix_of_word? hword)
    exact absurd (hsuffix.subset List.mem_cons_self) (h tail ht)

theorem opensDestructuring_of_not_mem {line : Line} (h : '{' ∉ line) :
    opensDestructuring line = false := by
  unfold opensDestructuring
  split
  · next c rest hrest =>
    obtain ⟨behind, honeOf, hblanks⟩ := Option.bind_eq_some_iff.1 hrest
    obtain ⟨word, -, hliteral⟩ := List.exists_of_findSome?_eq_some honeOf
    have hsuffix := ((suffix_of_blanks? hblanks).trans (suffix_of_literal? hliteral)).trans
      (skipBlanks_suffix line)
    have hc : c ≠ '{' := fun e => h (e ▸ hsuffix.subset List.mem_cons_self)
    simp [hc]
  · rfl

section

variable {gap : Gap} {name : FreeIdentifier} {s : Line} {f : Focus} (hs : FollowsName s)

include hs

theorem FollowsName.declaredValue?_eq_none :
    declaredValue? (gap.text ++ (name.text ++ s)) = none := by
  rw [declaredValue?, hs.oneOf?_word?_eq_none gap (by decide)]
  rfl

/-- A line that begins with a name and its equals sign is no type, no `return` and no assignment to a
property. -/
theorem FollowsName.isNoArrowContext_eq :
    isNoArrowContext (gap.text ++ (name.text ++ s)) f =
      (isMethodCall (gap.text ++ (name.text ++ s)) ||
        isRegularAssignment (gap.text ++ (name.text ++ s)) ||
        hasDependencyArray (gap.text ++ (name.text ++ s)) ||
        isMarkupAttribute (gap.text ++ (name.text ++ s)) f) := by
  have htype : isTypeDefinition (gap.text ++ (name.text ++ s)) = false := by
    rw [isTypeDefinition, hs.oneOf?_word?_eq_none gap (by decide)]
    rfl
  have hreturn : isReturn (gap.text ++ (name.text ++ s)) = false := by
    rw [isReturn, skipBlanks_append gap.blank, name.skipBlanks_append, Option.isSome_eq_false_iff,
      Option.isNone_iff_eq_none, Option.bind_eq_none_iff]
    intro rest hliteral
    rw [Option.eq_none_iff_forall_ne_some]
    intro behind hblanks
    have hword := (hs.eq_of_blanks? (forall_mem_of_all (by decide)) hliteral hblanks).1
    exact name.free (hword ▸ by decide)
  have hproperty : isPropertyAssignment (gap.text ++ (name.text ++ s)) = false := by
    have hpath : '.' ∉ (name.text ++ s).takeWhile fun c => isWord c || c = '.' := by
      have hname := name.not_mem (by decide : isNameChar '.' = false)
      rw [List.takeWhile_append, hs.takeWhile_eq_nil, List.append_nil]
      split
      · exact hname
      · exact fun hpoint => hname ((List.takeWhile_prefix _).subset hpoint)
    have hlength := length_dotPieces_of_not_mem hpath
    rw [isPropertyAssignment, skipBlanks_append gap.blank, name.skipBlanks_append]
    simp [hlength]
  simp [isNoArrowContext, htype, hreturn, hproperty]

/-- The test for plain assignments is the only one that takes a parameter line for something else. -/
theorem isExcluded_name (hparen : '(' ∉ s) (hbrace : '}' ∉ s)
    (hequals : EqualsLeadToNumbers (gap.text ++ (name.text ++ s))) :
    isExcluded (gap.text ++ (name.text ++ s)) f =
      isRegularAssignment (gap.text ++ (name.text ++ s)) := by
  have hmem (c : Char) (hblank : isBlank c = false) (hname : isNameChar c = false) (hc : c ∉ s) :
      c ∉ gap.text ++ (name.text ++ s) := by
    simp [gap.not_mem hblank, name.not_mem hname, hc]
  have hmethod : isMethodCall (gap.text ++ (name.text ++ s)) = false :=
    isMethodCall_eq_false fun t ht hmem' =>
      hmem '(' (by decide) (by decide) hparen (ht.subset (List.mem_cons_of_mem _ hmem'))
  have hdependency : hasDependencyArray (gap.text ++ (name.text ++ s)) = false :=
    hasDependencyArray_of_not_mem (hmem '}' (by decide) (by decide) hbrace)
  simp [isExcluded, isDeclaredAssignment, isArrowAssignment, hs.isNoArrowContext_eq,
    isMarkupAttribute, hs.declaredValue?_eq_none, hmethod, hdependency, hequals.hasAttribute_eq_false]

end

namespace ParameterLine

/-- The line begins with the name of its first parameter. -/
theorem exists_name (line : ParameterLine) (hcomma : ∀ p ∈ line.parameters.dropLast, p.comma ≠ none)
    (hne : line.parameters ≠ []) {z : Line} (hz : ∀ c ∈ z.head?, c = ')') :
    ∃ (gap : Gap) (name : FreeIdentifier) (s : Line),
      line.text ++ z = gap.text ++ (name.text ++ s) ∧ FollowsName s := by
  obtain ⟨parameters, tail⟩ := line
  obtain ⟨p, parameters, rfl⟩ := List.exists_cons_of_ne_nil hne
  refine ⟨p.gap, p.parameter.name,
    p.parameter.defaultText ++ (p.commaText ++ ((⟨parameters, tail⟩ : ParameterLine).text ++ z)), ?_, ?_⟩
  · simp [Parameter.text]
  · intro c hc
    cases hdefault : p.parameter.default with
    | some d =>
      simp only [Parameter.defaultText, hdefault, Option.map_some, Option.getD_some,
        ParameterDefault.text, List.append_assoc, skipBlanks_append d.before.blank,
        List.cons_append, skipBlanks_cons_of_not_isBlank (by decide : isBlank '=' = false)] at hc
      exact Or.inl (Option.some.inj hc).symm
    | none =>
      simp only [Parameter.defaultText, hdefault, Option.map_none, Option.getD_none,
        List.nil_append] at hc
      cases hcommaAt : p.comma with
      | some g =>
        simp only [PrintedParameter.commaText, hcommaAt, Option.map_some, Option.getD_some,
          List.append_assoc, skipBlanks_append g.blank, List.cons_append,
          skipBlanks_cons_of_not_isBlank (by decide : isBlank ',' = false)] at hc
        exact Or.inr (Or.inl (Option.some.inj hc).symm)
      | none =>
        -- without a comma the parameter is the last one of its line
        obtain rfl : parameters = [] := by
          by_contra hne
          obtain ⟨q, rest, rfl⟩ := List.exists_cons_of_ne_nil hne
          exact hcomma p (by simp) hcommaAt
        simp only [PrintedParameter.commaText, hcommaAt, Option.map_none, Option.getD_none,
          List.nil_append, text_nil, skipBlanks_append tail.blank] at hc
        cases z with
        | nil => simp [skipBlanks] at hc
        | cons d z =>
          obtain rfl : d = ')' := hz d rfl
          rw [skipBlanks_cons_of_not_isBlank (by decide)] at hc
          exact Or.inr (Or.inr (Option.some.inj hc).symm)

end ParameterLine

/-! ## Lines that begin with the opening -/

namespace SignatureOpening

theorem skipBlanks_text (o : SignatureOpening) (s : Line) :
    skipBlanks (o.text ++ s) =
      functionWord ++ (o.gap.text ++ (o.name.text ++ (o.tail.text ++ '(' :: s))) := by
  simp only [text, List.append_assoc, skipBlanks_append o.indent.blank]
  exact skipBlanks_cons_of_not_isBlank (by decide) _

theorem declaredValue?_eq_none (o : SignatureOpening) (s : Line) :
    declaredValue? (o.text ++ s) = none := by
  rw [declaredValue?, o.skipBlanks_text]
  rfl

theorem opensDestructuring_eq_false (o : SignatureOpening) (s : Line) :
    opensDestructuring (o.text ++ s) = false := by
  rw [opensDestructuring, o.skipBlanks_text]
  rfl

theorem exists_blank (o : SignatureOpening) : ∃ c gap, o.gap.text = c :: gap ∧ isBlank c = true := by
  obtain ⟨c, gap, hgap⟩ := List.exists_cons_of_ne_nil o.gap_ne_nil
  exact ⟨c, gap, hgap, o.gap.blank c (hgap ▸ List.mem_cons_self)⟩

/-- No method is called up to the opening parenthesis, for the text has no point there. -/
theorem isMethodCall_text (o : SignatureOpening) {s : Line} (hparen : '(' ∉ s) :
    isMethodCall (o.text ++ s) = false := by
  refine isMethodCall_eq_false fun t ht hmem => ?_
  obtain ⟨u, hu⟩ := ht
  rcases List.append_eq_append_iff.1 hu with ⟨v, hv, htail⟩ | ⟨v, hv, hs⟩
  · cases v with
    | nil =>
      rw [List.nil_append] at htail
      exact hparen (htail ▸ List.mem_cons_of_mem _ hmem)
    | cons d v =>
      obtain ⟨rfl, -⟩ := List.cons.inj htail
      exact o.not_mem_text (by decide : isNameChar '.' = false) (by decide) (by decide)
        (by simp [hv])
  · exact hparen (by simp [hs, hmem])

theorem isRegularAssignment_text (o : SignatureOpening) (s : Line) :
    isRegularAssignment (o.text ++ s) = false := by
  obtain ⟨c, gap, hgap, hblank⟩ := o.exists_blank
  have hfunction : ∀ d ∈ ['u', 'n', 'c', 't', 'i', 'o', 'n'], isWord d = true :=
    forall_mem_of_all (by decide)
  have htaken : word? (skipBlanks (o.text ++ s)) =
      some (o.gap.text ++ (o.name.text ++ (o.tail.text ++ '(' :: s))) := by
    rw [o.skipBlanks_text, hgap, List.cons_append]
    change some ((['u', 'n', 'c', 't', 'i', 'o', 'n'] ++ c :: _).dropWhile isWord) = _
    rw [List.dropWhile_append_of_pos hfunction, List.dropWhile_cons, isWord_of_isBlank hblank]
    rfl
  have hnone : spacedChar? '=' (o.gap.text ++ (o.name.text ++ (o.tail.text ++ '(' :: s))) = none := by
    refine spacedChar?_eq_none_of_head fun d hd => ?_
    obtain ⟨e, rest, hname⟩ := List.exists_cons_of_ne_nil o.name.ne_nil
    rw [skipBlanks_append o.gap.blank, o.name.skipBlanks_append, hname] at hd
    obtain rfl : e = d := Option.some.inj hd
    exact ne_of_isNameChar (o.name.nameChars e (hname ▸ List.mem_cons_self)) (by decide)
  simp [isRegularAssignment, htaken, hnone]

/-- The path that the text begins with is the one word `function`. -/
theorem isPropertyAssignment_text (o : SignatureOpening) (s : Line) :
    isPropertyAssignment (o.text ++ s) = false := by
  obtain ⟨c, gap, hgap, hblank⟩ := o.exists_blank
  have hword : isWord c = false := isWord_of_isBlank hblank
  have hpoint : c ≠ '.' := by
    rintro rfl
    exact absurd hblank (by decide)
  have hpath : '.' ∉ (functionWord ++ (o.gap.text ++ (o.name.text ++ (o.tail.text ++ '(' :: s)))).takeWhile
      fun d => isWord d || d = '.' := by
    have hfunction : '.' ∉ functionWord := by decide
    have hstop : ((c :: (gap ++ (o.name.text ++ (o.tail.text ++ '(' :: s)))).takeWhile
        fun d => isWord d || d = '.') = [] := by simp [hword, hpoint]
    rw [hgap, List.cons_append, List.takeWhile_append, hstop, List.append_nil]
    split
    · exact hfunction
    · exact fun hmem => hfunction ((List.takeWhile_prefix _).subset hmem)
  have hlength := length_dotPieces_of_not_mem hpath
  rw [isPropertyAssignment, o.skipBlanks_text]
  simp [hlength]

theorem isExcluded_text (o : SignatureOpening) {s : Line} {f : Focus} (hparen : '(' ∉ s)
    (hbrace : '}' ∉ s) (hequals : EqualsLeadToNumbers (o.text ++ s)) :
    isExcluded (o.text ++ s) f = false := by
  have htype : isTypeDefinition (o.text ++ s) = false := by
    rw [isTypeDefinition, o.skipBlanks_text]
    rfl
  have hreturn : isReturn (o.text ++ s) = false := by
    rw [isReturn, o.skipBlanks_text]
    rfl
  have hdependency : hasDependencyArray (o.text ++ s) = false := by
    refine hasDependencyArray_of_not_mem ?_
    simp [o.not_mem_text (by decide : isNameChar '}' = false) (by decide) (by decide), hbrace]
  simp [isExcluded, isDeclaredAssignment, isArrowAssignment, isNoArrowContext, isMarkupAttribute,
    o.declaredValue?_eq_none, htype, hreturn, o.isMethodCall_text hparen, o.isRegularAssignment_text,
    o.isPropertyAssignment_text, hdependency, hequals.hasAttribute_eq_false]

end SignatureOpening

end BranchTally
