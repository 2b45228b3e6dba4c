-- SUMMARY: How many defaults a line of printed parameters is read to have: those of the names that the search can find.
import BranchTally.Proofs.PlainLine
import BranchTally.Proofs.Signature.Syntax

/-!
# Defaults of printed parameters

The search for defaults takes a name only from a word boundary on, and only if it is spelled with
Latin letters, digits, underscores and dollar signs from there to its end. Such a name is found once
with its default; any other is passed over. Nothing else of a printed line is taken for a default.
-/

namespace BranchTally

open Text

/-! ## Names that are found -/

/-- The search finds an identifier that ends with the text, which stands after `before`. -/
def isFoundAfter (before : Option Char) : Line → Bool
  | [] => false
  | c :: rest =>
    (isWordBoundary before c && isIdentifierStart c && rest.all isIdentifierPart) ||
      isFoundAfter (some c) rest

/-- The search for defaults finds the name. -/
def Identifier.isFound (name : Identifier) : Bool := isFoundAfter none name.text

/-- The parameter has a default that is found. -/
def PrintedParameter.hasFoundDefault (p : PrintedParameter) : Bool :=
  p.hasDefault && p.parameter.name.isFound

/-- How many defaults of the line are found. -/
def ParameterLine.foundDefaults (line : ParameterLine) : Nat :=
  line.parameters.countP (·.hasFoundDefault)

/-! ## Passing over text -/

theorem isNameChar_of_isIdentifierPart {c : Char} (h : isIdentifierPart c = true) :
    isNameChar c = true := by
  simp only [isIdentifierPart, isIdentifierStart, Bool.or_eq_true, beq_iff_eq] at h
  have hword : isLatinLetter c = true ∨ isLatinDigit c = true ∨ c = '_' → isWord c = true := by
    intro hc
    have hascii : c.toNat < 0x80 := by
      rcases hc with hc | hc | rfl
      · simp only [isLatinLetter, Bool.or_eq_true, Bool.and_eq_true, decide_eq_true_eq] at hc
        omega
      · simp only [isLatinDigit, Bool.and_eq_true, decide_eq_true_eq] at hc
        omega
      · decide
    simp only [isWord, hascii, if_true, Bool.or_eq_true, beq_iff_eq]
    tauto
  simp only [isNameChar, Bool.or_eq_true, decide_eq_true_eq]
  rcases h with ((h | h) | h) | h
  · exact Or.inl (hword (Or.inl h))
  · exact Or.inl (hword (Or.inr (Or.inr h)))
  · exact Or.inr h
  · exact Or.inl (hword (Or.inr (Or.inl h)))

theorem isIdentifierPart_of_isIdentifierStart {c : Char} (h : isIdentifierStart c = true) :
    isIdentifierPart c = true := by
  rw [isIdentifierPart, h, Bool.true_or]

theorem isIdentifierPart_eq_false {c : Char} (h : isNameChar c = false) :
    isIdentifierPart c = false := by
  rw [Bool.eq_false_iff]
  exact fun hpart => Bool.false_ne_true (h.symm.trans (isNameChar_of_isIdentifierPart hpart))

theorem isIdentifierStart_eq_false {c : Char} (h : isNameChar c = false) :
    isIdentifierStart c = false := by
  rw [Bool.eq_false_iff]
  exact fun hstart => Bool.false_ne_true
    ((isIdentifierPart_eq_false h).symm.trans (isIdentifierPart_of_isIdentifierStart hstart))

theorem Gap.not_isIdentifierStart (gap : Gap) : ∀ c ∈ gap.text, isIdentifierStart c = false :=
  fun c hc => isIdentifierStart_eq_false (gap.not_isNameChar c hc)

namespace DefaultForm

variable {form : DefaultForm}

/-- Characters that belong to a default are passed over. -/
theorem countFrom_length (before : Option Char) (u s : List Char) :
    form.countFrom u.length before (u ++ s) = form.countFrom 0 (u.getLast?.or before) s := by
  induction u generalizing before with
  | nil => rfl
  | cons c u ih =>
    rw [List.length_cons, List.cons_append, countFrom, ih, List.getLast?_cons]
    cases u.getLast? <;> rfl

theorem countFrom_append {u s : List Char}
    (h : ∀ v w, u = v ++ w → w ≠ [] → ∀ before, form.take? before (w ++ s) = none)
    (before : Option Char) :
    form.countFrom 0 before (u ++ s) = form.countFrom 0 (u.getLast?.or before) s := by
  induction u generalizing before with
  | nil => rfl
  | cons c u ih =>
    have hhere := h [] (c :: u) rfl (List.cons_ne_nil _ _) before
    have hrest := ih (fun v w hu => h (c :: v) w (by rw [hu, List.cons_append])) (some c)
    rw [List.cons_append] at hhere ⊢
    rw [countFrom, hhere]
    dsimp only
    rw [hrest, List.getLast?_cons]
    cases u.getLast? <;> rfl

/-- No default begins with a character that begins no name. -/
theorem take?_of_not_isIdentifierStart {c : Char} (h : isIdentifierStart c = false)
    (before : Option Char) (s : List Char) : form.take? before (c :: s) = none := by
  simp [take?, identifier?, h]

theorem countFrom_append_of_not_isIdentifierStart {u s : List Char}
    (h : ∀ c ∈ u, isIdentifierStart c = false) (before : Option Char) :
    form.countFrom 0 before (u ++ s) = form.countFrom 0 (u.getLast?.or before) s := by
  refine countFrom_append (fun v w hu hw before => ?_) before
  obtain ⟨c, w, rfl⟩ := List.exists_cons_of_ne_nil hw
  exact take?_of_not_isIdentifierStart (h c (by simp [hu])) before (w ++ s)

theorem spacedChar?_eq_append_of_not_mem {u s : List Char} (hu : '=' ∉ u)
    (hs : spacedChar? '=' s = none) : spacedChar? '=' (u ++ s) = none := by
  induction u with
  | nil => exact hs
  | cons c u ih =>
    have hrest := ih fun m => hu (List.mem_cons_of_mem _ m)
    have hc : c ≠ '=' := fun e => hu (e ▸ List.mem_cons_self)
    cases hblank : isBlank c with
    | true =>
      rwa [spacedChar?, List.cons_append, ← List.singleton_append,
        skipBlanks_append (by simp [hblank])]
    | false =>
      rw [spacedChar?, List.cons_append, skipBlanks_cons_of_not_isBlank hblank]
      simp [char?, hc]

/-- No default begins in a text without equals signs that is followed by no equals sign. -/
theorem countFrom_append_of_not_mem {u s : List Char} (hu : '=' ∉ u)
    (hs : spacedChar? '=' s = none)
    (hend : (∃ c, u.getLast? = some c ∧ isIdentifierPart c = false) ∨
      ∀ c ∈ s.head?, isIdentifierPart c = false) (before : Option Char) :
    form.countFrom 0 before (u ++ s) = form.countFrom 0 (u.getLast?.or before) s := by
  refine countFrom_append (fun v w huw hw before => ?_) before
  obtain ⟨c, w, rfl⟩ := List.exists_cons_of_ne_nil hw
  have hnone : (identifier? (c :: w ++ s)).bind (spacedChar? '=') = none := by
    rw [List.cons_append, identifier?]
    split
    · next hstart =>
      have hw : '=' ∉ w := fun m => hu (by rw [huw]; simp [m])
      -- what is left of the text after the name still has no equals sign
      have hrest : (w ++ s).dropWhile isIdentifierPart = w.dropWhile isIdentifierPart ++ s := by
        cases hall : w.all isIdentifierPart with
        | false =>
          rw [List.dropWhile_append, if_neg]
          simp only [List.isEmpty_iff, List.dropWhile_eq_nil_iff]
          simpa using hall
        | true =>
          rw [List.all_eq_true] at hall
          rw [List.dropWhile_append_of_pos hall, List.dropWhile_eq_nil_iff.2 hall, List.nil_append]
          rcases hend with ⟨d, hlast, hd⟩ | hhead
          · have hmem : d ∈ c :: w := by
              rw [huw, List.getLast?_append_of_ne_nil _ (List.cons_ne_nil c w)] at hlast
              exact List.mem_of_getLast? hlast
            rcases List.mem_cons.1 hmem with rfl | hmem
            · exact absurd (isIdentifierPart_of_isIdentifierStart hstart) (by simp [hd])
            · exact absurd (hall d hmem) (by simp [hd])
          · cases s with
            | nil => rfl
            | cons d s => rw [List.dropWhile_cons, hhead d rfl]; rfl
      rw [Option.bind_some, hrest]
      exact spacedChar?_eq_append_of_not_mem
        (fun m => hw ((List.dropWhile_suffix _).subset m)) hs
    · rfl
  rw [List.cons_append] at hnone ⊢
  simp only [take?, hnone]
  split <;> rfl

end DefaultForm

/-! ## Values -/

theorem isWord_of_isDecimal {c : Char} (h : isDecimal c = true) : isWord c = true := by
  -- stated with `Nat.ble`, which the kernel evaluates at once
  have hranges : (decimalRanges.all fun r => wordRanges.any fun w =>
      Nat.ble w.1 r.1 && Nat.ble r.2 w.2) = true := by
    decide +kernel
  simp only [List.all_eq_true, List.any_eq_true, Bool.and_eq_true, Nat.ble_eq] at hranges
  unfold isDecimal at h
  unfold isWord
  split at h
  · next hascii => simp [hascii, h]
  · next hascii =>
    rw [if_neg hascii]
    simp only [inRanges, List.any_eq_true, Bool.and_eq_true, decide_eq_true_eq] at h ⊢
    obtain ⟨r, hr, hlow, hhigh⟩ := h
    obtain ⟨w, hw, hwlow, hwhigh⟩ := hranges r hr
    exact ⟨w, hw, by omega, by omega⟩

theorem isDecimal_of_isLatinDigit {c : Char} (h : isLatinDigit c = true) : isDecimal c = true := by
  have hascii : c.toNat < 0x80 := by
    simp only [isLatinDigit, Bool.and_eq_true, decide_eq_true_eq] at h
    omega
  rw [isDecimal, if_pos hascii, h]

/-- A value ends here: a blank, a comma or a closing parenthesis comes next, or nothing. -/
def EndsValue (s : Line) : Prop := ∀ c ∈ s.head?, isBlank c = true ∨ c = ',' ∨ c = ')'

theorem EndsValue.not_isNameChar {s : Line} (h : EndsValue s) :
    ∀ c ∈ s.head?, isNameChar c = false := by
  intro c hc
  rcases h c hc with hblank | rfl | rfl
  · exact isNameChar_of_isBlank hblank
  · decide
  · decide

theorem EndsValue.isDecimal {s : Line} (h : EndsValue s) : ∀ c ∈ s.head?, isDecimal c = false := by
  intro c hc
  rcases h c hc with hblank | rfl | rfl
  · rw [Bool.eq_false_iff]
    exact fun hd => Bool.false_ne_true ((isWord_of_isBlank hblank).symm.trans (isWord_of_isDecimal hd))
  · decide
  · decide

theorem dropWhile_append_of_head {p : Char → Bool} (u : Line) {s : Line}
    (h : ∀ c ∈ s.head?, p c = false) : (u ++ s).dropWhile p = u.dropWhile p ++ s := by
  rw [List.dropWhile_append]
  split
  · next hnil =>
    rw [List.isEmpty_iff.1 hnil, List.nil_append]
    cases s with
    | nil => rfl
    | cons c s => rw [List.dropWhile_cons, h c rfl]; rfl
  · rfl

/-- A numeral is read as a value, up to an end of its own text. -/
theorem numberValue?_append {first : Char} {u s : Line} (hfirst : isLatinDigit first = true)
    (hs : EndsValue s) : ∃ v, v <:+ u ∧ numberValue? (first :: (u ++ s)) = some (v ++ s) := by
  have hrun : run? isDecimal (first :: (u ++ s)) = some (u.dropWhile isDecimal ++ s) := by
    rw [run?, if_pos (isDecimal_of_isLatinDigit hfirst), dropWhile_append_of_head u hs.isDecimal]
  have hsuffix : u.dropWhile isDecimal <:+ u := List.dropWhile_suffix _
  rw [numberValue?, hrun]
  cases hv : u.dropWhile isDecimal with
  | nil =>
    refine ⟨[], List.nil_suffix, ?_⟩
    have hpoint : s.head? ≠ some '.' := by
      intro hhead
      have hnot : ¬(isBlank '.' = true ∨ '.' = ',' ∨ '.' = ')') := by decide
      exact hnot (hs '.' hhead)
    cases s with
    | nil => rfl
    | cons c s =>
      have hc : c ≠ '.' := fun e => hpoint (by rw [e]; rfl)
      simp only [List.nil_append]
      split
      · next heq => exact absurd (List.cons.inj heq).1 hc
      · rfl
  | cons c w =>
    rw [hv] at hsuffix
    by_cases hc : c = '.'
    · subst hc
      cases w with
      | nil =>
        refine ⟨['.'], hsuffix, ?_⟩
        have hnone : run? isDecimal s = none := by
          cases s with
          | nil => rfl
          | cons d s => simp [run?, hs.isDecimal d rfl]
        simp [hnone]
      | cons d w =>
        cases hd : isDecimal d with
        | false => exact ⟨'.' :: d :: w, hsuffix, by simp [run?, hd]⟩
        | true =>
          refine ⟨w.dropWhile isDecimal, ?_, ?_⟩
          · exact (List.dropWhile_suffix _).trans <| (List.suffix_cons d w).trans <|
              (List.suffix_cons '.' _).trans hsuffix
          · simp [run?, hd, dropWhile_append_of_head w hs.isDecimal]
    · refine ⟨c :: w, hsuffix, ?_⟩
      simp only [List.cons_append]
      split
      · next heq => exact absurd (List.cons.inj heq).1 hc
      · rfl

theorem DecimalLiteral.not_mem (d : DecimalLiteral) {c : Char} (hstart : startsNumeral c = false)
    (hc : isNumeralChar c = false) : c ∉ d.text := by
  intro hmem
  rcases List.mem_cons.1 hmem with rfl | hmem
  · exact Bool.false_ne_true (hstart.symm.trans d.startsNumeral_first)
  · exact Bool.false_ne_true (hc.symm.trans (d.numeralChars c hmem))

theorem isBlank_of_isNumeralChar {c : Char} (h : isNumeralChar c = true) : isBlank c = false := by
  rw [Bool.eq_false_iff]
  intro hblank
  have hsign : ∀ d ∈ ['.', '+', '-'], isBlank d = false := forall_mem_of_all (by decide)
  simp only [isNumeralChar, isWord_of_isBlank hblank, Bool.false_or, Bool.or_eq_true,
    decide_eq_true_eq] at h
  have hmem : c ∈ ['.', '+', '-'] := by simpa [or_assoc] using h
  exact Bool.false_ne_true ((hsign c hmem).symm.trans hblank)

/-- The value of a default is read from its first character on. -/
theorem DecimalLiteral.value?_text (d : DecimalLiteral) {s : Line} (hs : EndsValue s) :
    ∃ v, v <:+ d.rest ∧ DefaultForm.parameter.value? (d.text ++ s) = some (v ++ s) := by
  have hfirst := d.startsNumeral_first
  simp only [startsNumeral, Bool.or_eq_true, decide_eq_true_eq] at hfirst
  have hstart (c : Char) (hc : startsNumeral c = false) : d.first ≠ c := by
    rintro rfl
    exact Bool.false_ne_true (hc.symm.trans d.startsNumeral_first)
  have hquoted : quotedValue? (d.text ++ s) = none := by
    have h1 := hstart '"' (by decide)
    have h2 := hstart '\'' (by decide)
    have h3 := hstart '\x60' (by decide)
    simp [text, quotedValue?, h1, h2, h3]
  have hword : wordValue? (d.text ++ s) = none := by
    have h1 := hstart 't' (by decide)
    have h2 := hstart 'f' (by decide)
    have h3 := hstart 'n' (by decide)
    have h4 := hstart 'u' (by decide)
    simp [text, wordValue?, oneOf?, valueWords, literal?, List.isPrefixOf?, h1.symm, h2.symm,
      h3.symm, h4.symm]
  rw [DefaultForm.value?, hquoted, hword, Option.none_or, Option.none_or]
  rcases hfirst with hdigit | hpoint
  · obtain ⟨v, hv, hnumber⟩ := numberValue?_append hdigit hs
    exact ⟨v, hv, by rw [text, List.cons_append, hnumber]; rfl⟩
  · refine ⟨[], List.nil_suffix, ?_⟩
    have hnumber : numberValue? (d.text ++ s) = none := by
      have hdecimal : isDecimal d.first = false := hpoint ▸ by decide
      simp [text, numberValue?, run?, hdecimal]
    have hbare : ∀ c ∈ d.rest, (!DefaultForm.parameter.stops.contains c && !isBlank c) = true := by
      intro c hc
      have hchar := d.numeralChars c hc
      have hstop : ∀ e ∈ DefaultForm.parameter.stops, isNumeralChar e = false :=
        forall_mem_of_all (by decide)
      have hnot : c ∉ DefaultForm.parameter.stops := fun hmem =>
        Bool.false_ne_true ((hstop c hmem).symm.trans hchar)
      simp [hnot, isBlank_of_isNumeralChar hchar]
    have hend : ∀ c ∈ s.head?, (!DefaultForm.parameter.stops.contains c && !isBlank c) = false := by
      intro c hc
      rcases hs c hc with hblank | rfl | rfl
      · simp [hblank]
      · decide
      · decide
    rw [hnumber, Option.none_or, text, List.cons_append, run?, if_pos (hpoint ▸ by decide),
      dropWhile_append_of_head _ hend, List.dropWhile_eq_nil_iff.2 hbare]

/-! ## Names with a default -/

/-- A default is read from inside a name exactly where an identifier begins that ends with the name. -/
theorem take?_name (before : Option Char) {c : Char} {name gap rest value : Line}
    (hname : ∀ d ∈ name, isNameChar d = true) (hgap : ∀ d ∈ gap, isBlank d = true)
    (hvalue : DefaultForm.parameter.value? (skipBlanks rest) = some value) :
    DefaultForm.parameter.take? before (c :: (name ++ (gap ++ '=' :: rest))) =
      if isWordBoundary before c && isIdentifierStart c && name.all isIdentifierPart
      then some value else none := by
  have hequals : spacedChar? '=' (gap ++ '=' :: rest) = some rest := by
    rw [spacedChar?, skipBlanks_append hgap, skipBlanks_cons_of_not_isBlank (by decide)]
    rfl
  have hhead : ∀ d ∈ (gap ++ '=' :: rest).head?, isIdentifierPart d = false := by
    intro d hd
    apply isIdentifierPart_eq_false
    cases gap with
    | nil =>
      obtain rfl : '=' = d := Option.some.inj hd
      decide
    | cons e gap =>
      obtain rfl : e = d := Option.some.inj hd
      exact isNameChar_of_isBlank (hgap e List.mem_cons_self)
  cases hboundary : isWordBoundary before c with
  | false => simp [DefaultForm.take?, hboundary]
  | true =>
    cases hstart : isIdentifierStart c with
    | false => simp [DefaultForm.take?_of_not_isIdentifierStart hstart]
    | true =>
      simp only [DefaultForm.take?, hboundary, if_true, identifier?, hstart, Option.bind_some,
        dropWhile_append_of_head name hhead, Bool.true_and]
      cases hall : name.all isIdentifierPart with
      | true =>
        rw [List.dropWhile_eq_nil_iff.2 (List.all_eq_true.1 hall), List.nil_append, hequals]
        cases hhead' : (skipBlanks rest).head? with
        | none => simpa [hhead', DefaultForm.parameter] using hvalue
        | some d => simpa [hhead', DefaultForm.parameter] using hvalue
      | false =>
        -- the name goes on with a character that is neither blank nor an equals sign
        cases hleft : name.dropWhile isIdentifierPart with
        | nil =>
          have hnone := List.all_eq_true.2 (List.dropWhile_eq_nil_iff.1 hleft)
          exact absurd (hall.symm.trans hnone) Bool.false_ne_true
        | cons d more =>
          have hd : isNameChar d = true :=
            hname d ((List.dropWhile_suffix _).subset (hleft ▸ List.mem_cons_self))
          have hne : d ≠ '=' := ne_of_isNameChar hd (by decide)
          have hnone : spacedChar? '=' (d :: more ++ (gap ++ '=' :: rest)) = none := by
            rw [spacedChar?, List.cons_append,
              skipBlanks_cons_of_not_isBlank (isBlank_of_isNameChar hd)]
            simp [char?, hne]
          rw [List.cons_append] at hnone
          rw [List.cons_append, hnone]
          simp

/-- A name with a default is counted if it is found, and the count goes on behind its value. -/
theorem countFrom_name (before : Option Char) {name gap rest value : Line}
    (hname : ∀ d ∈ name, isNameChar d = true) (hgap : ∀ d ∈ gap, isBlank d = true)
    (hvalue : DefaultForm.parameter.value? (skipBlanks rest) = some value)
    (hsuffix : value <:+ rest) :
    (isFoundAfter before name = true ∧ ∃ b, DefaultForm.parameter.countFrom 0 before
        (name ++ (gap ++ '=' :: rest)) = DefaultForm.parameter.countFrom 0 b value + 1) ∨
      isFoundAfter before name = false ∧ DefaultForm.parameter.countFrom 0 before
        (name ++ (gap ++ '=' :: rest)) =
          DefaultForm.parameter.countFrom 0 (name.getLast?.or before) (gap ++ '=' :: rest) := by
  induction name generalizing before with
  | nil => exact Or.inr ⟨rfl, rfl⟩
  | cons c name ih =>
    have htake := take?_name before (c := c)
      (fun d hd => hname d (List.mem_cons_of_mem _ hd)) hgap hvalue
    rw [List.cons_append, DefaultForm.countFrom, htake, isFoundAfter]
    cases hhere : isWordBoundary before c && isIdentifierStart c && name.all isIdentifierPart with
    | true =>
      obtain ⟨u, hu⟩ : value <:+ name ++ (gap ++ '=' :: rest) :=
        hsuffix.trans <| (List.suffix_cons _ _).trans <| (List.suffix_append _ _).trans
          (List.suffix_append _ _)
      refine Or.inl ⟨rfl, u.getLast?.or (some c), ?_⟩
      rw [if_pos rfl]
      dsimp only
      rw [← hu, List.length_append, Nat.add_sub_cancel, DefaultForm.countFrom_length]
    | false =>
      have hlater := ih (some c) fun d hd => hname d (List.mem_cons_of_mem _ hd)
      have hlast : (c :: name).getLast?.or before = name.getLast?.or (some c) := by
        rw [List.getLast?_cons]
        cases name.getLast? <;> rfl
      rw [if_neg Bool.false_ne_true, Bool.false_or, hlast]
      exact hlater

/-! ## Printed parameters -/

theorem spacedChar?_eq_none_of_head {c : Char} {s : Line}
    (h : ∀ d, (skipBlanks s).head? = some d → d ≠ c) : spacedChar? c s = none := by
  rw [Option.eq_none_iff_forall_ne_some]
  intro rest hrest
  exact h c (by rw [char?_eq_some_iff.1 hrest]; rfl) rfl

/-- No default begins in a text without equals signs that ends a value, and none is lost. -/
theorem countFrom_value {u s : Line} (hu : '=' ∉ u) (hs : EndsValue s)
    (hequals : spacedChar? '=' s = none) (before : Option Char) :
    ∃ b, DefaultForm.parameter.countFrom 0 before (u ++ s) =
      DefaultForm.parameter.countFrom 0 b s :=
  ⟨_, DefaultForm.countFrom_append_of_not_mem hu hequals
    (Or.inr fun c hc => isIdentifierPart_eq_false (hs.not_isNameChar c hc)) before⟩

theorem Identifier.isFoundAfter_text (name : Identifier) {before : Option Char}
    (hbefore : before.all (fun c => !isNameChar c) = true) :
    isFoundAfter before name.text = name.isFound := by
  obtain ⟨c, rest, hname⟩ := List.exists_cons_of_ne_nil name.ne_nil
  have hsame : isWordBoundary before c = isWordBoundary none c := by
    cases before with
    | none => rfl
    | some d =>
      have hd : isNameChar d = false := by simpa using hbefore
      have hword : isWord d = false := by
        rw [isNameChar, Bool.or_eq_false_iff] at hd
        exact hd.1
      simp [isWordBoundary, hword]
  rw [isFound, hname, isFoundAfter, isFoundAfter, hsame]

theorem DecimalLiteral.isBlank_first (d : DecimalLiteral) : isBlank d.first = false := by
  have hstart := d.startsNumeral_first
  simp only [startsNumeral, Bool.or_eq_true, decide_eq_true_eq] at hstart
  rcases hstart with hdigit | hpoint
  · have hword := isWord_of_isDecimal (isDecimal_of_isLatinDigit hdigit)
    rw [Bool.eq_false_iff]
    exact fun hblank => Bool.false_ne_true ((isWord_of_isBlank hblank).symm.trans hword)
  · exact hpoint ▸ by decide

theorem DecimalLiteral.skipBlanks_text (d : DecimalLiteral) (gap : Gap) (s : Line) :
    skipBlanks (gap.text ++ (d.text ++ s)) = d.text ++ s := by
  rw [skipBlanks_append gap.blank, text, List.cons_append,
    skipBlanks_cons_of_not_isBlank d.isBlank_first]

/-- A parameter is counted if it has a default and its name is found. -/
theorem Parameter.countFrom_text (p : Parameter) {before : Option Char} {s : Line}
    (hbefore : before.all (fun c => !isNameChar c) = true) (hs : EndsValue s)
    (hequals : spacedChar? '=' s = none) :
    ∃ b, DefaultForm.parameter.countFrom 0 before (p.text ++ s) =
      DefaultForm.parameter.countFrom 0 b s +
        if p.default.isSome && p.name.isFound then 1 else 0 := by
  obtain ⟨name, default⟩ := p
  have hfirst := name.isFoundAfter_text hbefore
  cases default with
  | none =>
    have hname : '=' ∉ name.text := name.not_mem (by decide)
    simpa [text, defaultText] using countFrom_value hname hs hequals before
  | some d =>
    obtain ⟨v, hv, hvalue⟩ := d.literal.value?_text hs
    have hliteral : '=' ∉ d.literal.text := d.literal.not_mem (by decide) (by decide)
    have hvmem : '=' ∉ v := fun m => hliteral (List.mem_cons_of_mem _ (hv.subset m))
    have hskip := d.literal.skipBlanks_text d.after s
    have hsuffix : v ++ s <:+ d.after.text ++ (d.literal.text ++ s) := by
      obtain ⟨u, hu⟩ := hv
      exact ⟨d.after.text ++ d.literal.first :: u, by simp [DecimalLiteral.text, ← hu]⟩
    have htext : (⟨name, some d⟩ : Parameter).text ++ s =
        name.text ++ (d.before.text ++ '=' :: (d.after.text ++ (d.literal.text ++ s))) := by
      simp [text, defaultText, ParameterDefault.text]
    rw [htext]
    rcases countFrom_name before name.nameChars d.before.blank
      (by rw [hskip]; exact hvalue) hsuffix
      with ⟨hfound, b, hcount⟩ | ⟨hfound, hcount⟩
    · obtain ⟨b', hrest⟩ := countFrom_value hvmem hs hequals b
      refine ⟨b', ?_⟩
      rw [hcount, hrest]
      simp [← hfirst, hfound]
    · -- the blanks and the equals sign begin no name, and the number none that has a default
      have hsigns : ∀ c ∈ d.before.text ++ '=' :: d.after.text, isIdentifierStart c = false := by
        intro c hc
        rcases List.mem_append.1 hc with hc | hc
        · exact d.before.not_isIdentifierStart c hc
        · rcases List.mem_cons.1 hc with rfl | hc
          · decide
          · exact d.after.not_isIdentifierStart c hc
      have hpass := @DefaultForm.countFrom_append_of_not_isIdentifierStart .parameter _
        (d.literal.text ++ s) hsigns (name.text.getLast?.or before)
      obtain ⟨b', hrest⟩ := countFrom_value hliteral hs hequals
        ((d.before.text ++ '=' :: d.after.text).getLast?.or (name.text.getLast?.or before))
      refine ⟨b', ?_⟩
      rw [List.append_assoc, List.cons_append] at hpass
      rw [hcount, hpass, hrest]
      simp [← hfirst, hfound]

/-! ## Printed lines -/

namespace Gap

theorem endsValue_append (gap : Gap) {s : Line} (hs : EndsValue s) : EndsValue (gap.text ++ s) := by
  intro c hc
  rcases hgap : gap.text with _ | ⟨d, rest⟩
  · rw [hgap] at hc
    exact hs c hc
  · rw [hgap] at hc
    obtain rfl : d = c := Option.some.inj hc
    exact Or.inl (gap.blank d (hgap ▸ List.mem_cons_self))

theorem getLast?_or_not_isNameChar (gap : Gap) {before : Option Char}
    (h : before.all (fun c => !isNameChar c) = true) :
    (gap.text.getLast?.or before).all (fun c => !isNameChar c) = true := by
  cases hlast : gap.text.getLast? with
  | none => simpa [hlast] using h
  | some c => simp [gap.not_isNameChar c (List.mem_of_getLast? hlast)]

end Gap

theorem FreeIdentifier.skipBlanks_append (name : FreeIdentifier) (s : Line) :
    skipBlanks (name.text ++ s) = name.text ++ s := by
  obtain ⟨c, rest, hname⟩ := List.exists_cons_of_ne_nil name.ne_nil
  have hc := isBlank_of_isNameChar (name.nameChars c (hname ▸ List.mem_cons_self))
  rw [hname, List.cons_append, skipBlanks_cons_of_not_isBlank hc]

namespace ParameterLine

/-- No equals sign opens the line. -/
theorem spacedChar?_equals (line : ParameterLine) {s : Line} (hs : '=' ∉ s) :
    spacedChar? '=' (line.text ++ s) = none := by
  obtain ⟨parameters, tail⟩ := line
  cases parameters with
  | nil =>
    have htail : '=' ∉ tail.text := tail.not_mem (by decide)
    rw [text_nil]
    refine DefaultForm.spacedChar?_eq_append_of_not_mem htail ?_
    refine spacedChar?_eq_none_of_head fun d hd heq => hs ?_
    exact (skipBlanks_suffix s).subset (heq ▸ List.mem_of_head? hd)
  | cons p parameters =>
    have hgap : '=' ∉ p.gap.text := p.gap.not_mem (by decide)
    rw [text_cons, List.append_assoc, Parameter.text, List.append_assoc, List.append_assoc]
    refine DefaultForm.spacedChar?_eq_append_of_not_mem hgap ?_
    refine spacedChar?_eq_none_of_head fun d hd => ?_
    obtain ⟨c, rest, hname⟩ := List.exists_cons_of_ne_nil p.parameter.name.ne_nil
    rw [p.parameter.name.skipBlanks_append, hname] at hd
    obtain rfl : c = d := Option.some.inj hd
    exact ne_of_isNameChar (p.parameter.name.nameChars c (hname ▸ List.mem_cons_self)) (by decide)

/-- The defaults of a line are those of its parameters whose names are found. -/
theorem countFrom_text (line : ParameterLine) (hcomma : ∀ p ∈ line.parameters.dropLast, p.comma ≠ none)
    {before : Option Char} {s : Line} (hbefore : before.all (fun c => !isNameChar c) = true)
    (hs : EndsValue s) (hequals : '=' ∉ s) :
    DefaultForm.parameter.countFrom 0 before (line.text ++ s) = line.foundDefaults := by
  obtain ⟨parameters, tail⟩ := line
  induction parameters generalizing before with
  | nil =>
    have htail : '=' ∉ tail.text := tail.not_mem (by decide)
    rw [text_nil, DefaultForm.countFrom_of_not_mem (by simp [htail, hequals])]
    rfl
  | cons p parameters ih =>
    obtain ⟨gap, parameter, comma⟩ := p
    have hfound : foundDefaults ⟨⟨gap, parameter, comma⟩ :: parameters, tail⟩ =
        foundDefaults ⟨parameters, tail⟩ +
          if parameter.default.isSome && parameter.name.isFound then 1 else 0 := by
      simp [foundDefaults, List.countP_cons, PrintedParameter.hasFoundDefault,
        PrintedParameter.hasDefault]
    rw [text_cons, List.append_assoc, List.append_assoc, List.append_assoc,
      DefaultForm.countFrom_append_of_not_isIdentifierStart gap.not_isIdentifierStart, hfound]
    have hstart := gap.getLast?_or_not_isNameChar hbefore
    cases comma with
    | none =>
      -- only the last parameter of the line stands without a comma
      obtain rfl : parameters = [] := by
        by_contra hne
        obtain ⟨q, rest, rfl⟩ := List.exists_cons_of_ne_nil hne
        exact hcomma ⟨gap, parameter, none⟩ (by simp) rfl
      have hend : EndsValue (tail.text ++ s) := tail.endsValue_append hs
      have hnone : spacedChar? '=' (tail.text ++ s) = none :=
        spacedChar?_equals ⟨[], tail⟩ hequals
      obtain ⟨b, hcount⟩ := parameter.countFrom_text hstart hend hnone
      have hrest : DefaultForm.parameter.countFrom 0 b (tail.text ++ s) = 0 :=
        DefaultForm.countFrom_of_not_mem
          (by simp [tail.not_mem (by decide : isBlank '=' = false), hequals]) b
      simpa [PrintedParameter.commaText, hrest, foundDefaults] using hcount
    | some g =>
      have hcommaText : PrintedParameter.commaText ⟨gap, parameter, some g⟩ = g.text ++ [','] := rfl
      have hend : EndsValue (g.text ++ ([','] ++ ((⟨parameters, tail⟩ : ParameterLine).text ++ s))) :=
        g.endsValue_append fun c hc => Or.inr (Or.inl (Option.some.inj hc).symm)
      have hnone : spacedChar? '='
          (g.text ++ ([','] ++ ((⟨parameters, tail⟩ : ParameterLine).text ++ s))) = none := by
        refine DefaultForm.spacedChar?_eq_append_of_not_mem (g.not_mem (by decide)) ?_
        simp [spacedChar?, skipBlanks_cons_of_not_isBlank (by decide : isBlank ',' = false), char?]
      obtain ⟨b, hcount⟩ := parameter.countFrom_text hstart hend hnone
      have hsigns : ∀ c ∈ g.text ++ [','], isIdentifierStart c = false := by
        intro c hc
        rcases List.mem_append.1 hc with hc | hc
        · exact g.not_isIdentifierStart c hc
        · exact List.mem_singleton.1 hc ▸ by decide
      have hpass := @DefaultForm.countFrom_append_of_not_isIdentifierStart .parameter _
        ((⟨parameters, tail⟩ : ParameterLine).text ++ s) hsigns b
      have hrest := @ih (some ',') rfl fun q hq => hcomma q (by
        cases parameters with
        | nil => simp at hq
        | cons r parameters => exact List.mem_cons_of_mem _ hq)
      rw [List.getLast?_append_of_ne_nil _ (List.cons_ne_nil _ _), List.append_assoc] at hpass
      rw [hcommaText, List.append_assoc, hcount, hpass]
      simpa using hrest

end ParameterLine

/-- Nothing before the parameters is taken for a default. -/
theorem SignatureOpening.countFrom_text (o : SignatureOpening) {s : Line}
    (hs : spacedChar? '=' s = none) :
    DefaultForm.parameter.countFrom 0 none (o.text ++ s) =
      DefaultForm.parameter.countFrom 0 (some '(') s := by
  have hmem : '=' ∉ o.text := by
    simp [text, functionWord, o.indent.not_mem (by decide : isBlank '=' = false),
      o.gap.not_mem (by decide : isBlank '=' = false),
      o.tail.not_mem (by decide : isBlank '=' = false),
      o.name.not_mem (by decide : isNameChar '=' = false)]
  have hlast : o.text.getLast? = some '(' := by
    simp [text, ← List.append_assoc]
  have hpass := @DefaultForm.countFrom_append_of_not_mem .parameter _ _ hmem hs
    (Or.inl ⟨'(', hlast, by decide⟩) none
  rwa [hlast] at hpass

end BranchTally
