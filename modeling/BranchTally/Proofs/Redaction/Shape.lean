-- SUMMARY: Requoted lines read alike: whatever an inert quotation says that stands apart from defaults, the collectors that read lines without comments see no difference.
import Mathlib
import BranchTally.Proofs.Redaction.Requoted

/-!
# The shape of requoted lines

Each test of a line without comments either stops at the opening quote, or looks for a character that
the quotation does not have, or reads the word `function`, which it does not have either.
-/

namespace BranchTally

open Text

/-! ## What the tests look for -/

theorem callbackStart?_of_not_mem {s : Line} (hequals : '=' ∉ s) (hparen : '(' ∉ s) :
    callbackStart? s = none := by
  induction s with
  | nil => rfl
  | cons c s ih =>
    have hrest := ih (fun hmem => hequals (List.mem_cons_of_mem c hmem)) fun hmem =>
      hparen (List.mem_cons_of_mem c hmem)
    have hhere : opensCallback (c :: s) = false := by
      unfold opensCallback
      split
      · next heq => exact absurd (heq ▸ List.mem_cons_self) hequals
      · rw [Option.isSome_eq_false_iff, Option.isNone_iff_eq_none, Option.eq_none_iff_forall_ne_some]
        intro rest hrest
        exact hparen (paren_mem_of_bind (fun _ _ => suffix_of_literal?) hrest)
    rw [callbackStart?, hhere, if_neg Bool.false_ne_true, hrest, Option.map_none]

theorem mem_of_methodCall {s : Line}
    (h : (((char? '.' s).bind word?).bind (spacedChar? '(')).isSome = true) : '(' ∈ s := by
  obtain ⟨rest, hrest⟩ := Option.isSome_iff_exists.1 h
  refine @paren_mem_of_bind (fun s => (char? '.' s).bind word?) (fun s t ht => ?_) s rest hrest
  obtain ⟨u, hpoint, hword⟩ := Option.bind_eq_some_iff.1 ht
  exact (suffix_of_word? hword).trans (char?_eq_some_iff.1 hpoint ▸ List.suffix_cons _ _)

theorem mem_of_arrowParen {s : Line} (h : ((literal? arrow s).bind (spacedChar? '(')).isSome = true) :
    '(' ∈ s := by
  obtain ⟨rest, hrest⟩ := Option.isSome_iff_exists.1 h
  exact paren_mem_of_bind (fun _ _ => suffix_of_literal?) hrest

theorem mem_of_dependencyArray {s : Line}
    (h : (((char? '}' s).bind (spacedChar? ',')).bind (spacedChar? '[')).isSome = true) : '}' ∈ s := by
  obtain ⟨rest, hrest⟩ := Option.isSome_iff_exists.1 h
  obtain ⟨comma, hcomma, -⟩ := Option.bind_eq_some_iff.1 hrest
  obtain ⟨brace, hbrace, -⟩ := Option.bind_eq_some_iff.1 hcomma
  exact char?_eq_some_iff.1 hbrace ▸ List.mem_cons_self

theorem mem_of_opensTag {s : Line} (h : opensTag s = true) : '<' ∈ s := by
  unfold opensTag at h
  split at h <;> simp_all

theorem mem_of_opensStartTag {s : Line} (h : opensStartTag s = true) : '<' ∈ s := by
  unfold opensStartTag at h
  split at h <;> simp_all

theorem exists_of_closesTag {s : Line} (h : closesTag s = true) : ∃ c ∈ s, isInert c = false := by
  unfold closesTag at h
  split at h
  · exact ⟨'>', by simp, by decide⟩
  · exact ⟨'<', by simp, by decide⟩
  · exact absurd h Bool.false_ne_true

/-! ## Attributes -/

/-- A test that finds nothing from any place of a text on finds what it finds behind it. -/
theorem anyPlace_append {test : Option Char → Line → Bool} {u s : Line}
    (h : ∀ before v, v <:+ u → v ≠ [] → test before (v ++ s) = false) (before : Option Char) :
    anyPlace test before (u ++ s) = anyPlace test (u.getLast?.or before) s := by
  induction u generalizing before with
  | nil => rfl
  | cons c u ih =>
    have hhere := h before (c :: u) (List.suffix_refl _) (List.cons_ne_nil _ _)
    have hrest := ih (fun before v hv hne => h before v (hv.trans (List.suffix_cons _ _)) hne) (some c)
    rw [List.cons_append] at hhere
    rw [List.cons_append, anyPlace, hhere, Bool.false_or, hrest, List.getLast?_cons]
    cases u.getLast? <;> rfl

/-- A test that does not tell two texts apart behind any front finds the same in front of both. -/
theorem anyPlace_congr {test : Option Char → Line → Bool} {front rest rest' : Line}
    (h : ∀ before u, test before (u ++ rest) = test before (u ++ rest'))
    (hrest : ∀ before, anyPlace test before rest = anyPlace test before rest') (before : Option Char) :
    anyPlace test before (front ++ rest) = anyPlace test before (front ++ rest') := by
  induction front generalizing before with
  | nil => exact hrest before
  | cons c front ih =>
    have hhere := h before (c :: front)
    rw [List.cons_append, List.cons_append] at hhere
    rw [List.cons_append, List.cons_append, anyPlace, anyPlace, hhere, ih]

/-- An attribute begins in front of the text, behind the character `before`. -/
def opensAttribute (before : Option Char) (s : Line) : Bool :=
  before.all isBlank && ((word? s).bind (spacedChar? '=')).any fun value =>
    (skipBlanks value).head?.any fun c => c = '"' || c = '\'' || c = '{'

theorem hasAttribute_eq (line : Line) : hasAttribute line = anyPlace opensAttribute none line := by
  refine congrArg (anyPlace · none line) (funext fun before => funext fun s => ?_)
  refine congrArg (before.all isBlank && ·) ?_
  cases (word? s).bind (spacedChar? '=') with
  | none => rfl
  | some value =>
    rw [Option.map_some, Option.any_some]
    cases skipBlanks value <;> rfl

namespace Quotation

variable {t : Quotation}

theorem stopsAt_attributeName : StopsAt t.quote fun s => (word? s).bind (spacedChar? '=') :=
  (stopsAt_word? isGuard_quote).bind
    (stopsAt_spacedChar? isGuard_quote (ne_quote (by decide) (by decide)))

/-- An attribute may end with a quote, but what the quote opens does not matter. -/
theorem opensAttribute_append_quote (before : Option Char) (u rest : Line) :
    opensAttribute before (u ++ t.quote :: rest) = opensAttribute before (u ++ [t.quote]) := by
  have hhead (value more : Line) : (skipBlanks (value ++ t.quote :: more)).head? =
      (skipBlanks value ++ [t.quote]).head? := by
    rw [skipBlanks_append_guard isGuard_quote]
    cases skipBlanks value <;> rfl
  have hname := stopsAt_attributeName (t := t) u
  simp only at hname
  rw [opensAttribute, opensAttribute, hname, hname]
  cases (word? u).bind (spacedChar? '=') with
  | none => rfl
  | some value => simp only [Option.map_some, Option.any_some, hhead]

theorem opensAttribute_of_not_mem {u : Line} (hu : '=' ∉ u) (before : Option Char) (rest : Line) :
    opensAttribute before (u ++ t.quote :: rest) = false := by
  have hname := stopsAt_attributeName (t := t) u rest
  have hnone : (word? u).bind (spacedChar? '=') = none := by
    rw [Option.eq_none_iff_forall_ne_some]
    intro value hvalue
    obtain ⟨behind, hword, hequals⟩ := Option.bind_eq_some_iff.1 hvalue
    exact hu (((suffix_of_spacedChar? hequals).trans (suffix_of_word? hword)).subset List.mem_cons_self)
  simp only [hnone] at hname
  rw [opensAttribute, hname]
  exact Bool.and_false _

theorem hasAttribute_redacted (h : t.Inert) : hasAttribute t.line = hasAttribute t.redacted := by
  have hquoted {said : Line} (hsaid : t.Says said) (before : Option Char) :
      anyPlace opensAttribute before (t.quoted said) = anyPlace opensAttribute (some t.quote) t.back := by
    have hnone : '=' ∉ t.quote :: said := by
      rw [List.mem_cons, not_or]
      exact ⟨(ne_quote (by decide) (by decide)).symm, h.not_mem hsaid (by decide)⟩
    have hclose := opensAttribute_of_not_mem (t := t) List.not_mem_nil
    rw [quoted, ← List.cons_append, anyPlace_append fun before v hv _ =>
      opensAttribute_of_not_mem (fun hmem => hnone (hv.subset hmem)) before _, anyPlace]
    simp only [List.nil_append] at hclose
    rw [hclose, Bool.false_or]
  rw [hasAttribute_eq, hasAttribute_eq, t.line_eq, t.redacted_eq]
  refine anyPlace_congr (fun before u => ?_) (fun before => ?_) none
  · exact (opensAttribute_append_quote before u _).trans (opensAttribute_append_quote before u _).symm
  · rw [hquoted said_content, hquoted said_filler]

end Quotation

namespace Requoted

variable {s s' : Line} (h : Requoted s s')

include h

theorem blind {α : Type} {test : Line → α} (htest : ∀ g, isGuard g = true → Blind g test) :
    test s = test s' := by
  cases h with
  | same => rfl
  | quotation t => exact Quotation.blind (htest _ Quotation.isGuard_quote)

theorem anyTail {test : Line → Bool} (htest : ∀ g, isGuard g = true → g ≠ '/' → Blind g test)
    (hneeds : ∀ s, test s = true → ∃ c ∈ s, isInert c = false) :
    anyTail test s = Text.anyTail test s' := by
  cases h with
  | same => rfl
  | quotation t h =>
    exact h.anyTail (htest _ Quotation.isGuard_quote (Quotation.ne_quote (by decide) (by decide))) hneeds

theorem hasAttribute : hasAttribute s = BranchTally.hasAttribute s' := by
  cases h with
  | same => rfl
  | quotation t h => exact Quotation.hasAttribute_redacted h

/-! ## Arrows -/

theorem getLast?_eq : s.getLast? = s'.getLast? := by
  cases h with
  | same => rfl
  | quotation t =>
    have hlast (said : Line) : (t.front ++ t.quoted said).getLast? = (t.quote :: t.back).getLast? := by
      rw [Quotation.quoted, ← List.cons_append, ← List.append_assoc,
        List.getLast?_append_of_ne_nil _ (List.cons_ne_nil _ _)]
    rw [t.line_eq, t.redacted_eq, hlast, hlast]

theorem callbackStart? : callbackStart? s = BranchTally.callbackStart? s' := by
  cases h with
  | same => rfl
  | quotation t h =>
    have hquoted {said : Line} (hsaid : t.Says said) :
        BranchTally.callbackStart? (t.front ++ t.quoted said) = (BranchTally.callbackStart? t.front).or
          ((BranchTally.callbackStart? t.back).map
            (· + (t.content.length + 1) + (t.front.length + 1))) := by
      have hnone : BranchTally.callbackStart? said = none :=
        callbackStart?_of_not_mem (h.not_mem hsaid (by decide)) (h.not_mem hsaid (by decide))
      have hlength : said.length = t.content.length := hsaid.length_eq
      rw [Quotation.quoted, callbackStart?_append_guard Quotation.isGuard_quote,
        callbackStart?_append_guard Quotation.isGuard_quote, hnone, Option.none_or, Option.map_map,
        hlength]
      rfl
    rw [t.line_eq, t.redacted_eq, hquoted Quotation.said_content, hquoted Quotation.said_filler]

theorem isMethodCall : isMethodCall s = BranchTally.isMethodCall s' := by
  rw [BranchTally.isMethodCall, BranchTally.isMethodCall, h.sameText.hasArrow]
  cases h with
  | same => rfl
  | quotation t h =>
    refine congrArg (· && _) (h.anyPlace (fun before s rest => ?_) fun before s hs => ?_)
    · exact congrArg _ ((stopsAt_methodCall Quotation.isGuard_quote).isSome s rest)
    · exact ⟨'(', mem_of_methodCall (Bool.and_eq_true_iff.1 hs).2, by decide⟩

theorem isRegularAssignment : isRegularAssignment s = BranchTally.isRegularAssignment s' := by
  have hassigns := h.blind fun g hg => blind_assignment hg
  rw [BranchTally.isRegularAssignment, BranchTally.isRegularAssignment, hassigns,
    h.sameText.hasEqualsInParens, h.trim.getLast?_eq,
    h.sameText.contains (by decide : isInert '{' = false),
    h.sameText.contains (by decide : isInert '}' = false)]

theorem endsWithBraceComma : endsWithBraceComma s = BranchTally.endsWithBraceComma s' := by
  cases h with
  | same => rfl
  | quotation t =>
    have hend (said : Line) := endsWithBraceComma_append_guard (Quotation.isGuard_quote (t := t))
      (t.front ++ t.quote :: said) [] t.back
    rw [t.line_eq, t.redacted_eq, Quotation.quoted, Quotation.quoted, ← List.cons_append,
      ← List.append_assoc, hend, ← List.cons_append, ← List.append_assoc, hend]

theorem sameArrows : SameArrows s s' where
  arrow := h.sameText.hasArrow
  position := by rw [h.sameText.arrowPosition?]
  parameters := h.arrowDefaults
  listEnd walked number asked := by
    have harrow : find? BranchTally.arrow s = find? BranchTally.arrow s' :=
      h.sameText.find? (forall_mem_of_all (by decide))
    have hequals : find? ['='] s = find? ['='] s' := h.sameText.find? (forall_mem_of_all (by decide))
    simp only [arrowEnd?, harrow, hequals]
  callback := h.callbackStart?
  typeDefinition := h.blind fun g hg => blind_isTypeDefinition hg
  methodCall := h.isMethodCall
  regular := h.isRegularAssignment
  property := h.blind fun g hg => blind_isPropertyAssignment hg
  hook := h.anyTail (fun g hg _ => (stopsAt_dependencyArray hg).isSome) fun _ hs =>
    ⟨'}', mem_of_dependencyArray hs, by decide⟩
  hookEnd := h.endsWithBraceComma
  bracket := by
    have hhead := h.blind fun g hg =>
      blind_head? (c := '[') hg (forall_isGuard (p := (· ≠ '[')) (by decide) hg)
    simpa using hhead

/-! ## Tags -/

theorem sameTags : SameTags s s' where
  attributes := h.hasAttribute
  braces := h.sameText.hasBraces
  tag := by
    refine h.anyTail (fun g hg hslash s rest => ?_) fun s hs => ?_
    · rw [blind_opensTag hg hslash s rest, blind_closesTag hg hslash s rest]
    · rcases Bool.or_eq_true_iff.1 hs with htag | htag
      · exact ⟨'<', mem_of_opensTag htag, by decide⟩
      · exact exists_of_closesTag htag
  closing := h.anyTail (fun g hg hslash => blind_closesTag hg hslash) fun _ => exists_of_closesTag
  opening := h.anyTail (fun g hg _ => blind_opensStartTag hg) fun _ hs =>
    ⟨'<', mem_of_opensStartTag hs, by decide⟩
  statement := h.blind fun g hg => blind_opensStatement hg

/-! ## Signatures -/

theorem occurs_functionWord : occurs functionWord s = occurs functionWord s' := by
  cases h with
  | same => rfl
  | quotation t h =>
    have hword : Blind t.quote (functionWord.isPrefixOf ·) := blind_isPrefixOf
      (not_mem_of_isWord Quotation.isGuard_quote (forall_mem_of_all (by decide)))
    have hquoted {said : Line} (hnone : occurs functionWord said = false) :
        occurs functionWord (t.front ++ t.quoted said) =
          (occurs functionWord t.front || occurs functionWord t.back) := by
      have hfront := hword.anyTail t.front (said ++ t.quote :: t.back)
      have hbehind := hword.anyTail said t.back
      rw [occurs] at hnone
      rw [Quotation.quoted, occurs, hfront, hbehind, hnone, Bool.false_or]
      rfl
    have hfiller : occurs functionWord t.redaction.filler = false := by
      refine anyTail_eq_false fun u hu => Bool.eq_false_iff.2 fun hprefix => ?_
      have hmem : 'f' ∈ t.redaction.filler :=
        hu.subset ((List.isPrefixOf_iff_prefix.1 hprefix).subset (by decide))
      exact absurd (List.eq_of_mem_replicate hmem) (by decide)
    rw [t.line_eq, t.redacted_eq, hquoted h.function, hquoted hfiller]

theorem isDeclaredAssignment :
    isDeclaredAssignment s = BranchTally.isDeclaredAssignment s' := by
  refine any_eq_of_rel h.declaredValue? fun v v' hv => ?_
  have hhead := hv.skipBlanks.sameText.head?_eq_iff (by decide : isInert '(' = false)
  simp only [hv.sameText.isEmpty, ne_eq, hhead]

theorem arrowAfterParens : arrowAfterParens s = BranchTally.arrowAfterParens s' := by
  have hdrop := h.dropWhile_ne (by decide : isInert ')' = false) (by decide)
  have hfirst : ∀ c ∈ (s.dropWhile (· ≠ ')')).head?, c = ')' := by
    intro c hc
    have hnot := List.head?_dropWhile_not (· ≠ ')') s
    rw [Option.mem_def.1 hc] at hnot
    simpa using hnot
  unfold BranchTally.arrowAfterParens
  generalize s.dropWhile (· ≠ ')') = u, s'.dropWhile (· ≠ ')') = u' at hdrop hfirst
  cases u with
  | nil =>
    obtain rfl := List.eq_nil_of_length_eq_zero hdrop.length_eq.symm
    rfl
  | cons c rest =>
    obtain rfl := hfirst c rfl
    obtain ⟨c', rest', rfl⟩ := List.exists_cons_of_length_eq_add_one hdrop.length_eq.symm
    have hrest := hdrop.tail rfl (by decide) (by decide)
    exact hrest.skipBlanks.sameText.isPrefixOf (forall_mem_of_all (by decide))

theorem isArrowAssignment : isArrowAssignment s = BranchTally.isArrowAssignment s' := by
  refine any_eq_of_rel h.declaredValue? fun v v' hv => ?_
  have hparams := hv.read (spacedChar? '(')
    (fun g hg => stopsAt_spacedChar? hg (ne_paren_guard hg))
    fun _ _ hrest => (List.suffix_cons _ _).trans (suffix_of_spacedChar? hrest)
  have hparens := any_eq_of_rel hparams fun _ _ hp => hp.arrowAfterParens
  have htake := hv.sameText.takeWhile_ne (by decide : isInert '=' = false)
  have hsign : arrow.isPrefixOf (v.dropWhile (· ≠ '=')) = arrow.isPrefixOf (v'.dropWhile (· ≠ '=')) :=
    SameText.isPrefixOf (hv.sameText.dropWhile_ne (by decide)) (forall_mem_of_all (by decide))
  simp only [hparens, htake.isEmpty, hsign]

theorem sameSignature : SameSignature s s' where
  signature isArrow := by
    have hnamed := h.blind fun g hg => blind_opensNamedFunction hg
    have hhead := h.blind fun g hg => blind_head? (c := '(') hg (ne_paren_guard hg)
    have hparen := h.anyTail (fun g hg _ => (stopsAt_arrowParen hg).isSome) fun _ hs =>
      ⟨'(', mem_of_arrowParen hs, by decide⟩
    have hcall := h.anyTail (fun g hg _ => (stopsAt_methodCall hg).isSome) fun _ hs =>
      ⟨'(', mem_of_methodCall hs, by decide⟩
    rw [hasSignature, hasSignature, hnamed, hhead, hparen, hcall, h.sameText.hasBracesInParens,
      h.sameText.contains (by decide : isInert '(' = false)]
  walk state number first := by
    rw [ListState.walkLine, ListState.walkLine, h.occurs_functionWord, h.sameText.walk]
  defaults := h.countDefaults
  read := h.signatureDefaults
  paren := h.sameText.contains (by decide)
  function := h.occurs_functionWord
  declared := h.isDeclaredAssignment
  arrowAssignment := h.isArrowAssignment

theorem sameOperators : SameOperators s s' := by
  cases h with
  | same => exact .refl s
  | quotation t h => exact h.sameOperators

theorem sameDestructuring : SameDestructuring s s' where
  opens := h.blind fun g hg => blind_opensDestructuring hg
  endBrace := h.sameText.contains (by decide)
  equals := h.sameText.contains (by decide)
  ends := by rw [h.getLast?_eq]

/-- Requoted lines read alike. -/
theorem sameShape : SameShape s s' where
  operators := h.sameOperators
  trimmed := h.trim.sameOperators
  arrows := h.sameArrows
  tags := h.sameTags
  signature := h.sameSignature
  destructuring := h.trim.sameDestructuring
  opens := h.blind fun g hg => blind_opensDestructuring hg
  plain := h.blind fun g hg => blind_opensPlainDeclaration hg
  destructured := h.count (by simp [Quotation.forms])

end Requoted

end BranchTally
