-- SUMMARY: Which defaults are read on the lines of a printed signature: those above the closing parenthesis, save where a line reads as an assignment.
import BranchTally.Proofs.DefaultCount
import BranchTally.Proofs.Signature.Extent

/-!
# Defaults on signature lines

Where the parameters take several lines, the first line is read whatever it looks like, the lines
between are read unless they look like assignments, and the line of the closing parenthesis is not
read. Where they take one line, this line is read if it has the look of a signature.
-/

namespace BranchTally

open Text

/-! ## Readings of a line -/

theorem isSome_arrowBelow? (f : Focus) :
    (arrowBelow? f).isSome = (f.after.take arrowLookahead).any fun line =>
      hasArrow (stripComments line) := by
  have hfrom (lines : List Line) (number : Int) : (arrowBelowFrom number lines).isSome =
      lines.any fun line => hasArrow (stripComments line) := by
    induction lines generalizing number with
    | nil => rfl
    | cons line lines ih =>
      rw [arrowBelowFrom, List.any_cons]
      split
      · next h => rw [h]; rfl
      · next h => rw [ih, Bool.eq_false_iff.2 h]; rfl
  exact hfrom _ _

section

variable {key : Int} {b : Boundary} {f : Focus} {lines : List Line} {line : Line}

theorem get?_single (key : Int) (b : Boundary) :
    (Ownership.of (.single key b)).boundaries.get? key = some b := by
  simp [Ownership.of, BoundaryMap.single, OrderedMap.get?]

/-- Nothing is read from a destructuring declaration where none is open. -/
theorem destructuringPoints_eq_nil (hopens : opensDestructuring (stripComments f.line) = false)
    (habove : ∀ above ∈ f.before, opensDestructuring (trim (stripComments above)) = false) :
    destructuringPoints f key (some b) = [] := by
  have hlookback (distance : Int) {above : List Line}
      (h : ∀ line ∈ above, opensDestructuring (trim (stripComments line)) = false) :
      isInDestructuringFrom f b distance above = false := by
    induction above generalizing distance with
    | nil => rfl
    | cons next above ih =>
      simp [isInDestructuringFrom, h next List.mem_cons_self,
        ih _ fun line hline => h line (List.mem_cons_of_mem _ hline)]
  have hinside : isInDestructuring (stripComments f.line) f b = false := by
    rw [isInDestructuring, hopens,
      hlookback 1 fun line hline => habove line (List.mem_of_mem_take hline)]
    rfl
  simp [destructuringPoints, hinside]

theorem readDefaults_single (harrow : hasArrow (stripComments f.line) = false)
    (hopens : opensDestructuring (stripComments f.line) = false)
    (habove : ∀ above ∈ f.before, '{' ∉ above) :
    readDefaults (Ownership.of (.single key b)) lines f key =
      signaturePoints lines (stripComments f.line) f key b := by
  have hparameters : parameterPoints (Ownership.of (.single key b)) lines f key =
      signaturePoints lines (stripComments f.line) f key b := by
    simp [parameterPoints, arrowPosition?_eq_none harrow, get?_single]
  have hnone : destructuringPoints f key (some b) = [] := by
    refine destructuringPoints_eq_nil hopens fun above hmem => ?_
    exact opensDestructuring_of_not_mem fun hbrace =>
      habove above hmem ((stripComments_sublist above).subset (mem_of_mem_trim hbrace))
  rw [readDefaults, hparameters, get?_single, hnone]
  split
  · next hempty => exact (List.isEmpty_iff.1 hempty).symm
  · rfl

theorem signaturePoints_inList {stop : Int} (harrow : hasArrow line = false)
    (hdependency : isDependencyArray line f = false)
    (hstop : parameterListEnd f.number b.start lines line = stop) (hwide : b.start < stop)
    (hfrom : b.start ≤ f.number) (hto : f.number < stop) :
    signaturePoints lines line f key b =
      if !(hasSignature line false && f.number = b.start && !isPlainDeclaration line) &&
        isExcluded line f then [] else defaultPoints (countDefaults line) f.number key := by
  have hposition := arrowPosition?_eq_none harrow
  have hwidened : widenedListEnd stop b.start f line (hasSignature line false) = stop := by
    simp [widenedListEnd, hwide.ne']
  simp [signaturePoints, hposition, hstop, hwidened, hdependency, hfrom, hto, signatureDefaults]

/-- No arrow follows on the next line where none stands below. -/
theorem opensSplitArrow_eq_false (hbelow : ∀ next ∈ f.after, hasArrow (stripComments next) = false) :
    opensSplitArrow line f = false := by
  unfold opensSplitArrow
  split
  · next next rest hafter => simp [hbelow next (hafter ▸ List.mem_cons_self)]
  · simp

theorem signaturePoints_behindList {stop : Int} (harrow : hasArrow line = false)
    (hstop : parameterListEnd f.number b.start lines line = stop) (hwide : b.start < stop)
    (hbehind : stop ≤ f.number)
    (hbelow : ∀ next ∈ f.after, hasArrow (stripComments next) = false) :
    signaturePoints lines line f key b = [] := by
  have hposition := arrowPosition?_eq_none harrow
  have hwidened : widenedListEnd stop b.start f line (hasSignature line false) = stop := by
    simp [widenedListEnd, hwide.ne']
  have hsplit : opensSplitArrow line f = false := opensSplitArrow_eq_false hbelow
  have hstart : f.number ≠ b.start := by omega
  have hout : ¬f.number < stop := by omega
  simp [signaturePoints, hposition, hstop, hwidened, hsplit, hstart, hout]

theorem signaturePoints_oneLine (harrow : hasArrow line = false)
    (hdeclared : declaredValue? line = none)
    (hstop : parameterListEnd f.number b.start lines line = b.start) (hnumber : f.number = b.start)
    (hbefore : f.before = []) (hbelow : ∀ next ∈ f.after, hasArrow (stripComments next) = false) :
    signaturePoints lines line f key b =
      if hasSignature line false && !hasDependencyArray line then
        defaultPoints (countDefaults line) f.number key
      else [] := by
  have hposition := arrowPosition?_eq_none harrow
  have hplain : isPlainDeclaration line = false := by
    simp [isPlainDeclaration, isDeclaredAssignment, hdeclared]
  have hdependency : isDependencyArray line f = hasDependencyArray line := by
    simp [isDependencyArray, hbefore]
  have hsplit : opensSplitArrow line f = false := opensSplitArrow_eq_false hbelow
  cases hsignature : hasSignature line false with
  | true =>
    cases hhook : hasDependencyArray line <;>
      simp [signaturePoints, hposition, hsignature, hplain, hdependency, hhook, hnumber,
        signatureDefaults]
  | false =>
    have hwidened : widenedListEnd b.start b.start f line false = b.start := by
      have hnone : arrowBelow? f = none := by
        rw [← Option.isNone_iff_eq_none, ← Option.isSome_eq_false_iff, isSome_arrowBelow?,
          List.any_eq_false]
        exact fun next hnext => Bool.eq_false_iff.1 (hbelow next (List.mem_of_mem_take hnext))
      simp [widenedListEnd, hnone]
    rw [hnumber] at hstop
    simp [signaturePoints, hposition, hsignature, hstop, hwidened, hsplit, hnumber]

end

/-! ## Printed lines -/

section

variable (key : Int) (lines : List Line) {b : Boundary} {f : Focus}

theorem readDefaults_of_not_mem (owner : Int) (h : '=' ∉ stripComments f.line) :
    readDefaults (Ownership.of (.single key b)) lines f owner = [] := by
  rw [readDefaults, destructuringPoints_of_not_mem _ _ h]
  split
  · rfl
  · next hempty => exact absurd (parameterPoints_of_not_mem _ lines owner h ▸ rfl) hempty

theorem length_defaultPoints (count : Nat) (number owner : Int) :
    (defaultPoints count number owner).length = count := List.length_replicate

/-- The first of several lines reports all defaults that are found on it. -/
theorem length_readDefaults_opening (o : SignatureOpening) (p : ParameterLine)
    (hcomma : ∀ q ∈ p.parameters.dropLast, q.comma ≠ none) (hline : f.line = o.text ++ p.text)
    (hbefore : f.before = []) (hnumber : f.number = b.start) {stop : Int}
    (hstop : parameterListEnd f.number b.start lines (stripComments f.line) = stop) (hwide : b.start < stop) :
    (readDefaults (Ownership.of (.single key b)) lines f key).length = p.foundDefaults := by
  have hnil : EqualsLeadToNumbers [] := .of_not_mem (by simp)
  have hequals : EqualsLeadToNumbers (o.text ++ p.text) := by
    rw [← List.append_nil p.text]
    exact .openingText o (.text p hnil)
  have hstrip : stripComments f.line = o.text ++ p.text := by
    rw [hline, o.stripComments_text, stripComments_of_not_mem (p.not_mem_text (by decide))]
  have hdependency : isDependencyArray (o.text ++ p.text) f = false := by
    have hbrace : '}' ∉ o.text ++ p.text := by
      simp [o.not_mem_text (by decide : isNameChar '}' = false) (by decide) (by decide),
        p.not_mem_text (by decide : isParameterChar '}' = false)]
    simp [isDependencyArray, hbefore, hasDependencyArray_of_not_mem hbrace]
  have hexcluded : isExcluded (o.text ++ p.text) f = false :=
    o.isExcluded_text (p.not_mem_text (by decide)) (p.not_mem_text (by decide)) hequals
  have hcount : countDefaults (o.text ++ p.text) = p.foundDefaults := by
    have hnone : spacedChar? '=' p.text = none := by
      rw [← List.append_nil p.text]
      exact p.spacedChar?_equals (by simp)
    have hfound := @ParameterLine.countFrom_text p hcomma (some '(') [] (by decide)
      (fun c hc => by simp at hc) (by simp)
    rw [List.append_nil] at hfound
    rw [countDefaults, DefaultForm.count, o.countFrom_text hnone, hfound]
  have harrow : hasArrow (stripComments f.line) = false := hstrip ▸ hequals.hasArrow_eq_false
  rw [readDefaults_single harrow (hstrip ▸ o.opensDestructuring_eq_false _) (by simp [hbefore]), hstrip,
    signaturePoints_inList (hstrip ▸ harrow) hdependency (hstrip ▸ hstop) hwide hnumber.ge
      (hnumber ▸ hwide), hexcluded, hcount, Bool.and_false]
  exact length_defaultPoints _ _ _

/-- A line between the first and the last reports the defaults that are found on it, unless it looks
like an assignment. -/
theorem length_readDefaults_between (p : ParameterLine)
    (hcomma : ∀ q ∈ p.parameters.dropLast, q.comma ≠ none) (hline : f.line = p.text)
    (hbefore : ∀ above ∈ f.before, '{' ∉ above) {stop : Int}
    (hstop : parameterListEnd f.number b.start lines (stripComments f.line) = stop) (hfrom : b.start < f.number)
    (hto : f.number < stop) :
    (readDefaults (Ownership.of (.single key b)) lines f key).length =
      if isRegularAssignment p.text then 0 else p.foundDefaults := by
  have hstrip : stripComments f.line = p.text := by
    rw [hline, stripComments_of_not_mem (p.not_mem_text (by decide))]
  by_cases hne : p.parameters = []
  · have hempty : '=' ∉ p.text := by
      simp [ParameterLine.text, hne, p.tail.not_mem (by decide : isBlank '=' = false)]
    rw [readDefaults_of_not_mem key lines key (hstrip ▸ hempty)]
    simp [ParameterLine.foundDefaults, hne]
  · obtain ⟨gap, name, s, htext, hfollows⟩ := p.exists_name hcomma hne (z := []) (by simp)
    rw [List.append_nil] at htext
    have hnil : EqualsLeadToNumbers [] := .of_not_mem (by simp)
    have hequals : EqualsLeadToNumbers p.text := by
      rw [← List.append_nil p.text]
      exact .text p hnil
    have hmem (c : Char) (hc : isParameterChar c = false) : c ∉ s := by
      have hall := p.not_mem_text hc
      rw [htext] at hall
      exact fun h => hall (by simp [h])
    have hdependency : isDependencyArray p.text f = false := by
      obtain ⟨c, rest, hname⟩ := List.exists_cons_of_ne_nil name.ne_nil
      have hc : c ≠ '[' :=
        ne_of_isNameChar (name.nameChars c (hname ▸ List.mem_cons_self)) (by decide)
      have hhead : (skipBlanks p.text).head? ≠ some '[' := by
        rw [htext, skipBlanks_append gap.blank, name.skipBlanks_append, hname]
        simpa using hc
      rw [isDependencyArray, hasDependencyArray_of_not_mem (p.not_mem_text (by decide))]
      split <;> simp [hhead]
    have hexcluded : isExcluded p.text f = isRegularAssignment p.text := by
      rw [htext] at hequals ⊢
      exact isExcluded_name hfollows (hmem '(' (by decide)) (hmem '}' (by decide)) hequals
    have hcount : countDefaults p.text = p.foundDefaults := by
      have hfound := @ParameterLine.countFrom_text p hcomma none [] rfl
        (fun c hc => by simp at hc) (by simp)
      rwa [List.append_nil] at hfound
    have hstart : f.number ≠ b.start := hfrom.ne'
    rw [readDefaults_single (hstrip ▸ hequals.hasArrow_eq_false)
      (hstrip ▸ opensDestructuring_of_not_mem (p.not_mem_text (by decide))) hbefore, hstrip,
      signaturePoints_inList hequals.hasArrow_eq_false hdependency (hstrip ▸ hstop)
        (hfrom.trans hto) hfrom.le hto, hexcluded, hcount]
    cases isRegularAssignment p.text <;> simp [hstart, length_defaultPoints]

theorem hasArrow_stripComments {line : Line} (h : '=' ∉ line) : hasArrow (stripComments line) = false :=
  hasArrow_of_not_mem fun hmem => h ((stripComments_sublist line).subset hmem)

/-- The line of the closing parenthesis below the first line reports nothing. -/
theorem readDefaults_closing (p : ParameterLine)
    (hcomma : ∀ q ∈ p.parameters.dropLast, q.comma ≠ none) {z : Line} (hz : '=' ∉ z)
    (hline : f.line = p.text ++ ')' :: z) (hbefore : ∀ above ∈ f.before, '{' ∉ above)
    {stop : Int} (hstop : parameterListEnd f.number b.start lines (stripComments f.line) = stop)
    (hwide : b.start < stop) (hbehind : stop ≤ f.number)
    (hbelow : ∀ next ∈ f.after, '=' ∉ next) :
    readDefaults (Ownership.of (.single key b)) lines f key = [] := by
  have hstrip : stripComments f.line = p.text ++ stripComments (')' :: z) := by
    rw [hline, p.stripComments_text]
  have hequals : EqualsLeadToNumbers (stripComments f.line) := hstrip ▸ .text p (.closing hz)
  have hopens : opensDestructuring (stripComments f.line) = false := by
    have hbehind : stripComments (')' :: z) = ')' :: stripComments z :=
      stripComments_append (u := [')']) (by decide) z
    rw [hstrip, hbehind]
    by_cases hne : p.parameters = []
    · have htext : p.text = p.tail.text := by simp [ParameterLine.text, hne]
      rw [opensDestructuring, htext, skipBlanks_append p.tail.blank,
        skipBlanks_cons_of_not_isBlank (by decide)]
      rfl
    · obtain ⟨gap, name, s, htext, hfollows⟩ :=
        p.exists_name hcomma hne (z := ')' :: stripComments z) (by simp)
      rw [htext]
      exact hfollows.opensDestructuring_eq_false gap
  have harrows : ∀ next ∈ f.after, hasArrow (stripComments next) = false :=
    fun next hnext => hasArrow_stripComments (hbelow next hnext)
  rw [readDefaults_single hequals.hasArrow_eq_false hopens hbefore,
    signaturePoints_behindList hequals.hasArrow_eq_false hstop hwide hbehind harrows]

/-- The line of the closing parenthesis, where it is the first one, reports the defaults that are
found on it if it has the look of a signature. -/
theorem length_readDefaults_oneLine (o : SignatureOpening) (p : ParameterLine)
    (hcomma : ∀ q ∈ p.parameters.dropLast, q.comma ≠ none) {z : Line} (hz : '=' ∉ z)
    (hline : f.line = o.text ++ (p.text ++ ')' :: z)) (hbefore : f.before = [])
    (hnumber : f.number = b.start)
    (hstop : parameterListEnd f.number b.start lines (stripComments f.line) = b.start)
    (hbelow : ∀ next ∈ f.after, '=' ∉ next) :
    (readDefaults (Ownership.of (.single key b)) lines f key).length =
      if hasSignature (stripComments f.line) false && !hasDependencyArray (stripComments f.line) then
        p.foundDefaults
      else 0 := by
  have hbehind : stripComments (')' :: z) = ')' :: stripComments z :=
    stripComments_append (u := [')']) (by decide) z
  have hstrip : stripComments f.line = o.text ++ (p.text ++ ')' :: stripComments z) := by
    rw [hline, o.stripComments_text, p.stripComments_text, hbehind]
  have hrest : '=' ∉ ')' :: stripComments z := by
    simpa using fun hmem => hz ((stripComments_sublist z).subset hmem)
  have hequals : EqualsLeadToNumbers (stripComments f.line) := by
    rw [hstrip]
    exact .openingText o (.text p (.of_not_mem hrest))
  have hcount : countDefaults (stripComments f.line) = p.foundDefaults := by
    have hends : EndsValue (')' :: stripComments z) :=
      fun c hc => Or.inr (Or.inr (Option.some.inj hc).symm)
    rw [hstrip, countDefaults, DefaultForm.count, o.countFrom_text (p.spacedChar?_equals hrest),
      p.countFrom_text hcomma (by decide) hends hrest]
  have hdeclared : declaredValue? (stripComments f.line) = none := by
    rw [hstrip, o.declaredValue?_eq_none]
  have hopens : opensDestructuring (stripComments f.line) = false := by
    rw [hstrip, o.opensDestructuring_eq_false]
  have harrows : ∀ next ∈ f.after, hasArrow (stripComments next) = false :=
    fun next hnext => hasArrow_stripComments (hbelow next hnext)
  rw [readDefaults_single hequals.hasArrow_eq_false hopens (by simp [hbefore]),
    signaturePoints_oneLine hequals.hasArrow_eq_false hdeclared hstop hnumber hbefore harrows, hcount]
  split
  · exact length_defaultPoints _ _ _
  · rfl

end

end BranchTally
