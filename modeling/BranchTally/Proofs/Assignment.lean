-- SUMMARY: When an assignment in the body of a function is read as a default: exactly where an arrow is near and no test takes the line for something else.
import BranchTally.Proofs.ParameterList
import BranchTally.Proofs.Signature.Layout

/-!
# Assignments in a body

Behind a parameter list that closes on its first line, an equals sign can only be read as a default
where an arrow stands on its line, or on one of the five lines below, so that the list seems to go on.
Then the tests for assignments, calls, dependency arrays and attributes are all that keeps it from
being counted.
-/

namespace BranchTally

open Text

/-! ## Arrows -/

theorem isSome_arrowPosition? {line : Line} (h : arrow.isPrefixOf line = false) :
    (arrowPosition? line).isSome = hasArrow line := by
  have hfind : (find? arrow line).isSome = hasArrow line := isSome_find? arrow line
  cases hline : find? arrow line with
  | none => rw [arrowPosition?, hline, ← hfind, hline]; rfl
  | some i =>
    have hpos : 0 < i := by
      cases line with
      | nil => simp [find?, arrow] at hline
      | cons c rest =>
        rw [find?, if_neg (Bool.eq_false_iff.1 h)] at hline
        obtain ⟨j, -, rfl⟩ := Option.map_eq_some_iff.1 hline
        exact Nat.succ_pos j
    rw [arrowPosition?, hline, ← hfind, hline, Option.filter_some_pos (by simpa using hpos)]

/-! ## Behind a closed list -/

section

variable {key : Int} {b : Boundary} {f : Focus} {lines : List Line} {line : Line}

theorem defaultPoints_ne_nil_iff {count : Nat} {number owner : Int} :
    defaultPoints count number owner ≠ [] ↔ count ≠ 0 := by
  rw [defaultPoints, Ne, List.replicate_eq_nil_iff]

/-- A line of the body is drawn into the list by a default of its own and an arrow below it. -/
theorem lt_widenedListEnd_iff (hbody : b.start < f.number) (signature : Bool) :
    f.number < widenedListEnd b.start b.start f line signature ↔
      countDefaults line ≠ 0 ∧ (arrowBelow? f).isSome = true := by
  have hnumber : ¬f.number < b.start := by omega
  have hstart : f.number ≠ b.start := by omega
  by_cases hcount : countDefaults line = 0
  · simp [widenedListEnd, hcount, hbody.le]
  · cases harrow : arrowBelow? f with
    | none => simp [widenedListEnd, hcount, hnumber, hstart, harrow]
    | some stop =>
      have hlt : f.number < stop := by
        have := (bounds_arrowBelow? harrow).1
        omega
      simp [widenedListEnd, hcount, hnumber, hstart, harrow, hlt]

theorem arrowBelow?_of_opensSplitArrow (h : opensSplitArrow line f = true) :
    countDefaults line ≠ 0 ∧ (arrowBelow? f).isSome = true := by
  simp only [opensSplitArrow, Bool.and_eq_true, decide_eq_true_eq] at h
  obtain ⟨⟨⟨hcount, -⟩, harrow⟩, -⟩ := h
  refine ⟨hcount, ?_⟩
  split at harrow
  · next next rest hafter => simp [isSome_arrowBelow?, hafter, arrowLookahead, harrow]
  · exact absurd harrow Bool.false_ne_true

/-- The signature takes a line of the body for its own where an arrow is near. -/
theorem signaturePoints_ne_nil_iff (hstop : parameterListEnd f.number b.start lines line = b.start)
    (hbody : b.start < f.number) (hdeclared : declaredValue? line = none)
    (hdependency : isDependencyArray line f = hasDependencyArray line) :
    signaturePoints lines line f key b ≠ [] ↔
      isNoArrowContext line f = false ∧
        ((arrowPosition? line).isSome = true ∨ (arrowBelow? f).isSome = true) ∧
        signatureDefaults line ≠ 0 := by
  have hstart : f.number ≠ b.start := by omega
  have hexcluded : isExcluded line f = isNoArrowContext line f := by
    simp [isExcluded, isDeclaredAssignment, isArrowAssignment, hdeclared]
  have hwidened := @lt_widenedListEnd_iff b f line hbody
  simp only [signaturePoints, hstop, hdependency, hexcluded, hstart, hbody.le, decide_true,
    decide_false, Bool.and_false, Bool.false_and, Bool.or_false, Bool.not_false, Bool.and_true,
    Bool.true_and, hwidened]
  cases hcontext : isNoArrowContext line f with
  | true => simp
  | false =>
    have hothers : hasDependencyArray line = false ∧ isMarkupAttribute line f = false := by
      simp only [isNoArrowContext, Bool.or_eq_false_iff] at hcontext
      exact ⟨hcontext.1.2, hcontext.2⟩
    simp only [hothers, Bool.and_false, Bool.false_eq_true, if_false, true_and]
    cases hposition : (arrowPosition? line).isSome with
    | true => simp [defaultPoints_ne_nil_iff]
    | false =>
      have hdefaults : signatureDefaults line = countDefaults line := by
        rw [Option.isSome_eq_false_iff, Option.isNone_iff_eq_none] at hposition
        rw [signatureDefaults, hposition]
      have hsplit := @arrowBelow?_of_opensSplitArrow f line
      rw [hdefaults]
      by_cases hgate : countDefaults line ≠ 0 ∧ (arrowBelow? f).isSome = true
      · simp [hgate, defaultPoints_ne_nil_iff]
      · have hno : opensSplitArrow line f = false := Bool.eq_false_iff.2 (mt hsplit hgate)
        simp [hgate, hno]
        tauto

/-- What a line of the only function reads as defaults, behind a list that closed on its first line and
outside destructuring declarations. -/
theorem readDefaults_ne_nil_iff
    (hstop : parameterListEnd f.number b.start lines (stripComments f.line) = b.start)
    (hbody : b.start < f.number) (hdeclared : declaredValue? (stripComments f.line) = none)
    (hdependency : isDependencyArray (stripComments f.line) f =
      hasDependencyArray (stripComments f.line))
    (hopens : opensDestructuring (stripComments f.line) = false)
    (habove : ∀ above ∈ f.before, opensDestructuring (trim (stripComments above)) = false) :
    readDefaults (Ownership.of (.single key b)) lines f key ≠ [] ↔
      isNoArrowContext (stripComments f.line) f = false ∧
        ((arrowPosition? (stripComments f.line)).isSome = true ∨ (arrowBelow? f).isSome = true) ∧
        (arrowDefaults (stripComments f.line) ≠ 0 ∨ signatureDefaults (stripComments f.line) ≠ 0) := by
  have hsignature := @signaturePoints_ne_nil_iff key b f lines (stripComments f.line) hstop hbody
    hdeclared hdependency
  have harrow : arrowPoints (stripComments f.line) f key ≠ [] ↔
      isNoArrowContext (stripComments f.line) f = false ∧ arrowDefaults (stripComments f.line) ≠ 0 := by
    cases hcontext : isNoArrowContext (stripComments f.line) f <;>
      simp [arrowPoints, hcontext, defaultPoints_ne_nil_iff]
  have howner : (Ownership.of (.single key b)).arrowOwner f.number key = (key, some b) := by
    have hnone : (Ownership.of (.single key b)).startingOn f.number = [] := by
      simp [Ownership.startingOn, Ownership.of, BoundaryMap.owners, BoundaryMap.single, hbody.ne]
    rw [Ownership.arrowOwner, hnone, get?_single]
    rfl
  have hread : readDefaults (Ownership.of (.single key b)) lines f key =
      parameterPoints (Ownership.of (.single key b)) lines f key := by
    rw [readDefaults, get?_single, destructuringPoints_eq_nil hopens habove]
    split
    · next hempty => exact (List.isEmpty_iff.1 hempty).symm
    · rfl
  rw [hread, parameterPoints]
  simp only [howner, get?_single]
  cases hposition : (arrowPosition? (stripComments f.line)).isSome with
  | true =>
    rw [hposition] at hsignature
    rw [if_pos rfl]
    split
    · next hempty =>
      have hnone := mt harrow.2 (not_not.2 (List.isEmpty_iff.1 hempty))
      rw [hsignature]
      tauto
    · next hsome =>
      have hpoints := harrow.1 (mt List.isEmpty_iff.2 hsome)
      simp [harrow.2 hpoints, hpoints]
  | false =>
    have hzero : arrowDefaults (stripComments f.line) = 0 := by
      rw [Option.isSome_eq_false_iff, Option.isNone_iff_eq_none] at hposition
      rw [arrowDefaults, hposition]
    rw [hposition] at hsignature
    simp [hsignature, hzero]

end

/-! ## Assignments -/

/-- The assignment `name = …` as it is written, with its indent. -/
def assignmentLine (indent : Gap) (name : FreeIdentifier) (value : Line) : Line :=
  indent.text ++ (name.text ++ ' ' :: '=' :: ' ' :: value)

section

variable (indent : Gap) (name : FreeIdentifier) (value : Line)

theorem followsName_equals : FollowsName (' ' :: '=' :: ' ' :: value) := by
  intro c hc
  have hskip : skipBlanks (' ' :: '=' :: ' ' :: value) = '=' :: ' ' :: value := rfl
  rw [hskip] at hc
  exact Or.inl (Option.some.inj hc).symm

theorem stripComments_assignmentLine : stripComments (assignmentLine indent name value) =
    assignmentLine indent name (stripComments value) := by
  have hindent : '/' ∉ indent.text := indent.not_mem (by decide)
  have hname : '/' ∉ name.text := name.not_mem (by decide)
  have hequals : '/' ∉ [' ', '=', ' '] := by decide
  rw [assignmentLine, stripComments_append hindent, stripComments_append hname]
  exact congrArg (fun v => indent.text ++ (name.text ++ v)) (stripComments_append hequals value)

theorem exists_skipBlanks_assignmentLine : ∃ c rest, isNameChar c = true ∧
    skipBlanks (assignmentLine indent name value) = c :: rest := by
  obtain ⟨c, more, hname⟩ := List.exists_cons_of_ne_nil name.ne_nil
  refine ⟨c, more ++ ' ' :: '=' :: ' ' :: value, name.nameChars c (by simp [hname]), ?_⟩
  rw [assignmentLine, skipBlanks_append indent.blank, name.skipBlanks_append, hname]
  rfl

theorem isQuiet_assignmentLine : isQuiet (assignmentLine indent name value) = false := by
  obtain ⟨c, rest, hc, hskip⟩ := exists_skipBlanks_assignmentLine indent name value
  refine isQuiet_of_head hskip ?_ ?_ <;> rintro rfl <;> exact absurd hc (by decide)

end

/-- The test for dependency arrays that looks at the line above needs a bracket at the front. -/
theorem isDependencyArray_assignmentLine (indent : Gap) (name : FreeIdentifier) (value : Line)
    (f : Focus) : isDependencyArray (assignmentLine indent name value) f =
      hasDependencyArray (assignmentLine indent name value) := by
  obtain ⟨c, rest, hc, hskip⟩ := exists_skipBlanks_assignmentLine indent name value
  have hne : c ≠ '[' := by
    rintro rfl
    exact absurd hc (by decide)
  unfold isDependencyArray
  split
  · rw [hskip, List.head?_cons]
    simp [hne]
  · rw [Bool.or_false]

theorem arrow_isPrefixOf_assignmentLine (indent : Gap) (name : FreeIdentifier) (value : Line) :
    arrow.isPrefixOf (assignmentLine indent name value) = false := by
  have hhead : ∀ c ∈ indent.text ++ name.text, c ≠ '=' := by
    rintro c hc rfl
    rcases List.mem_append.1 hc with hc | hc
    · exact indent.not_mem (by decide) hc
    · exact name.not_mem (by decide) hc
  obtain ⟨c, more, hcons⟩ := List.exists_cons_of_ne_nil
    (List.append_ne_nil_of_right_ne_nil indent.text name.ne_nil)
  have hne : c ≠ '=' := hhead c (by simp [hcons])
  rw [assignmentLine, ← List.append_assoc, hcons, List.cons_append, arrow, List.isPrefixOf]
  simp [hne.symm]

/-- The first line of a declared function opens no destructuring declaration. -/
theorem SignatureOpening.opensDestructuring_trim (o : SignatureOpening) (line : Line) :
    opensDestructuring (trim (stripComments (o.text ++ line))) = false := by
  rw [o.stripComments_text]
  obtain ⟨more, htrim⟩ := exists_trim_eq_cons (o.skipBlanks_text (stripComments line))
  rw [htrim]
  rfl

/-! ## Assignments of words -/

/-- The value is a word, or a number that begins with a digit, up to its semicolon. -/
def IsWordValue (value : Line) : Prop :=
  ∃ first rest, value = first :: (rest ++ [';']) ∧ isWord first = true ∧
    ∀ c ∈ rest, isNameChar c = true ∨ isNumeralChar c = true

namespace IsWordValue

variable {value : Line} (h : IsWordValue value)

include h

theorem not_mem {c : Char} (hname : isNameChar c = false) (hnumeral : isNumeralChar c = false)
    (hsemicolon : c ≠ ';') : c ∉ value := by
  obtain ⟨first, rest, rfl, hfirst, hrest⟩ := h
  have hne : c ≠ first := by
    rintro rfl
    simp [isNameChar, hfirst] at hname
  have hmore : c ∉ rest := fun hc => by
    rcases hrest c hc with h | h
    · exact Bool.false_ne_true (hname.symm.trans h)
    · exact Bool.false_ne_true (hnumeral.symm.trans h)
  simp [hne, hmore, hsemicolon]

theorem isSome_word? : (word? (skipBlanks (' ' :: value))).isSome = true := by
  obtain ⟨first, rest, rfl, hfirst, -⟩ := h
  have hblank : isBlank first = false := isBlank_of_isNameChar (by simp [isNameChar, hfirst])
  have hskip : skipBlanks (' ' :: first :: (rest ++ [';'])) = first :: (rest ++ [';']) :=
    skipBlanks_cons_of_not_isBlank hblank _
  rw [hskip, word?, run?, if_pos hfirst]
  rfl

/-- The name, the equals sign and the value are read off the front one after the other. -/
theorem isSome_words (indent : Gap) {name : FreeIdentifier} (hname : ∀ c ∈ name.text, isWord c = true) :
    (((word? (skipBlanks (assignmentLine indent name value))).bind (spacedChar? '=')).bind fun s =>
      word? (skipBlanks s)).isSome = true := by
  obtain ⟨c, more, htext⟩ := List.exists_cons_of_ne_nil name.ne_nil
  have hc : isWord c = true := hname c (by simp [htext])
  have hmore : ∀ d ∈ more, isWord d = true := fun d hd => hname d (by simp [htext, hd])
  have htaken : word? (name.text ++ ' ' :: '=' :: ' ' :: value) = some (' ' :: '=' :: ' ' :: value) := by
    rw [htext, List.cons_append, word?, run?, if_pos hc, List.dropWhile_append_of_pos hmore]
    rfl
  rw [assignmentLine, skipBlanks_append indent.blank, name.skipBlanks_append, htaken]
  exact h.isSome_word?

/-- An assignment of words looks like a plain one. -/
theorem isRegularAssignment (indent : Gap) {name : FreeIdentifier}
    (hname : ∀ c ∈ name.text, isWord c = true) :
    isRegularAssignment (stripComments (assignmentLine indent name value)) = true := by
  have hmem (c : Char) (hblank : isBlank c = false) (hnameChar : isNameChar c = false)
      (hnumeral : isNumeralChar c = false) (hsigns : c ∉ [' ', '=', ';']) :
      c ∉ assignmentLine indent name value := by
    simp only [List.mem_cons, List.not_mem_nil, or_false, not_or] at hsigns
    simp [assignmentLine, indent.not_mem hblank, name.not_mem hnameChar, hsigns,
      h.not_mem hnameChar hnumeral hsigns.2.2]
  have hparen := hmem '(' (by decide) (by decide) (by decide) (by decide)
  have hcomma := hmem ',' (by decide) (by decide) (by decide) (by decide)
  have hopening := hmem '{' (by decide) (by decide) (by decide) (by decide)
  have hclosing := hmem '}' (by decide) (by decide) (by decide) (by decide)
  have hequals : hasEqualsInParens (assignmentLine indent name value) = false := by
    refine anyTail_eq_false fun t ht => ?_
    split
    · exact absurd (ht.subset List.mem_cons_self) hparen
    · rfl
  have hlast : (trim (assignmentLine indent name value)).getLast? ≠ some ',' :=
    fun hlast => hcomma (mem_of_mem_trim (List.mem_of_getLast? hlast))
  rw [stripComments_of_not_mem (hmem '/' (by decide) (by decide) (by decide) (by decide)),
    BranchTally.isRegularAssignment, h.isSome_words indent hname, hequals]
  simp [hlast, hopening, hclosing]

end IsWordValue

/-! ## Assignments as defaults -/

section

variable {source : List Char} {opening : SignatureOpening} {parameters : ParameterLine}
  {closing : Line} {above below : List Line} {indent : Gap} {name : FreeIdentifier} {value : Line}
  {boundary : Boundary}

/-- The line in its place below the signature makes as many defaults as are read from it. -/
theorem defaultCount_assignmentLine {header : Line}
    (hlines : splitLines source = header :: (above ++ assignmentLine indent name value :: below))
    (hstart : boundary.start = 1) (hstop : 2 + above.length ≤ boundary.stop) (key : Int) :
    defaultCount (2 + above.length) (decisionPoints source (.single key boundary)) =
      (readDefaults (Ownership.of (.single key boundary)) (splitLines source)
        ⟨2 + above.length, above.reverse ++ [header], assignmentLine indent name value, below⟩
        key).length := by
  have hnumber : (2 + above.length : Int) = 1 + ((header :: above).length : Nat) := by
    rw [List.length_cons]
    omega
  have hinside : boundary.contains (2 + above.length) = true := by
    simp only [Boundary.contains, Bool.and_eq_true, decide_eq_true_eq]
    omega
  have hcode := isQuiet_assignmentLine indent name value
  have hscan := @defaultCount_scanLine_single key boundary (splitLines source)
    ⟨2 + above.length, above.reverse ++ [header], assignmentLine indent name value, below⟩ hinside
    fun h => absurd (h.symm.trans hcode) (by decide)
  rw [hnumber, defaultCount_line (List.cons_append ▸ hlines), ← hnumber, List.reverse_cons]
  exact hscan

theorem defaultCount_assignment_ne_zero_iff
    (hlines : splitLines source = (opening.text ++ (parameters.text ++ ')' :: closing)) ::
      (above ++ assignmentLine indent name value :: below))
    (hclosing : '=' ∉ closing)
    (habove : ∀ line ∈ above, opensDestructuring (trim (stripComments line)) = false)
    (hstart : boundary.start = 1) (hstop : 2 + above.length ≤ boundary.stop) (key : Int) :
    let line := stripComments (assignmentLine indent name value)
    let f : Focus := ⟨2 + above.length,
      above.reverse ++ [opening.text ++ (parameters.text ++ ')' :: closing)],
      assignmentLine indent name value, below⟩
    defaultCount (2 + above.length) (decisionPoints source (.single key boundary)) ≠ 0 ↔
      (hasArrow line = true ∨ ∃ next ∈ below.take 5, hasArrow (stripComments next) = true) ∧
        (arrowDefaults line ≠ 0 ∨ signatureDefaults line ≠ 0) ∧
        isRegularAssignment line = false ∧ isMethodCall line = false ∧
        hasDependencyArray line = false ∧ isMarkupAttribute line f = false := by
  intro line f
  have hline : line = assignmentLine indent name (stripComments value) :=
    stripComments_assignmentLine indent name value
  have hlist : parameterListEnd f.number boundary.start (splitLines source) line = boundary.start := by
    have hend := @parameterListEnd_signature f.number line opening [] (by decide) parameters closing
      hclosing (above ++ assignmentLine indent name value :: below)
    rw [hstart, hlines]
    exact hend
  have hbefore : ∀ next ∈ f.before, opensDestructuring (trim (stripComments next)) = false := by
    intro next hnext
    rcases List.mem_append.1 hnext with hnext | hnext
    · exact habove next (List.mem_reverse.1 hnext)
    · obtain rfl := List.mem_singleton.1 hnext
      exact opening.opensDestructuring_trim _
  have hbody : boundary.start < f.number := by
    dsimp only [f]
    omega
  have hdeclared : declaredValue? line = none := by
    rw [hline]
    exact (followsName_equals _).declaredValue?_eq_none
  have hdependency : isDependencyArray line f = hasDependencyArray line := by
    rw [hline]
    exact isDependencyArray_assignmentLine indent name _ f
  have hopens : opensDestructuring line = false := by
    rw [hline]
    exact (followsName_equals _).opensDestructuring_eq_false indent
  have hread : readDefaults (Ownership.of (.single key boundary)) (splitLines source) f key ≠ [] ↔
      isNoArrowContext line f = false ∧
        ((arrowPosition? line).isSome = true ∨ (arrowBelow? f).isSome = true) ∧
        (arrowDefaults line ≠ 0 ∨ signatureDefaults line ≠ 0) :=
    readDefaults_ne_nil_iff hlist hbody hdeclared hdependency hopens hbefore
  have hcount : defaultCount (2 + above.length) (decisionPoints source (.single key boundary)) =
      (readDefaults (Ownership.of (.single key boundary)) (splitLines source) f key).length :=
    defaultCount_assignmentLine hlines hstart hstop key
  have hposition : (arrowPosition? line).isSome = hasArrow line :=
    isSome_arrowPosition? (hline ▸ arrow_isPrefixOf_assignmentLine indent name _)
  have hcontext : isNoArrowContext line f = (isMethodCall line || isRegularAssignment line ||
      hasDependencyArray line || isMarkupAttribute line f) := by
    rw [hline]
    exact (followsName_equals _).isNoArrowContext_eq
  have hbelow : (arrowBelow? f).isSome = true ↔
      ∃ next ∈ below.take 5, hasArrow (stripComments next) = true := by
    rw [isSome_arrowBelow?, List.any_eq_true]
    rfl
  rw [hcount, Ne, List.length_eq_zero_iff, ← Ne, hread, hposition, hcontext, hbelow]
  simp only [Bool.or_eq_false_iff]
  constructor
  · rintro ⟨⟨⟨⟨hmethod, hregular⟩, harray⟩, hmarkup⟩, harrow, hdefault⟩
    exact ⟨harrow, hdefault, hregular, hmethod, harray, hmarkup⟩
  · rintro ⟨harrow, hdefault, hregular, hmethod, harray, hmarkup⟩
    exact ⟨⟨⟨⟨hmethod, hregular⟩, harray⟩, hmarkup⟩, harrow, hdefault⟩

/-- Below a parameter list that closes on the first line, and outside destructuring declarations, an
assignment makes a default exactly where an arrow stands on its line or on the next five, a default
is read from its text, and it looks neither like a plain assignment nor like a call, a dependency
array or an attribute. One of words, or of a word and a number, always looks like a plain one. -/
theorem assignment_makes_default_iff
    (hlines : splitLines source = (opening.text ++ (parameters.text ++ ')' :: closing)) ::
      (above ++ assignmentLine indent name value :: below))
    (hclosing : '=' ∉ closing)
    (habove : ∀ line ∈ above, opensDestructuring (trim (stripComments line)) = false)
    (hstart : boundary.start = 1) (hstop : 2 + above.length ≤ boundary.stop) (key : Int) :
    let line := stripComments (assignmentLine indent name value)
    let f : Focus := ⟨2 + above.length,
      above.reverse ++ [opening.text ++ (parameters.text ++ ')' :: closing)],
      assignmentLine indent name value, below⟩
    let count := defaultCount (2 + above.length) (decisionPoints source (.single key boundary))
    (count ≠ 0 ↔
      (hasArrow line = true ∨ ∃ next ∈ below.take 5, hasArrow (stripComments next) = true) ∧
        (arrowDefaults line ≠ 0 ∨ signatureDefaults line ≠ 0) ∧
        isRegularAssignment line = false ∧ isMethodCall line = false ∧
        hasDependencyArray line = false ∧ isMarkupAttribute line f = false) ∧
      (IsWordValue value → (∀ c ∈ name.text, isWord c = true) → count = 0) := by
  intro line f count
  have hiff := defaultCount_assignment_ne_zero_iff hlines hclosing habove hstart hstop key
  refine ⟨hiff, fun hvalue hname => ?_⟩
  have hregular := hvalue.isRegularAssignment indent hname
  by_contra hcount
  exact Bool.false_ne_true ((hiff.1 hcount).2.2.1.symm.trans hregular)

end

/-- The function `f(a)` with the line `$x = 5;` above a callback. -/
theorem assignment_makes_default_iff_dollar :
    let source := "function f(a) \x7b\n  let y;\n  $x = 5;\n  y.map(z => z);\n\x7d".toList
    let m := BoundaryMap.single 1 ⟨1, 5, by decide⟩
    let above : List Line := ["  let y;".toList]
    let below : List Line := ["  y.map(z => z);".toList, ['\x7d']]
    splitLines source = "function f(a) \x7b".toList :: (above ++ "  $x = 5;".toList :: below) ∧
      (∀ line ∈ above, opensDestructuring (trim (stripComments line)) = false) ∧
      defaultCount (2 + above.length) (decisionPoints source m) ≠ 0 := by
  intro source m above below
  let name (text : Line) (hne : text ≠ []) (h : ∀ c ∈ text, isNameChar c = true)
      (hfree : text ∉ reservedWords) : FreeIdentifier := ⟨⟨text, hne, h⟩, hfree⟩
  let opening : SignatureOpening :=
    ⟨.empty, .space, by simp [Gap.space], name ['f'] (by simp) (forall_mem_of_all (by decide)) (by decide), .empty⟩
  let parameters : ParameterLine :=
    ⟨[⟨.empty, ⟨name ['a'] (by simp) (forall_mem_of_all (by decide)) (by decide), none⟩, none⟩], .empty⟩
  let indent : Gap := ⟨[' ', ' '], forall_mem_of_all (by decide), by simp⟩
  let dollar : FreeIdentifier :=
    name ['$', 'x'] (by simp) (forall_mem_of_all (by decide)) (by decide)
  have hlines : splitLines source = (opening.text ++ (parameters.text ++ ')' :: [' ', '\x7b'])) ::
      (above ++ assignmentLine indent dollar "5;".toList :: below) := by decide
  have habove : ∀ line ∈ above, opensDestructuring (trim (stripComments line)) = false := by decide
  have hiff := (@assignment_makes_default_iff source opening parameters _ above below indent dollar _
    ⟨1, 5, by decide⟩ hlines (by decide) habove rfl (by decide) 1).1
  refine ⟨by decide, habove, hiff.2 ?_⟩
  decide

/-- A text is no word, so its assignment to a name makes a default if a callback stands below it. -/
theorem assignment_of_text_makes_default :
    let source := "function f(a) \x7b\n  x = \"abc\";\n  y.map(z => z);\n\x7d".toList
    let m := BoundaryMap.single 1 ⟨1, 4, by decide⟩
    splitLines source = ["function f(a) \x7b".toList, "  x = \"abc\";".toList,
        "  y.map(z => z);".toList, ['\x7d']] ∧
      defaultCount 2 (decisionPoints source m) = 1 := by
  intro source m
  have hlines : splitLines source = ["function f(a) \x7b".toList, "  x = \"abc\";".toList,
      "  y.map(z => z);".toList, ['\x7d']] := by decide
  let f : Focus := ⟨2, ["function f(a) \x7b".toList], "  x = \"abc\";".toList,
    ["  y.map(z => z);".toList, ['\x7d']]⟩
  have hcode : isQuiet f.line = false := by decide
  have hread : (readDefaults (Ownership.of m) (splitLines source) f 1).length = 1 := by
    rw [hlines]
    decide
  have hscan : defaultCount 2 (scanLine (Ownership.of m) (splitLines source) f) = 1 :=
    (@defaultCount_scanLine_single 1 _ _ f (by decide) fun h =>
      absurd (h.symm.trans hcode) (by decide)).trans hread
  have hline := @defaultCount_line source ["function f(a) \x7b".toList] _ _ hlines m
  exact ⟨hlines, hline.trans hscan⟩

end BranchTally
