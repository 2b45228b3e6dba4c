-- SUMMARY: The points of each line of a printed condition: the keyword on the first, the operators on every line.
import BranchTally.Proofs.Condition.Headers

/-!
# Points of condition lines

Every operator that is printed on a line is found there. On the first line the header claims them all,
since they stand between its parentheses. On the later lines they count as an expression.
-/

namespace BranchTally

open Text

/-! ## Operators of a line -/

theorem occurrencesFrom_append_of_not_mem {token text : List Char} (htoken : token ≠ [])
    (h : ∀ c ∈ text, c ∉ token) (pos : Nat) (rest : Line) :
    occurrencesFrom token 0 pos (text ++ rest) =
      occurrencesFrom token 0 (pos + text.length) rest := by
  induction text generalizing pos with
  | nil => rfl
  | cons c text ih =>
    have hrest := ih (fun d hd => h d (List.mem_cons_of_mem _ hd)) (pos + 1)
    rw [List.cons_append, occurrencesFrom_cons_of_not_mem pos (h c List.mem_cons_self) htoken, hrest,
      List.length_cons]
    congr 1
    omega

theorem occurrencesFrom_of_not_mem {token text : List Char} (htoken : token ≠ [])
    (h : ∀ c ∈ text, c ∉ token) (pos : Nat) : occurrencesFrom token 0 pos text = [] := by
  have hnone := occurrencesFrom_append_of_not_mem htoken h pos []
  rwa [List.append_nil] at hnone

theorem Gap.not_mem_token (gap : Gap) (op : Logical) : ∀ c ∈ gap.text, c ∉ op.token := by
  intro c hc
  refine op.not_mem_token (Bool.eq_false_iff.2 fun hlogical => ?_)
  simp only [isLogicalChar, Bool.or_eq_true, decide_eq_true_eq] at hlogical
  rcases hlogical with rfl | rfl <;> exact gap.not_mem (by decide) hc

theorem ConditionHeader.not_mem_token (header : ConditionHeader) (op : Logical) :
    ∀ c ∈ header.text, c ∉ op.token := by
  have hchars : ∀ c ∈ header.text, isLogicalChar c = false :=
    forall_mem_of_all (by cases header <;> decide)
  exact fun c hc => op.not_mem_token (hchars c hc)

/-- Characters that a token of a condition has in common with an operator are those of the operator. -/
theorem ConditionToken.not_mem_token {t : ConditionToken} {op : Logical} (h : t.isOp op = false) :
    ∀ c ∈ t.text, c ∉ op.token := by
  cases t with
  | word name =>
    intro c hc
    have hname := name.nameChars c hc
    have hconj := ne_of_isNameChar hname (by decide : isNameChar '&' = false)
    have hdisj := ne_of_isNameChar hname (by decide : isNameChar '|' = false)
    exact op.not_mem_token (by simp [isLogicalChar, hconj, hdisj])
  | logical other =>
    cases op <;> cases other <;> first
      | exact absurd h (by decide)
      | exact forall_mem_of_all (by decide)
  | bang => exact forall_mem_of_all (by cases op <;> decide)
  | opening => exact forall_mem_of_all (by cases op <;> decide)
  | closing => exact forall_mem_of_all (by cases op <;> decide)
  | final => exact forall_mem_of_all (by cases op <;> decide)

/-- The line has each operator as often as it is printed. -/
theorem length_occurrencesFrom_text (line : PrintedLine ConditionToken) (op : Logical) (pos : Nat) :
    (occurrencesFrom op.token 0 pos line.text).length = line.tokens.countP (·.isOp op) := by
  have htoken := op.token_ne_nil
  obtain ⟨pieces, tail⟩ := line
  induction pieces generalizing pos with
  | nil =>
    rw [PrintedLine.text_nil, occurrencesFrom_of_not_mem htoken (tail.not_mem_token op)]
    rfl
  | cons piece pieces ih =>
    obtain ⟨gap, t⟩ := piece
    rw [PrintedLine.text_cons, occurrencesFrom_append_of_not_mem htoken (gap.not_mem_token op),
      PrintedLine.tokens, List.map_cons, List.countP_cons]
    cases hop : t.isOp op with
    | false =>
      change (occurrencesFrom op.token 0 _ (t.text ++ _)).length = _
      rw [occurrencesFrom_append_of_not_mem htoken (t.not_mem_token hop), ih]
      rfl
    | true =>
      obtain rfl : t = .logical op := by
        cases t with
        | logical other =>
          obtain rfl : other = op := by simpa [ConditionToken.isOp] using hop
          rfl
        | _ => simp [ConditionToken.isOp] at hop
      have hfirst : occurrencesFrom op.token 0 (pos + gap.text.length)
          (op.token ++ (⟨pieces, tail⟩ : PrintedLine ConditionToken).text) =
          (pos + gap.text.length) :: occurrencesFrom op.token 0 (pos + gap.text.length + 2)
            (⟨pieces, tail⟩ : PrintedLine ConditionToken).text := by
        cases op <;> rfl
      change (occurrencesFrom op.token 0 _ (op.token ++ _)).length = _
      rw [hfirst, List.length_cons, ih]
      rfl

theorem logicalPoints_eq_operatorPoints {text : Line} {line : PrintedLine ConditionToken}
    (h : ∀ op : Logical, (findTokens text op.token).length = line.tokens.countP (·.isOp op))
    (number : Int) :
    logicalPoints text number 1 = PrintedCondition.operatorPoints number line := by
  simp only [logicalPoints, PrintedCondition.operatorPoints, pointsAt, List.map_const', h]

/-! ## Lines below the first -/

theorem ConditionToken.exists_cons_text (t : ConditionToken) :
    ∃ c rest, t.text = c :: rest ∧ isBlank c = false := by
  cases t with
  | word name =>
    obtain ⟨c, rest, hname⟩ := List.exists_cons_of_ne_nil name.ne_nil
    exact ⟨c, rest, hname, isBlank_of_isNameChar (name.nameChars c (by simp [hname]))⟩
  | logical op => cases op <;> exact ⟨_, _, rfl, by decide⟩
  | _ => exact ⟨_, _, rfl, by decide⟩

/-- Of the names that begin with `case`, the word ends there for those that go on with a dollar
sign. -/
theorem isCase_name {name : FreeIdentifier} {rest : Line} (hstop : StopsName rest) :
    (literal? ['c', 'a', 's', 'e'] (name.text ++ rest)).any atWordEnd =
      ['c', 'a', 's', 'e', '$'].isPrefixOf name.text := by
  cases hliteral : literal? ['c', 'a', 's', 'e'] (name.text ++ rest) with
  | none =>
    refine (Bool.eq_false_iff.2 fun hprefix => ?_).symm
    obtain ⟨more, hname⟩ := List.isPrefixOf_iff_prefix.1 hprefix
    have hsome : literal? ['c', 'a', 's', 'e'] (name.text ++ rest) = some ('$' :: (more ++ rest)) :=
      literal?_eq_some_iff.2 (by rw [← hname]; rfl)
    rw [hliteral] at hsome
    exact absurd hsome (by simp)
  | some tail =>
    obtain ⟨more, hname, rfl⟩ :=
      append_eq_of_head (fun _ => hstop.not_isNameChar) (forall_mem_of_all (by decide)) (literal?_eq_some_iff.1 hliteral)
    obtain ⟨c, more, rfl⟩ :=
      List.exists_cons_of_ne_nil (name.ne_nil_of_append (by decide) hname)
    have hc : isNameChar c = true := name.nameChars c (by simp [hname])
    simp only [isNameChar, Bool.or_eq_true, decide_eq_true_eq] at hc
    rw [hname]
    rcases hc with hc | rfl
    · have hne : '$' ≠ c := by
        rintro rfl
        revert hc
        decide
      simp [atWordEnd, hc, List.isPrefixOf, hne]
    · simp [atWordEnd, List.isPrefixOf, show isWord '$' = false by decide]

theorem literal?_case_eq_none {t : ConditionToken} (h : t.isWord = false) (rest : Line) :
    literal? ['c', 'a', 's', 'e'] (t.text ++ rest) = none := by
  rw [Option.eq_none_iff_forall_ne_some]
  intro tail htail
  obtain ⟨c, more, htext, -⟩ := t.exists_cons_text
  have hc : isNameChar c = false := t.not_isNameChar_of_mem h c (by simp [htext])
  rw [literal?_eq_some_iff, htext] at htail
  obtain rfl := (List.cons.inj htail).1
  exact absurd hc (by decide)

theorem spacedChar?_colon_eq_none {s word rest : Line} (line : PrintedLine ConditionToken)
    (hs : s <:+ line.text) (h : literal? word s = some rest) : spacedChar? ':' rest = none := by
  rw [Option.eq_none_iff_forall_ne_some]
  intro tail htail
  have hsuffix := (suffix_of_spacedChar? htail).trans ((suffix_of_literal? h).trans hs)
  exact not_mem_conditionText (by decide) (by decide) (by decide) line
    (hsuffix.subset List.mem_cons_self)

theorem skipBlanks_text_cons (gap : Gap) (t : ConditionToken) (pieces : List (Piece ConditionToken))
    (tail : Gap) :
    skipBlanks (⟨⟨gap, t⟩ :: pieces, tail⟩ : PrintedLine ConditionToken).text =
      t.text ++ (⟨pieces, tail⟩ : PrintedLine ConditionToken).text := by
  obtain ⟨c, more, htext, hblank⟩ := t.exists_cons_text
  rw [PrintedLine.text_cons, skipBlanks_append gap.blank]
  change skipBlanks (t.text ++ _) = t.text ++ _
  rw [htext, List.cons_append, skipBlanks_cons_of_not_isBlank hblank]

/-- A line passes for a `case` where its first name does. -/
theorem isCase_text {line : PrintedLine ConditionToken} (h : Meeting line.tokens) :
    isCase line.text = PrintedCondition.opensLikeCase line := by
  have hdefault : ((literal? ['d', 'e', 'f', 'a', 'u', 'l', 't'] (skipBlanks line.text)).bind
      (spacedChar? ':')).isSome = false := by
    rw [Option.isSome_eq_false_iff, Option.isNone_iff_eq_none, Option.bind_eq_none_iff]
    exact fun rest hrest => spacedChar?_colon_eq_none line (skipBlanks_suffix _) hrest
  rw [isCase, hdefault, Bool.or_false]
  obtain ⟨pieces, tail⟩ := line
  cases pieces with
  | nil =>
    rw [PrintedLine.text_nil, tail.skipBlanks_text]
    rfl
  | cons piece pieces =>
    obtain ⟨gap, t⟩ := piece
    rw [skipBlanks_text_cons]
    cases hword : t.isWord with
    | false =>
      rw [literal?_case_eq_none hword]
      cases t with
      | word name => simp [ConditionToken.isWord] at hword
      | _ => rfl
    | true =>
      obtain ⟨name, rfl⟩ := t.exists_word_of_isWord hword
      exact isCase_name (stopsName_text h)

theorem Headers.of_text {line : PrintedLine ConditionToken} (h : Meeting line.tokens) :
    Headers.of line.text = { isCase := PrintedCondition.opensLikeCase line } := by
  have hnames := namesStop_text line h
  have hif := (parenForm_failsOnNames (by decide : ['i', 'f'].getLast?.any isNameChar = true)
    ).headersFrom_eq_nil hnames none 0
  have hwhile := (parenForm_failsOnNames
    (by decide : ['w', 'h', 'i', 'l', 'e'].getLast?.any isNameChar = true)
    ).headersFrom_eq_nil hnames none 0
  have hswitch := (parenForm_failsOnNames
    (by decide : ['s', 'w', 'i', 't', 'c', 'h'].getLast?.any isNameChar = true)
    ).headersFrom_eq_nil hnames none 0
  have helseIf := elseIfForm_failsOnNames.headersFrom_eq_nil hnames none 0
  have hfor := forForm_failsOnNames.headersFrom_eq_nil hnames none 0
  have hcatch := catchForm_failsOnNames.headersFrom_eq_nil hnames none 0
  have hdo := headersFrom_doForm_text line h none 0
  have htail : isDoTail line.text = false := by
    rw [isDoTail, Option.isSome_eq_false_iff, Option.isNone_iff_eq_none]
    cases hbrace : spacedChar? '}' line.text with
    | none => rfl
    | some rest =>
      exact absurd ((suffix_of_spacedChar? hbrace).subset List.mem_cons_self)
        (not_mem_conditionText (by decide) (by decide) (by decide) line)
  unfold Headers.of
  simp only [ifForm, whileForm, switchForm, header?_of_nil hif, header?_of_nil hwhile,
    header?_of_nil hswitch, header?_of_nil helseIf, header?_of_nil hfor, header?_of_nil hcatch,
    header?_of_nil hdo, htail, isCase_text h, Option.map_none, Option.getD_none, ite_self]

section

variable {boundary : Boundary} {lines : List Line} {f : Focus} {line : PrintedLine ConditionToken}

/-- A line below the first makes the points of its operators, and that of a `case` where it passes for
one. -/
theorem scanLine_text (hline : f.line = line.text) (hmeet : Meeting line.tokens)
    (hne : line.pieces ≠ []) (hbelow : ∀ l ∈ f.after, '?' ∉ l)
    (hinside : boundary.contains f.number = true) :
    scanLine (Ownership.of (.single 1 boundary)) lines f =
      (if PrintedCondition.opensLikeCase line then [⟨f.number, .caseClause, 1⟩] else []) ++
        PrintedCondition.operatorPoints f.number line := by
  have hplain : IsPlain f.line := hline ▸ isPlain_conditionText line
  have hheaders : Headers.of f.line = { isCase := PrintedCondition.opensLikeCase line } :=
    hline ▸ Headers.of_text hmeet
  have hcode : isQuiet f.line = false := by
    obtain ⟨⟨gap, t⟩, pieces, hpieces⟩ := List.exists_cons_of_ne_nil hne
    obtain ⟨c, rest, htext, hblank⟩ := t.exists_cons_text
    have hmem : c ∈ f.line := by
      rw [hline, PrintedLine.text, hpieces]
      refine List.mem_append_left _ (List.mem_append_left _ (List.mem_append_right _ ?_))
      change c ∈ t.text
      rw [htext]
      exact List.mem_cons_self
    refine isQuiet_of_not_mem hmem hblank (hplain.not_mem (by decide)) ?_
    exact hline ▸ not_mem_conditionText (by decide) (by decide) (by decide) line
  have hcounts (op : Logical) :
      (findTokens f.line op.token).length = line.tokens.countP (·.isOp op) := by
    rw [hplain.findTokens, hline, length_occurrencesFrom_text]
  rw [scanLine_single lines hcode hinside, codePoints_single lines hplain hbelow, hheaders,
    logicalPoints_eq_operatorPoints hcounts]
  simp [controlPoints, Headers.isControl, Headers.hasWhile]

/-! ## The first line -/

theorem closingParen?_header (header : ConditionHeader) (line : PrintedLine ConditionToken) :
    closingParen? (header.text ++ line.text) header.opening =
      closingParenFrom (1 : Nat) (header.opening + 1) (line.text.map fun c => (c, false)) := by
  have hplain := header.isPlain_text.append (isPlain_conditionText line)
  rw [closingParen?, hplain.maskedCells]
  cases header <;> rfl

/-- Between the parentheses of the header stand all operators of the line. -/
theorem findTokens_header (header : ConditionHeader) {line : PrintedLine ConditionToken}
    (hopen : StaysOpen 1 line.tokens) (op : Logical) :
    findTokens (header.text ++ line.text) op.token header.opening
      (closingParen? (header.text ++ line.text) header.opening) =
      findTokens (header.text ++ line.text) op.token := by
  have htoken := op.token_ne_nil
  have hplain := header.isPlain_text.append (isPlain_conditionText line)
  have hparen : (header.text ++ line.text)[header.opening]? = some '(' := by cases header <;> rfl
  rw [findTokens_window hparen (op.not_mem_token (by decide)) htoken, hplain.findTokens,
    List.filter_eq_self]
  intro i hi
  rw [occurrencesFrom_append_of_not_mem htoken (header.not_mem_token op), Nat.zero_add,
    header.length_text] at hi
  have hfrom := (bounds_of_mem_occurrencesFrom hi).1
  rw [Bool.and_eq_true]
  refine ⟨decide_eq_true (by omega), ?_⟩
  rw [Option.all_eq_true]
  intro closing hclosing
  rw [closingParen?_header] at hclosing
  obtain ⟨before, tail, htext, rfl⟩ := closingParenFrom_text (Nat.le_refl 1) hopen hclosing
  have hrest : occurrencesFrom op.token 0 (header.opening + 1 + before.length + 1)
      ([' ', '{'] ++ tail.text) = [] := by
    refine occurrencesFrom_of_not_mem htoken (fun c hc => ?_) _
    rcases List.mem_append.1 hc with hc | hc
    · have hplainChar : ∀ d ∈ [' ', '{'], isLogicalChar d = false := forall_mem_of_all (by decide)
      exact op.not_mem_token (hplainChar c hc)
    · exact tail.not_mem_token op c hc
  rw [htext] at hi
  have hcut := @occurrencesFrom_append_cons op.token before ([' ', '{'] ++ tail.text) ')' 0
    (header.opening + 1) (op.not_mem_token (by decide)) htoken (Nat.zero_le _)
  rw [show before ++ ([')', ' ', '{'] ++ tail.text) = before ++ ')' :: ([' ', '{'] ++ tail.text)
    from rfl, hcut, hrest, List.append_nil] at hi
  have hto := add_length_le_of_mem_occurrencesFrom hi
  exact decide_eq_true hto

/-- A header whose parentheses hold all operators of the line makes a point of each. -/
theorem operatorPoints_perm {text : Line} {h : Header} {p : Parens} (hparens : h.parens = some p)
    (hwhole : ∀ op : Logical,
      findTokens text op.token p.opening p.closing = findTokens text op.token)
    (number owner : Int) :
    (operatorPoints text h number owner).Perm (logicalPoints text number owner) := by
  have hsorted : (conditionOperators text h).Perm (Logical.all.flatMap fun op =>
      (findTokens text op.token).map fun i => (i, op)) := by
    simp only [conditionOperators, hparens, hwhole]
    exact List.mergeSort_perm _ _
  have hpoints := hsorted.map fun o => (⟨number, o.2.kind, owner⟩ : Point)
  rw [List.map_flatMap] at hpoints
  simpa only [operatorPoints, logicalPoints, pointsAt, List.map_map, Function.comp_def] using hpoints

theorem ifPoints_eq_headerPoints (ctx : Ownership) {text : Line} (htext : '=' ∉ text)
    (number : Int) (h : Header) (default : Int) :
    ifPoints ctx text number h default =
      headerPoints .ifBranch text number (controlOwner ctx number default) h := by
  have harrow : '=' ∈ ['=', '>'] := List.mem_cons_self
  cases hparens : h.parens <;>
    simp [ifPoints, headerPoints, operatorPoints, hparens,
      findTokens_eq_nil_of_not_mem harrow htext]

/-- The first line makes the point of its header and those of its operators. -/
theorem scanLine_header {header : ConditionHeader} (hline : f.line = header.text ++ line.text)
    (hmeet : Meeting line.tokens) (hopen : StaysOpen 1 line.tokens)
    (hbelow : ∀ l ∈ f.after, '?' ∉ l) (hinside : boundary.contains f.number = true) :
    (scanLine (Ownership.of (.single 1 boundary)) lines f).Perm
      (⟨f.number, header.kind, 1⟩ :: PrintedCondition.operatorPoints f.number line) := by
  have hplain : IsPlain f.line :=
    hline ▸ header.isPlain_text.append (isPlain_conditionText line)
  have hcode : isQuiet f.line = false := by
    have hstar : '*' ∉ f.line := by
      rw [hline, List.mem_append, not_or]
      refine ⟨by cases header <;> decide, ?_⟩
      exact not_mem_conditionText (by decide) (by decide) (by decide) line
    have hparen : '(' ∈ f.line := by
      rw [hline]
      exact List.mem_append_left _ (by cases header <;> decide)
    exact isQuiet_of_not_mem hparen (by decide) (hplain.not_mem (by decide)) hstar
  have hcounts (op : Logical) :
      (findTokens f.line op.token).length = line.tokens.countP (·.isOp op) := by
    rw [hplain.findTokens, hline,
      occurrencesFrom_append_of_not_mem op.token_ne_nil (header.not_mem_token op),
      length_occurrencesFrom_text]
  have hperm : (operatorPoints f.line (header.head f.line) f.number 1).Perm
      (PrintedCondition.operatorPoints f.number line) := by
    rw [← logicalPoints_eq_operatorPoints hcounts]
    refine operatorPoints_perm rfl (fun op => ?_) f.number 1
    rw [hline]
    exact findTokens_header header hopen op
  have howner : controlOwner (Ownership.of (.single 1 boundary)) f.number 1 = 1 :=
    hasKey_single.1 (hasKey_controlOwner f.number (hasKey_single.2 rfl))
  have hheaders : Headers.of f.line = header.headers f.line := hline ▸ Headers.of_header header hmeet
  rw [scanLine_single lines hcode hinside, codePoints_single lines hplain hbelow, hheaders]
  cases header with
  | ifHead =>
    have hif := ifPoints_eq_headerPoints (Ownership.of (.single 1 boundary))
      (hplain.not_mem (by decide : isPlainChar '=' = false)) f.number
      (ConditionHeader.ifHead.head f.line) 1
    simpa [controlPoints, ConditionHeader.headers, ConditionHeader.kind, Headers.isControl, hif,
      headerPoints, howner] using hperm
  | whileHead =>
    simpa [controlPoints, ConditionHeader.headers, ConditionHeader.kind, Headers.isControl,
      Headers.hasWhile, headerPoints, howner] using hperm
  | switchHead =>
    simpa [controlPoints, ConditionHeader.headers, ConditionHeader.kind, Headers.isControl,
      Headers.hasWhile, headerPoints, howner] using hperm
  | elseIfHead =>
    simpa [controlPoints, ConditionHeader.headers, ConditionHeader.kind, Headers.isControl,
      headerPoints] using hperm

end

end BranchTally
